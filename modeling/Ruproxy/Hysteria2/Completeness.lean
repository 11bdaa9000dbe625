/-
  Hysteria2/Completeness.lean --- when a reassembled datagram is complete.

  `FragBuffer::insert` decides by its counter alone, so a retransmitted fragment
  or an id past the total counts like a missing one.  `reassemblyComplete_iff`
  says for every sequence of frames when this does no harm: exactly when every
  group of fragments that reaches its announced number has distinct ids below
  that number.
-/
import Ruproxy.Hysteria2.Reassembly

set_option autoImplicit false

namespace Ruproxy.Hysteria2

open Ruproxy.Foundation

/-! ## Completeness of a datagram -/

/-- The buffer of a fragment's packet id, right after the fragment was stored. -/
def storedIn (t : Table UInt16 FragBuffer) (f : UdpFrame) : FragBuffer :=
  ((t.lookup f.packetId).getD (.new f.fragTotal f.addr f.port)).store f.fragId f.payload

/-- The datagram `d` joins, in id order, exactly one fragment for each id below the
total `t ≥ 2` of its buffer, and each is a fragment that was received. -/
structure JoinsAll (b : FragBuffer) (received : List UdpFrame) (d : Datagram) : Prop where
  two_le : 2 ≤ b.total.toNat
  ids_eq : b.ids.map UInt8.toNat = List.range b.total.toNat
  payload_eq : d.payload =
    (List.range b.total.toNat).flatMap fun i => (b.frags.lookup (UInt8.ofNat i)).getD []
  genuine : ∀ id payload, b.frags.lookup id = some payload →
    ∃ g ∈ received, g.fragId = id ∧ g.payload = payload

/-- Every reassembled datagram that goes out while the frames are relayed, from the
empty table of a new session, is complete. -/
def ReassemblyComplete (fs : List UdpFrame) : Prop :=
  ∀ pre f post, fs = pre ++ f :: post → 1 < f.fragTotal →
    ∀ d, (relayFrame (relayFrames ∅ pre).1 f).2 = some d →
      JoinsAll (storedIn (relayFrames ∅ pre).1 f)
        ((pre ++ [f]).filter fun g => g.packetId = f.packetId) d

/-- Each time the fragments waiting under a packet id reach the number that the
first of them announced, their ids are distinct and below that number. -/
def GroupsDistinct (fs : List UdpFrame) : Prop :=
  ∀ pre f post, fs = pre ++ f :: post → 1 < f.fragTotal →
    let g := openGroup f.packetId pre ++ [f]
    g.length = groupTotal g →
      (g.map (·.fragId)).Nodup ∧ ∀ x ∈ g, x.fragId.toNat < groupTotal g

/-! ## One frame -/

theorem storedIn_eq (pre : List UdpFrame) (f : UdpFrame) :
    storedIn (relayFrames ∅ pre).1 f = groupBuffer (openGroup f.packetId pre ++ [f]) := by
  rw [storedIn, slot_openGroup, store_groupSlot]

/-- A fragment makes a datagram go out exactly when it closes its group. -/
theorem relayFrame_out_iff {pre : List UdpFrame} {f : UdpFrame} (hf : 1 < f.fragTotal)
    {d : Datagram} :
    (relayFrame (relayFrames ∅ pre).1 f).2 = some d ↔
      (openGroup f.packetId pre ++ [f]).length = groupTotal (openGroup f.packetId pre ++ [f]) ∧
        d = groupDatagram (openGroup f.packetId pre ++ [f]) := by
  have hopen := isOpen_openGroup f.packetId pre
  have hle := length_append_le hopen hf
  rw [relayFrame_out, slot_openGroup, slotStep_groupSlot hopen hf]
  split
  · rename_i hge
    have heq := Nat.le_antisymm hle hge
    simp [heq, eq_comm]
  · rename_i hlt
    simp only [reduceCtorEq, false_iff, not_and]
    intro heq
    omega

/-- A waiting fragment is one of the frames received under its packet id, and
announced at least two fragments. -/
theorem mem_openGroup {p : UInt16} {fs : List UdpFrame} {x : UdpFrame}
    (h : x ∈ openGroup p fs) : x ∈ fs ∧ x.packetId = p ∧ 1 < x.fragTotal := by
  unfold openGroup at h
  induction fs using List.reverseRecOn with
  | nil => simp at h
  | append_singleton fs f ih =>
    rw [List.filter_append, List.foldl_append] at h
    by_cases hf : f.packetId = p ∧ 1 < f.fragTotal
    · simp only [hf, and_self, decide_true, List.filter_cons_of_pos, List.filter_nil,
        List.foldl_cons, List.foldl_nil, groupStep] at h
      split at h
      · simp at h
      · rcases List.mem_append.mp h with h | h
        · obtain ⟨hmem, hx⟩ := ih h
          exact ⟨List.mem_append_left _ hmem, hx⟩
        · obtain rfl := List.mem_singleton.mp h
          exact ⟨by simp, hf⟩
    · simp only [hf, decide_false, Bool.false_eq_true, not_false_eq_true,
        List.filter_cons_of_neg, List.filter_nil, List.foldl_nil] at h
      obtain ⟨hmem, hx⟩ := ih h
      exact ⟨List.mem_append_left _ hmem, hx⟩

theorem groupBuffer_append (g : List UdpFrame) (f : UdpFrame) :
    ∃ total addr port,
      groupBuffer (g ++ [f]) = (FragBuffer.new total addr port).fill (g ++ [f]) := by
  cases g with
  | nil => exact ⟨_, _, _, rfl⟩
  | cons h g => exact ⟨_, _, _, rfl⟩

/-- **One closing fragment.**  The datagram it makes go out is complete exactly when
the ids of its group are distinct and below the announced number. -/
theorem joinsAll_iff {pre : List UdpFrame} {f : UdpFrame} (hf : 1 < f.fragTotal)
    {d : Datagram} (hout : (relayFrame (relayFrames ∅ pre).1 f).2 = some d) :
    JoinsAll (storedIn (relayFrames ∅ pre).1 f)
        ((pre ++ [f]).filter fun g => g.packetId = f.packetId) d ↔
      ((openGroup f.packetId pre ++ [f]).map (·.fragId)).Nodup ∧
        ∀ x ∈ openGroup f.packetId pre ++ [f],
          x.fragId.toNat < groupTotal (openGroup f.packetId pre ++ [f]) := by
  obtain ⟨hlen, rfl⟩ := (relayFrame_out_iff hf).mp hout
  have hmem : ∀ x ∈ openGroup f.packetId pre ++ [f],
      x ∈ pre ++ [f] ∧ x.packetId = f.packetId ∧ 1 < x.fragTotal := by
    intro x hx
    rcases List.mem_append.mp hx with hx | hx
    · obtain ⟨hpre, hx⟩ := mem_openGroup hx
      exact ⟨List.mem_append_left _ hpre, hx⟩
    · obtain rfl := List.mem_singleton.mp hx
      exact ⟨by simp, rfl, hf⟩
  rw [storedIn_eq]
  generalize hgdef : openGroup f.packetId pre = g at *
  obtain ⟨total, addr, port, hbuf⟩ := groupBuffer_append g f
  have hids := ids_eq_range_iff total addr port hlen
  rw [← hbuf] at hids
  have htotal : (groupBuffer (g ++ [f])).total.toNat = groupTotal (g ++ [f]) :=
    groupBuffer_total
  rw [← htotal] at hids ⊢
  constructor
  · intro h
    exact hids.mp h.ids_eq
  · intro h
    have heq := hids.mpr h
    refine ⟨?_, heq, ?_, ?_⟩
    · rw [htotal]
      cases g with
      | nil =>
        have := UInt8.lt_iff_toNat_lt.mp hf
        exact this
      | cons x g =>
        have := UInt8.lt_iff_toNat_lt.mp (hmem x (by simp)).2.2
        exact this
    · exact joined_eq_of_ids heq
    · intro id payload hlookup
      rw [hbuf, FragBuffer.new_fill_lookup, Option.map_eq_some_iff] at hlookup
      obtain ⟨x, hfind, rfl⟩ := hlookup
      have hx := List.mem_of_find?_eq_some hfind
      refine ⟨x, ?_, by simpa using List.find?_some hfind, rfl⟩
      rw [List.mem_filter]
      exact ⟨(hmem x hx).1, by simp [(hmem x hx).2.1]⟩

/-! ## Whole sequences -/

/-- **When reassembly is complete.**  For every sequence of frames, all reassembled
datagrams are complete exactly when the ids of every group that reaches its
announced number are distinct and below that number. -/
theorem reassemblyComplete_iff (fs : List UdpFrame) :
    ReassemblyComplete fs ↔ GroupsDistinct fs := by
  constructor
  · intro h pre f post hfs hf g hlen
    have hout := (relayFrame_out_iff hf).mpr ⟨hlen, rfl⟩
    exact (joinsAll_iff hf hout).mp (h pre f post hfs hf _ hout)
  · intro h pre f post hfs hf d hout
    have hlen := ((relayFrame_out_iff hf).mp hout).1
    exact (joinsAll_iff hf hout).mpr (h pre f post hfs hf hlen)

/-- A client that sends the first of two fragments twice. -/
def retransmission : List UdpFrame :=
  let f : UdpFrame :=
    { sessionId := 1, packetId := 7, fragId := 0, fragTotal := 2, addr := "192.0.2.1",
      port := 53, payload := [104, 105] }
  [f, f]

/-- A retransmitted fragment makes an incomplete datagram go out. -/
theorem not_reassemblyComplete_retransmission : ¬ ReassemblyComplete retransmission := by
  intro h
  let f : UdpFrame :=
    { sessionId := 1, packetId := 7, fragId := 0, fragTotal := 2, addr := "192.0.2.1",
      port := 53, payload := [104, 105] }
  have hopen : openGroup f.packetId [f] = [f] := by decide
  have hfrag : 1 < f.fragTotal := by decide
  have hclosed : (openGroup f.packetId [f] ++ [f]).length =
      groupTotal (openGroup f.packetId [f] ++ [f]) := by
    rw [hopen]
    decide
  have hout := (relayFrame_out_iff hfrag).mpr ⟨hclosed, rfl⟩
  have hdistinct := ((joinsAll_iff (by decide) hout).mp
    (h [f] f [] rfl (by decide) _ hout)).1
  rw [hopen] at hdistinct
  exact absurd hdistinct (by decide)

end Ruproxy.Hysteria2
