/-
  Hysteria2/Mixing.lean --- which frames a reassembled datagram is joined from.

  A buffer is found by the packet id alone and keeps the total, the address and the
  port of the fragment that came first.  `relay_frame` compares none of them with a
  later fragment, and a buffer whose fragments were lost waits forever, so a packet id
  that comes again is stored into it.  `neverMixes_iff` says for every sequence of
  frames when fragments of two packets are not combined.
-/
import Ruproxy.Hysteria2.Completeness

set_option autoImplicit false

namespace Ruproxy.Hysteria2

open Ruproxy.Foundation

/-! ## The property -/

/-- The frames whose payloads a buffer holds after the fragments `g`: the first one of
each fragment id. -/
def heldFrames (g : List UdpFrame) : List UdpFrame :=
  g.foldl (fun held f => if ∃ h ∈ held, h.fragId = f.fragId then held else held ++ [f]) []

/-- The fragment `f`, relayed after `pre`, is combined with fragments of its own packet
only: the buffer it is stored in holds the payloads of `held`, what goes out is joined
from that buffer, and all of `held` carry its packet id, total, address and port. -/
structure Combines (pre : List UdpFrame) (f : UdpFrame) (held : List UdpFrame) : Prop where
  holds : ∀ id, (storedIn (relayFrames ∅ pre).1 f).frags.lookup id =
    (held.find? (·.fragId = id)).map (·.payload)
  joins : ∀ d, (relayFrame (relayFrames ∅ pre).1 f).2 = some d →
    d = ⟨target (storedIn (relayFrames ∅ pre).1 f).addr (storedIn (relayFrames ∅ pre).1 f).port,
      (storedIn (relayFrames ∅ pre).1 f).joined⟩
  agree : ∀ h ∈ held, h.packetId = f.packetId ∧
    h.fragTotal = (storedIn (relayFrames ∅ pre).1 f).total ∧
    h.addr = (storedIn (relayFrames ∅ pre).1 f).addr ∧
    h.port = (storedIn (relayFrames ∅ pre).1 f).port

/-- No fragment of the sequence is combined with fragments of another packet. -/
def NeverMixes (fs : List UdpFrame) : Prop :=
  ∀ pre f post, fs = pre ++ f :: post → 1 < f.fragTotal →
    Combines pre f (heldFrames (openGroup f.packetId pre ++ [f]))

/-- A fragment that is new to the buffer waiting under its packet id carries the total,
the address and the port of that buffer. -/
def Agrees (t : Table UInt16 FragBuffer) (f : UdpFrame) : Prop :=
  ∀ b, t.lookup f.packetId = some b → f.fragId ∉ b.frags →
    f.fragTotal = b.total ∧ f.addr = b.addr ∧ f.port = b.port

/-! ## The held frames -/

theorem heldFrames_append (g : List UdpFrame) (f : UdpFrame) :
    heldFrames (g ++ [f]) =
      if ∃ h ∈ heldFrames g, h.fragId = f.fragId then heldFrames g
      else heldFrames g ++ [f] := by
  rw [heldFrames, List.foldl_append]
  rfl

theorem mem_of_mem_heldFrames {g : List UdpFrame} {f : UdpFrame} (h : f ∈ heldFrames g) :
    f ∈ g := by
  induction g using List.reverseRecOn with
  | nil => exact h
  | append_singleton g x ih =>
    rw [heldFrames_append] at h
    split at h
    · exact List.mem_append_left _ (ih h)
    · rcases List.mem_append.mp h with h | h
      · exact List.mem_append_left _ (ih h)
      · exact List.mem_append_right _ h

/-- The held frame of an id is the first one that came with it. -/
theorem find_heldFrames (g : List UdpFrame) (id : UInt8) :
    (heldFrames g).find? (·.fragId = id) = g.find? (·.fragId = id) := by
  induction g using List.reverseRecOn with
  | nil => rfl
  | append_singleton g x ih =>
    rw [heldFrames_append, List.find?_append]
    split
    · rename_i hheld
      rw [ih]
      by_cases hx : x.fragId = id
      · subst hx
        have hsome : ((heldFrames g).find? (·.fragId = x.fragId)).isSome := by
          simpa [List.find?_isSome] using hheld
        rw [ih] at hsome
        rw [Option.or_of_isSome hsome]
      · simp [hx]
    · rw [List.find?_append, ih]

/-! ## One packet id -/

/-- All held frames of a group carry the total, the address and the port of its buffer. -/
def OnePacket (g : List UdpFrame) : Prop :=
  ∀ h ∈ heldFrames g, h.fragTotal = (groupBuffer g).total ∧ h.addr = (groupBuffer g).addr ∧
    h.port = (groupBuffer g).port

theorem onePacket_singleton (f : UdpFrame) : OnePacket [f] := by
  intro h hh
  obtain rfl := List.mem_singleton.mp (mem_of_mem_heldFrames hh)
  exact ⟨rfl, rfl, rfl⟩

theorem groupBuffer_store {g : List UdpFrame} (hg : g ≠ []) (f : UdpFrame) :
    groupBuffer (g ++ [f]) = (groupBuffer g).store f.fragId f.payload := by
  rw [← store_groupSlot, groupSlot, if_neg hg, Option.getD_some]

theorem groupBuffer_lookup {g : List UdpFrame} (hg : g ≠ []) (id : UInt8) :
    (groupBuffer g).frags.lookup id = (g.find? (·.fragId = id)).map (·.payload) := by
  cases g with
  | nil => exact absurd rfl hg
  | cons h g => exact FragBuffer.new_fill_lookup ..

/-- An id is new to the buffer exactly if no held frame has it. -/
theorem not_mem_frags_iff {g : List UdpFrame} (hg : g ≠ []) (id : UInt8) :
    id ∉ (groupBuffer g).frags ↔ ¬ ∃ h ∈ heldFrames g, h.fragId = id := by
  rw [← AList.lookup_isSome, groupBuffer_lookup hg, ← find_heldFrames, Option.isSome_map,
    List.find?_isSome]
  simp

/-- **One more fragment.**  It is held with the ones before it when its id is new. -/
theorem onePacket_append {g : List UdpFrame} (hg : g ≠ []) (hone : OnePacket g)
    (f : UdpFrame) :
    OnePacket (g ++ [f]) ↔ (f.fragId ∉ (groupBuffer g).frags →
      f.fragTotal = (groupBuffer g).total ∧ f.addr = (groupBuffer g).addr ∧
        f.port = (groupBuffer g).port) := by
  unfold OnePacket
  rw [not_mem_frags_iff hg, heldFrames_append, groupBuffer_store hg]
  split
  · rename_i hheld
    exact iff_of_true hone fun hnew => absurd hheld hnew
  · rename_i hnew
    constructor
    · intro h _
      exact h f (by simp)
    · intro h x hx
      rcases List.mem_append.mp hx with hx | hx
      · exact hone x hx
      · obtain rfl := List.mem_singleton.mp hx
        exact h hnew

/-- What is stored is the group, so only its agreement is in question. -/
theorem combines_iff {pre : List UdpFrame} {f : UdpFrame} (hf : 1 < f.fragTotal) :
    Combines pre f (heldFrames (openGroup f.packetId pre ++ [f])) ↔
      OnePacket (openGroup f.packetId pre ++ [f]) := by
  have hne : openGroup f.packetId pre ++ [f] ≠ [] := by simp
  have hstored := storedIn_eq pre f
  constructor
  · intro h x hx
    rw [← hstored]
    exact (h.agree x hx).2
  · intro h
    refine ⟨fun id => ?_, fun d hd => ?_, fun x hx => ⟨?_, ?_⟩⟩
    · rw [hstored, groupBuffer_lookup hne, find_heldFrames]
    · rw [hstored]
      exact ((relayFrame_out_iff hf).mp hd).2
    · rcases List.mem_append.mp (mem_of_mem_heldFrames hx) with hx | hx
      · exact (mem_openGroup hx).2.1
      · obtain rfl := List.mem_singleton.mp hx
        rfl
    · rw [hstored]
      exact h x hx

/-- **One frame.**  Where the waiting fragments are of one packet, another one is
combined with its own packet exactly if it agrees with their buffer. -/
theorem onePacket_append_iff_agrees {pre : List UdpFrame} {f : UdpFrame}
    (hone : OnePacket (openGroup f.packetId pre)) :
    OnePacket (openGroup f.packetId pre ++ [f]) ↔ Agrees (relayFrames ∅ pre).1 f := by
  unfold Agrees
  rw [slot_openGroup, groupSlot]
  rcases eq_or_ne (openGroup f.packetId pre) [] with hnil | hne
  · rw [hnil, if_pos rfl]
    exact iff_of_true (onePacket_singleton f) fun b hb => by cases hb
  · rw [if_neg hne, onePacket_append hne hone]
    simp

/-! ## Whole sequences -/

/-- What holds at every frame of a longer sequence. -/
theorem forall_cut_append {P : List UdpFrame → UdpFrame → Prop} {fs : List UdpFrame}
    {x : UdpFrame} :
    (∀ pre f post, fs ++ [x] = pre ++ f :: post → P pre f) ↔
      (∀ pre f post, fs = pre ++ f :: post → P pre f) ∧ P fs x := by
  constructor
  · intro h
    refine ⟨fun pre f post hfs => h pre f (post ++ [x]) ?_, h fs x [] rfl⟩
    rw [hfs, List.append_assoc, List.cons_append]
  · rintro ⟨hall, hx⟩ pre f post hfs
    rcases List.eq_nil_or_concat post with rfl | ⟨post, y, rfl⟩
    · obtain ⟨rfl, hfx⟩ := List.append_inj' hfs rfl
      cases hfx
      exact hx
    · rw [List.concat_eq_append, ← List.cons_append, ← List.append_assoc] at hfs
      exact hall pre f post (List.append_inj' hfs rfl).1

theorem openGroup_append (p : UInt16) (fs : List UdpFrame) (f : UdpFrame) :
    openGroup p (fs ++ [f]) =
      if f.packetId = p ∧ 1 < f.fragTotal then groupStep (openGroup p fs) f
      else openGroup p fs := by
  unfold openGroup
  rw [List.filter_append, List.foldl_append]
  split
  · rename_i hf
    simp [hf]
  · rename_i hf
    simp [hf]

/-- Where nothing was mixed, the fragments waiting under an id are of one packet. -/
theorem NeverMixes.onePacket {fs : List UdpFrame} (h : NeverMixes fs) (p : UInt16) :
    OnePacket (openGroup p fs) := by
  induction fs using List.reverseRecOn with
  | nil => exact fun x hx => absurd hx List.not_mem_nil
  | append_singleton fs f ih =>
    obtain ⟨hfs, hf⟩ := forall_cut_append.mp h
    rw [openGroup_append]
    split
    · rename_i hfrag
      obtain ⟨rfl, hfrag⟩ := hfrag
      unfold groupStep
      split
      · exact fun x hx => absurd hx List.not_mem_nil
      · exact (combines_iff hfrag).mp (hf hfrag)
    · exact ih hfs

/-- **When fragments are not mixed.**  For every sequence of frames relayed from the empty
table of a new session, no fragment is combined with fragments of another packet exactly
if every fragment that is new to a waiting buffer carries its total, address and port. -/
theorem neverMixes_iff (fs : List UdpFrame) :
    NeverMixes fs ↔ ∀ pre f post, fs = pre ++ f :: post → 1 < f.fragTotal →
      Agrees (relayFrames ∅ pre).1 f := by
  induction fs using List.reverseRecOn with
  | nil =>
    refine iff_of_true ?_ ?_
    · intro pre f post hfs
      simp at hfs
    · intro pre f post hfs
      simp at hfs
  | append_singleton fs f ih =>
    rw [NeverMixes, forall_cut_append, forall_cut_append, ← ih]
    refine and_congr_right fun hfs => forall_congr' fun hf => ?_
    rw [combines_iff hf, onePacket_append_iff_agrees (NeverMixes.onePacket hfs f.packetId)]

/-! ## An instance -/

/-- The first of two fragments; the second one is lost. -/
def lostFragment : UdpFrame where
  sessionId := 1
  packetId := 7
  fragId := 0
  fragTotal := 2
  addr := "192.0.2.1"
  port := 53
  payload := [104]

/-- The second fragment of a later packet, under the same id. -/
def laterFragment : UdpFrame :=
  { lostFragment with fragId := 1, addr := "192.0.2.2", payload := [105] }

/-- The two are joined and sent to the address of the first. -/
theorem not_neverMixes_laterFragment : ¬ ∀ fs : List UdpFrame, NeverMixes fs := by
  intro hall
  have hcombines := hall [lostFragment, laterFragment] [lostFragment] laterFragment [] rfl
    (by decide)
  have hstored : (storedIn (relayFrames ∅ [lostFragment]).1 laterFragment).addr =
      "192.0.2.1" := rfl
  have haddr := (hcombines.agree laterFragment (by decide)).2.2.1
  rw [hstored] at haddr
  exact absurd haddr (by decide)

end Ruproxy.Hysteria2
