/-
  Hysteria2/Reassembly.lean --- fragment buffers and `relay_frame`.

  The fragments of a packet are kept in a `FragBuffer` under their packet id.
  The buffer counts what it is given in `received`, apart from the map of the
  ids it holds, and gives its contents out when the counter reaches `total`.

  A table of buffers is studied one packet id at a time: `relayFrames_slot`
  shows that what a run does under a packet id depends only on the frames with
  that id.  Under one id, `slot_openGroup` gives the buffer after any run: it
  holds exactly the frames that came since it was last empty.
-/
import Ruproxy.Foundation.Table
import Ruproxy.Hysteria2.Frame

set_option autoImplicit false

namespace Ruproxy.Hysteria2

open Ruproxy.Foundation

/-! ## The buffer -/

/-- `FragBuffer`. -/
structure FragBuffer where
  total : UInt8
  received : UInt8
  frags : Table UInt8 Bytes
  addr : String
  port : UInt16

/-- A datagram handed to the socket: the text `send_to` resolves and the bytes. -/
structure Datagram where
  target : String
  payload : Bytes
  deriving DecidableEq

namespace FragBuffer

/-- `FragBuffer::new`. -/
def new (total : UInt8) (addr : String) (port : UInt16) : FragBuffer :=
  { total, received := 0, frags := ∅, addr, port }

/-- The first two statements of `FragBuffer::insert`: the first payload of an id
is kept, every call is counted. -/
def store (b : FragBuffer) (fragId : UInt8) (payload : Bytes) : FragBuffer :=
  { b with
    frags := if fragId ∈ b.frags then b.frags else b.frags.insert fragId payload
    received := b.received + 1 }

/-- The sorted `ids` of `FragBuffer::insert`. -/
def ids (b : FragBuffer) : List UInt8 := b.frags.keys.mergeSort (· ≤ ·)

/-- The loop of `FragBuffer::insert` that joins the fragments. -/
def joined (b : FragBuffer) : Bytes :=
  b.ids.flatMap fun id => (b.frags.lookup id).getD []

/-- `FragBuffer::insert`. -/
def insert (b : FragBuffer) (fragId : UInt8) (payload : Bytes) :
    FragBuffer × Option (Bytes × String × UInt16) :=
  let b := b.store fragId payload
  if b.received ≥ b.total then (b, some (b.joined, b.addr, b.port)) else (b, none)

end FragBuffer

/-! ## Relaying frames -/

/-- The text `relay_frame` hands to `send_to`. -/
def target (addr : String) (port : UInt16) : String := addr ++ ":" ++ dec port.toNat

/-- `relay_frame`: the table after the frame and the datagram handed to the
socket.  A failed send is only logged. -/
def relayFrame (fragTable : Table UInt16 FragBuffer) (frame : UdpFrame) :
    Table UInt16 FragBuffer × Option Datagram :=
  if frame.fragTotal ≤ 1 then
    (fragTable, some ⟨target frame.addr frame.port, frame.payload⟩)
  else
    let buf := (fragTable.lookup frame.packetId).getD
      (.new frame.fragTotal frame.addr frame.port)
    match buf.insert frame.fragId frame.payload with
    | (_, some (reassembled, addr, port)) =>
        (fragTable.erase frame.packetId, some ⟨target addr port, reassembled⟩)
    | (buf, none) => (fragTable.insert frame.packetId buf, none)

/-- The frames of a session relayed one after the other: the table at the end and
the datagrams handed to the socket, each with the packet id of the frame that
made it go out. -/
def relayFrames : Table UInt16 FragBuffer → List UdpFrame →
    Table UInt16 FragBuffer × List (UInt16 × Datagram)
  | fragTable, [] => (fragTable, [])
  | fragTable, frame :: frames =>
      let (fragTable, out) := relayFrame fragTable frame
      let (fragTable, outs) := relayFrames fragTable frames
      (fragTable, out.toList.map (frame.packetId, ·) ++ outs)

/-! ## One packet id at a time -/

/-- `relay_frame` seen from the entry of the frame's packet id. -/
def slotStep (slot : Option FragBuffer) (frame : UdpFrame) :
    Option FragBuffer × Option Datagram :=
  if frame.fragTotal ≤ 1 then
    (slot, some ⟨target frame.addr frame.port, frame.payload⟩)
  else
    match (slot.getD (.new frame.fragTotal frame.addr frame.port)).insert
        frame.fragId frame.payload with
    | (_, some (reassembled, addr, port)) => (none, some ⟨target addr port, reassembled⟩)
    | (buf, none) => (some buf, none)

/-- The frames of one packet id, relayed one after the other. -/
def slotRun : Option FragBuffer → List UdpFrame → Option FragBuffer × List Datagram
  | slot, [] => (slot, [])
  | slot, frame :: frames =>
      let (slot, out) := slotStep slot frame
      let (slot, outs) := slotRun slot frames
      (slot, out.toList ++ outs)

theorem relayFrame_lookup (t : Table UInt16 FragBuffer) (f : UdpFrame) :
    (relayFrame t f).1.lookup f.packetId = (slotStep (t.lookup f.packetId) f).1 := by
  unfold relayFrame slotStep
  split
  · rfl
  · split <;> simp [*]

theorem relayFrame_out (t : Table UInt16 FragBuffer) (f : UdpFrame) :
    (relayFrame t f).2 = (slotStep (t.lookup f.packetId) f).2 := by
  unfold relayFrame slotStep
  split
  · rfl
  · split <;> simp [*]

/-- A frame leaves the entries of the other packet ids alone. -/
theorem relayFrame_lookup_ne (t : Table UInt16 FragBuffer) {f : UdpFrame} {p : UInt16}
    (h : f.packetId ≠ p) : (relayFrame t f).1.lookup p = t.lookup p := by
  unfold relayFrame
  split
  · rfl
  · dsimp only
    split
    · exact AList.lookup_erase_ne h.symm
    · exact AList.lookup_insert_ne h.symm

/-- **What a run does under a packet id depends only on the frames with that id.** -/
theorem relayFrames_slot (p : UInt16) (t : Table UInt16 FragBuffer) (fs : List UdpFrame) :
    (relayFrames t fs).1.lookup p =
        (slotRun (t.lookup p) (fs.filter (·.packetId = p))).1 ∧
      ((relayFrames t fs).2.filter (·.1 = p)).map (·.2) =
        (slotRun (t.lookup p) (fs.filter (·.packetId = p))).2 := by
  induction fs generalizing t with
  | nil => simp [relayFrames, slotRun]
  | cons f fs ih =>
    obtain ⟨hslot, houts⟩ := ih (relayFrame t f).1
    by_cases hp : f.packetId = p
    · subst hp
      simp only [decide_true, List.filter_cons_of_pos, slotRun, relayFrames]
      rw [relayFrame_lookup] at hslot houts
      refine ⟨hslot, ?_⟩
      rw [List.filter_append, List.map_append, houts, relayFrame_out]
      congr 1
      cases (slotStep (t.lookup f.packetId) f).2 <;> simp
    · simp only [hp, decide_false, Bool.false_eq_true, not_false_eq_true,
        List.filter_cons_of_neg, relayFrames]
      rw [relayFrame_lookup_ne t hp] at hslot houts
      refine ⟨hslot, ?_⟩
      rw [List.filter_append, List.map_append, houts]
      cases (relayFrame t f).2 <;> simp [hp]

/-! ## Filling a buffer -/

/-- The buffer after a list of frames was stored in it. -/
def FragBuffer.fill (b : FragBuffer) (fs : List UdpFrame) : FragBuffer :=
  fs.foldl (fun b f => b.store f.fragId f.payload) b

namespace FragBuffer

@[simp] theorem fill_nil (b : FragBuffer) : b.fill [] = b := rfl

@[simp] theorem fill_cons (b : FragBuffer) (f : UdpFrame) (fs : List UdpFrame) :
    b.fill (f :: fs) = (b.store f.fragId f.payload).fill fs := rfl

theorem fill_append (b : FragBuffer) (fs gs : List UdpFrame) :
    b.fill (fs ++ gs) = (b.fill fs).fill gs := List.foldl_append

@[simp] theorem fill_total (b : FragBuffer) (fs : List UdpFrame) :
    (b.fill fs).total = b.total := by
  induction fs generalizing b with
  | nil => rfl
  | cons f fs ih => rw [fill_cons, ih, store]

@[simp] theorem fill_addr (b : FragBuffer) (fs : List UdpFrame) :
    (b.fill fs).addr = b.addr := by
  induction fs generalizing b with
  | nil => rfl
  | cons f fs ih => rw [fill_cons, ih, store]

@[simp] theorem fill_port (b : FragBuffer) (fs : List UdpFrame) :
    (b.fill fs).port = b.port := by
  induction fs generalizing b with
  | nil => rfl
  | cons f fs ih => rw [fill_cons, ih, store]

/-- The counter counts every frame, as long as it does not wrap. -/
theorem fill_received (b : FragBuffer) (fs : List UdpFrame)
    (h : b.received.toNat + fs.length < 256) :
    (b.fill fs).received.toNat = b.received.toNat + fs.length := by
  induction fs generalizing b with
  | nil => rfl
  | cons f fs ih =>
    rw [List.length_cons] at h
    have hstore : (b.store f.fragId f.payload).received.toNat = b.received.toNat + 1 := by
      have hone : (1 : UInt8).toNat = 1 := rfl
      rw [store, UInt8.toNat_add, hone]
      omega
    rw [fill_cons, ih _ (by omega), hstore, List.length_cons]
    omega

theorem store_lookup (b : FragBuffer) (fragId id : UInt8) (payload : Bytes) :
    (b.store fragId payload).frags.lookup id =
      (b.frags.lookup id).or (if fragId = id then some payload else none) := by
  unfold store
  by_cases hmem : fragId ∈ b.frags
  · obtain ⟨held, hheld⟩ := Option.isSome_iff_exists.mp (AList.lookup_isSome.mpr hmem)
    by_cases hid : fragId = id
    · subst hid
      simp [hmem, hheld]
    · simp [hmem, hid]
  · by_cases hid : fragId = id
    · subst hid
      simp [hmem, AList.lookup_eq_none.mpr hmem]
    · simp [hmem, hid, AList.lookup_insert_ne (Ne.symm hid)]

/-- A filled buffer holds, under an id it did not hold, the payload of the first
frame with that id. -/
theorem fill_lookup (b : FragBuffer) (fs : List UdpFrame) (id : UInt8) :
    (b.fill fs).frags.lookup id =
      (b.frags.lookup id).or ((fs.find? (·.fragId = id)).map (·.payload)) := by
  induction fs generalizing b with
  | nil => simp
  | cons f fs ih =>
    rw [fill_cons, ih, store_lookup, Option.or_assoc]
    by_cases hid : f.fragId = id <;> simp [hid]

theorem new_fill_lookup (total : UInt8) (addr : String) (port : UInt16)
    (fs : List UdpFrame) (id : UInt8) :
    ((new total addr port).fill fs).frags.lookup id =
      (fs.find? (·.fragId = id)).map (·.payload) := by
  rw [fill_lookup]
  simp [new]

/-- A fresh buffer that was filled holds the ids of the frames, each once. -/
theorem new_fill_keys (total : UInt8) (addr : String) (port : UInt16)
    (fs : List UdpFrame) :
    ((new total addr port).fill fs).frags.keys.Perm (fs.map (·.fragId)).dedup := by
  rw [List.perm_ext_iff_of_nodup (AList.keys_nodup _) (List.nodup_dedup _)]
  intro id
  rw [← AList.mem_keys, ← AList.lookup_isSome, new_fill_lookup, List.mem_dedup,
    Option.isSome_map, List.find?_isSome]
  simp

end FragBuffer

/-! ## Which ids a complete buffer holds -/

/-- A sorted list of distinct ids below their number is the range of that number. -/
theorem mergeSort_eq_range {l : List UInt8} (hnodup : l.Nodup)
    (hlt : ∀ id ∈ l, id.toNat < l.length) :
    (l.mergeSort (· ≤ ·)).map UInt8.toNat = List.range l.length := by
  have hinj : (l.map UInt8.toNat).Nodup :=
    hnodup.map fun a b h => UInt8.toNat_inj.mp h
  have hperm : (l.map UInt8.toNat).Perm (List.range l.length) := by
    refine (List.subperm_of_subset hinj ?_).perm_of_length_le (by simp)
    intro n hn
    obtain ⟨id, hid, rfl⟩ := List.mem_map.mp hn
    exact List.mem_range.mpr (hlt id hid)
  have hsorted : ((l.mergeSort (· ≤ ·)).map UInt8.toNat).Pairwise (· ≤ ·) := by
    rw [List.pairwise_map]
    refine (List.pairwise_mergeSort ?_ ?_ l).imp fun h => ?_
    · intro a b c hab hbc
      simp only [decide_eq_true_eq, UInt8.le_iff_toNat_le] at *
      omega
    · intro a b
      simp only [Bool.or_eq_true, decide_eq_true_eq, UInt8.le_iff_toNat_le]
      omega
    · simpa [UInt8.le_iff_toNat_le] using h
  have hrange : (List.range l.length).Pairwise (· ≤ ·) :=
    List.pairwise_lt_range.imp Nat.le_of_lt
  exact List.Perm.eq_of_pairwise (fun a b _ _ h₁ h₂ => Nat.le_antisymm h₁ h₂) hsorted hrange
    (((List.mergeSort_perm l _).map _).trans hperm)

/-- **When the ids a buffer holds are exactly `0 … t-1`.**  For `t` frames this
says that their ids are distinct and below `t`. -/
theorem ids_eq_range_iff (total : UInt8) (addr : String) (port : UInt16)
    {fs : List UdpFrame} {t : Nat} (hlen : fs.length = t) :
    ((FragBuffer.new total addr port).fill fs).ids.map UInt8.toNat = List.range t ↔
      (fs.map (·.fragId)).Nodup ∧ ∀ f ∈ fs, f.fragId.toNat < t := by
  have hkeys := FragBuffer.new_fill_keys total addr port fs
  have hids : ((FragBuffer.new total addr port).fill fs).ids.Perm
      (fs.map (·.fragId)).dedup := (List.mergeSort_perm _ _).trans hkeys
  have hlenIds : (fs.map (·.fragId)).length = t := by rw [List.length_map, hlen]
  constructor
  · intro h
    have hcount : (fs.map (·.fragId)).dedup.length = t := by
      rw [← hids.length_eq, ← List.length_map (f := UInt8.toNat), h, List.length_range]
    have hdedup : (fs.map (·.fragId)).dedup = fs.map (·.fragId) :=
      (List.dedup_sublist _).eq_of_length (by rw [hcount, hlenIds])
    refine ⟨List.dedup_eq_self.mp hdedup, ?_⟩
    intro f hf
    have hmem : f.fragId.toNat ∈
        ((FragBuffer.new total addr port).fill fs).ids.map UInt8.toNat := by
      refine List.mem_map_of_mem (hids.mem_iff.mpr ?_)
      rw [hdedup]
      exact List.mem_map_of_mem hf
    rw [h] at hmem
    exact List.mem_range.mp hmem
  · rintro ⟨hnodup, hlt⟩
    rw [hnodup.dedup] at hkeys
    have hlenKeys := hkeys.length_eq
    rw [hlenIds] at hlenKeys
    rw [← hlenKeys]
    refine mergeSort_eq_range (AList.keys_nodup _) ?_
    intro id hid
    obtain ⟨f, hf, rfl⟩ := List.mem_map.mp (hkeys.mem_iff.mp hid)
    rw [hlenKeys]
    exact hlt f hf

/-- When the ids are `0 … t-1`, the joined bytes are the fragments in that order. -/
theorem joined_eq_of_ids {b : FragBuffer} {t : Nat}
    (h : b.ids.map UInt8.toNat = List.range t) :
    b.joined = (List.range t).flatMap fun i => (b.frags.lookup (UInt8.ofNat i)).getD [] := by
  rw [← h, List.flatMap_map, FragBuffer.joined]
  refine congrArg (b.ids.flatMap ·) (funext fun id => ?_)
  rw [UInt8.ofNat_toNat]

/-! ## The fragments waiting under a packet id -/

/-- The `frag_total` of the first fragment of a group. -/
def groupTotal (g : List UdpFrame) : Nat := (g.head?.map (·.fragTotal.toNat)).getD 0

/-- A group of waiting fragments after one more: it is empty again once it has as
many fragments as its first one announced. -/
def groupStep (g : List UdpFrame) (f : UdpFrame) : List UdpFrame :=
  if groupTotal (g ++ [f]) ≤ (g ++ [f]).length then [] else g ++ [f]

/-- The fragments that came under a packet id since its last datagram went out. -/
def openGroup (p : UInt16) (fs : List UdpFrame) : List UdpFrame :=
  (fs.filter fun f => f.packetId = p ∧ 1 < f.fragTotal).foldl groupStep []

/-- The buffer that holds a group of fragments. -/
def groupBuffer : List UdpFrame → FragBuffer
  | [] => .new 0 "" 0
  | f :: g => (FragBuffer.new f.fragTotal f.addr f.port).fill (f :: g)

/-- The table entry of a group of waiting fragments. -/
def groupSlot (g : List UdpFrame) : Option FragBuffer :=
  if g = [] then none else some (groupBuffer g)

/-- The datagram a closed group is joined to. -/
def groupDatagram (g : List UdpFrame) : Datagram :=
  ⟨target (groupBuffer g).addr (groupBuffer g).port, (groupBuffer g).joined⟩

/-- A group is open while it has fewer fragments than its first one announced. -/
def IsOpen (g : List UdpFrame) : Prop := g = [] ∨ g.length < groupTotal g

theorem groupTotal_append {g : List UdpFrame} (hg : g ≠ []) (f : UdpFrame) :
    groupTotal (g ++ [f]) = groupTotal g := by
  cases g with
  | nil => exact absurd rfl hg
  | cons h g => rfl

theorem groupBuffer_total {g : List UdpFrame} : (groupBuffer g).total.toNat = groupTotal g := by
  cases g with
  | nil => rfl
  | cons h g =>
    rw [groupBuffer, FragBuffer.fill_total]
    rfl

/-- Storing a fragment in the entry of an open group gives the buffer of the group
with that fragment. -/
theorem store_groupSlot (g : List UdpFrame) (f : UdpFrame) :
    ((groupSlot g).getD (.new f.fragTotal f.addr f.port)).store f.fragId f.payload =
      groupBuffer (g ++ [f]) := by
  cases g with
  | nil => rfl
  | cons h g =>
    simp only [groupSlot, reduceCtorEq, if_false, Option.getD_some, List.cons_append,
      groupBuffer, FragBuffer.fill_cons, FragBuffer.fill_append, FragBuffer.fill_nil]

/-- An open group has room for one more fragment. -/
theorem length_append_le {g : List UdpFrame} (hg : IsOpen g) {f : UdpFrame}
    (hf : 1 < f.fragTotal) : (g ++ [f]).length ≤ groupTotal (g ++ [f]) := by
  rcases hg with rfl | hlt
  · have h1 : 1 < f.fragTotal.toNat := UInt8.lt_iff_toNat_lt.mp hf
    simp only [groupTotal, List.nil_append, List.head?_cons, Option.map_some,
      Option.getD_some, List.length_singleton]
    omega
  · have hne : g ≠ [] := by
      rintro rfl
      exact absurd hlt (by simp [groupTotal])
    rw [groupTotal_append hne, List.length_append, List.length_singleton]
    omega

theorem groupBuffer_received {g : List UdpFrame} (hne : g ≠ [])
    (hle : g.length ≤ groupTotal g) : (groupBuffer g).received.toNat = g.length := by
  cases g with
  | nil => exact absurd rfl hne
  | cons h g =>
    have htotal : groupTotal (h :: g) < 256 := h.fragTotal.toNat_lt
    have hzero : (FragBuffer.new h.fragTotal h.addr h.port).received.toNat = 0 := rfl
    rw [groupBuffer, FragBuffer.fill_received _ _ (by omega), hzero]
    omega

/-- **One fragment under a packet id.**  It joins the group that waits there; the
group goes out when it has reached the announced number. -/
theorem slotStep_groupSlot {g : List UdpFrame} (hg : IsOpen g) {f : UdpFrame}
    (hf : 1 < f.fragTotal) :
    slotStep (groupSlot g) f =
      if groupTotal (g ++ [f]) ≤ (g ++ [f]).length then
        (none, some (groupDatagram (g ++ [f])))
      else (some (groupBuffer (g ++ [f])), none) := by
  have hle := length_append_le hg hf
  have hrec := groupBuffer_received (g := g ++ [f]) (by simp) hle
  have hcond : (groupBuffer (g ++ [f])).received ≥ (groupBuffer (g ++ [f])).total ↔
      groupTotal (g ++ [f]) ≤ (g ++ [f]).length := by
    rw [ge_iff_le, UInt8.le_iff_toNat_le, hrec, groupBuffer_total]
  have hnot : ¬ f.fragTotal ≤ 1 := UInt8.not_le.mpr hf
  unfold slotStep
  rw [if_neg hnot, FragBuffer.insert, store_groupSlot]
  by_cases hclose : groupTotal (g ++ [f]) ≤ (g ++ [f]).length
  · rw [if_pos hclose, if_pos (hcond.mpr hclose)]
    rfl
  · rw [if_neg hclose, if_neg (hcond.not.mpr hclose)]

theorem isOpen_groupStep (g : List UdpFrame) (f : UdpFrame) : IsOpen (groupStep g f) := by
  unfold groupStep
  split
  · exact .inl rfl
  · rename_i h
    exact .inr (by omega)

theorem isOpen_openGroup (p : UInt16) (fs : List UdpFrame) : IsOpen (openGroup p fs) := by
  unfold openGroup
  rcases List.eq_nil_or_concat (fs.filter fun f => f.packetId = p ∧ 1 < f.fragTotal) with h | h
  · rw [h]
    exact .inl rfl
  · obtain ⟨init, last, h⟩ := h
    rw [h, List.concat_eq_append, List.foldl_append]
    exact isOpen_groupStep _ _

/-- A frame that is not a fragment leaves the entry of its packet id alone. -/
theorem slotStep_single {f : UdpFrame} (hf : ¬ 1 < f.fragTotal) (slot : Option FragBuffer) :
    slotStep slot f = (slot, some ⟨target f.addr f.port, f.payload⟩) := by
  rw [slotStep, if_pos (UInt8.not_lt.mp hf)]

theorem slotRun_append (slot : Option FragBuffer) (fs gs : List UdpFrame) :
    slotRun slot (fs ++ gs) =
      ((slotRun (slotRun slot fs).1 gs).1,
        (slotRun slot fs).2 ++ (slotRun (slotRun slot fs).1 gs).2) := by
  induction fs generalizing slot with
  | nil => rfl
  | cons f fs ih => simp [slotRun, ih]

/-- **The entry after any run from the empty table** holds exactly the fragments
that came under the packet id since its last datagram went out. -/
theorem slot_openGroup (p : UInt16) (fs : List UdpFrame) :
    (relayFrames ∅ fs).1.lookup p = groupSlot (openGroup p fs) := by
  rw [(relayFrames_slot p ∅ fs).1, AList.lookup_empty]
  induction fs using List.reverseRecOn with
  | nil => rfl
  | append_singleton fs f ih =>
    rw [List.filter_append, slotRun_append, ih]
    by_cases hp : f.packetId = p
    · by_cases hf : 1 < f.fragTotal
      · have hopen : openGroup p (fs ++ [f]) = groupStep (openGroup p fs) f := by
          simp [openGroup, List.filter_append, hp, hf]
        have hstep := slotStep_groupSlot (isOpen_openGroup p fs) hf
        simp only [hp, decide_true, List.filter_cons_of_pos, List.filter_nil, slotRun]
        rw [hstep, hopen, groupStep]
        split
        · rfl
        · simp [groupSlot]
      · have hopen : openGroup p (fs ++ [f]) = openGroup p fs := by
          simp [openGroup, List.filter_append, hf]
        simp only [hp, decide_true, List.filter_cons_of_pos, List.filter_nil, slotRun]
        rw [slotStep_single hf, hopen]
    · have hopen : openGroup p (fs ++ [f]) = openGroup p fs := by
        simp [openGroup, List.filter_append, hp]
      simp [hp, hopen, slotRun]

end Ruproxy.Hysteria2
