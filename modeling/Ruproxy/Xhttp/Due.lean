/-
  Xhttp/Due.lean --- the order in which packets were received.

  `Taken` counts packets and forgets their order.  `Received` keeps it: the reader draws
  a packet from the channel only when the heap offers nothing, so a number that came with
  all before it, each once, has been taken when the next packet is drawn (`prompt`), and
  nothing else is ever taken (`timely`).  From the two follows which packets a stale one
  hides.
-/
import Ruproxy.Xhttp.Taken

set_option autoImplicit false

namespace Ruproxy.Xhttp

open Ruproxy.Foundation

/-- The number `m` came, and every number before it came once. -/
def Due (numbers : List UInt64) (m : UInt64) : Prop :=
  m ∈ numbers ∧ ∀ j < m, numbers.count j = 1

/-- When a number that the reader can reach comes twice, each greater number that comes
was due before. -/
def Unhidden (numbers : List UInt64) : Prop :=
  ∀ k m, (∀ j < k, j ∈ numbers) → 1 < numbers.count k → m ∈ numbers → k < m →
    ∃ before, before <+: numbers ∧ Due before m

/-- An entry behind the counter is on top of the heap and one that is not behind it waits. -/
def Hides (s : XhttpStream) : Prop :=
  ∃ top ∈ s.pktQueue.heap.head?, top.seq < s.pktQueue.nextSeq ∧
    ∃ e ∈ s.pktQueue.heap ++ entries s.upRx.queue, s.pktQueue.nextSeq ≤ e.seq

/-! ## Numbers that were taken -/

/-- The first numbers, as long as they do not wrap. -/
theorem count_range_le_one {m : Nat} (hm : m ≤ 2 ^ 64) (k : UInt64) :
    ((List.range m).map UInt64.ofNat).count k ≤ 1 := by
  refine List.nodup_iff_count_le_one.mp (List.Nodup.map_on ?_ List.nodup_range) k
  intro i hi j hj hij
  rw [List.mem_range] at hi hj
  have hnat := congrArg UInt64.toNat hij
  simp only [UInt64.toNat_ofNat'] at hnat
  omega

namespace Taken

variable {arrived taken : List PktEntry} {s : XhttpStream}

/-- When a number was not taken the counter has not wrapped. -/
theorem length_lt (h : Taken arrived taken s) {m : UInt64} (hm : m ∉ taken.map PktEntry.seq) :
    taken.length < 2 ^ 64 := by
  by_contra hle
  rw [h.numbers, List.mem_map] at hm
  have hlt := m.toNat_lt
  exact hm ⟨m.toNat, List.mem_range.mpr (by omega), UInt64.ofNat_toNat⟩

theorem count_taken_le_one (h : Taken arrived taken s) (hlen : taken.length ≤ 2 ^ 64)
    (k : UInt64) : (taken.map PktEntry.seq).count k ≤ 1 :=
  h.numbers ▸ count_range_le_one hlen k

/-- What was taken is behind the counter, as long as it does not wrap. -/
theorem lt_next_of_mem (h : Taken arrived taken s) (hlen : taken.length < 2 ^ 64) {m : UInt64}
    (hm : m ∈ taken.map PktEntry.seq) : m < s.pktQueue.nextSeq := by
  rw [h.numbers, List.mem_map] at hm
  obtain ⟨i, hi, rfl⟩ := hm
  rw [List.mem_range] at hi
  rw [h.next, UInt64.lt_iff_toNat_lt, UInt64.toNat_ofNat', UInt64.toNat_ofNat',
    Nat.mod_eq_of_lt hlen, Nat.mod_eq_of_lt (hi.trans hlen)]
  exact hi

theorem next_notMem (h : Taken arrived taken s) (hlen : taken.length < 2 ^ 64) :
    s.pktQueue.nextSeq ∉ taken.map PktEntry.seq := fun hmem =>
  UInt64.lt_irrefl _ (h.lt_next_of_mem hlen hmem)

end Taken

/-! ## What was received -/

/-- The packets `received` were drawn from the channel in that order; the others that
arrived are still in it. -/
structure Received (received arrived taken : List PktEntry) (s : XhttpStream) : Prop where
  arrived : received ++ entries s.upRx.queue = arrived
  /-- a number that was due before the last packet was drawn has been taken -/
  prompt : ∀ before x, before ++ [x] <+: received.map PktEntry.seq →
    ∀ m, Due before m → m ∈ taken.map PktEntry.seq
  /-- a number that was taken was due -/
  timely : ∀ m ∈ taken.map PktEntry.seq,
    ∃ before, before <+: received.map PktEntry.seq ∧ Due before m

theorem received_init : Received [] [] [] (.new ⟨[], false⟩) where
  arrived := rfl
  prompt before x hpre := by
    have hnil := List.prefix_nil.mp hpre
    exact absurd hnil (List.append_ne_nil_of_right_ne_nil _ (List.cons_ne_nil _ _))
  timely _ hm := absurd hm List.not_mem_nil

namespace Received

variable {received arrived taken : List PktEntry} {s : XhttpStream}

theorem congr (h : Received received arrived taken s) {t : XhttpStream}
    (hqueue : entries t.upRx.queue = entries s.upRx.queue) :
    Received received arrived taken t where
  arrived := hqueue ▸ h.arrived
  prompt := h.prompt
  timely := h.timely

/-- Each packet that was received was taken or is in the heap. -/
theorem held (h : Received received arrived taken s) (htaken : Taken arrived taken s) :
    (taken.map PktEntry.seq ++ s.pktQueue.heap.map PktEntry.seq).Perm
      (received.map PktEntry.seq) := by
  have hheld := htaken.held
  rw [← h.arrived, ← List.append_assoc, List.perm_append_right_iff] at hheld
  have hnumbers := hheld.map PktEntry.seq
  rwa [List.map_append] at hnumbers

theorem count (h : Received received arrived taken s) (htaken : Taken arrived taken s)
    (k : UInt64) : (received.map PktEntry.seq).count k =
      (taken.map PktEntry.seq).count k + (s.pktQueue.heap.map PktEntry.seq).count k := by
  rw [← (h.held htaken).count_eq, List.count_append]

/-- The number of an entry in the heap that was passed has come twice. -/
theorem one_lt_count (h : Received received arrived taken s) (htaken : Taken arrived taken s)
    {e : PktEntry} (he : e ∈ s.pktQueue.heap) (hlt : e.seq < s.pktQueue.nextSeq) :
    1 < (received.map PktEntry.seq).count e.seq := by
  have hpassed := List.count_pos_iff.mpr (htaken.mem_of_lt_next hlt)
  have hwaits := List.count_pos_iff.mpr (List.mem_map_of_mem (f := PktEntry.seq) he)
  rw [h.count htaken]
  omega

/-- When the heap offers nothing, all that is due was taken. -/
theorem mem_of_due (h : Received received arrived taken s) (htaken : Taken arrived taken s)
    (htop : ∀ top ∈ s.pktQueue.heap.head?, top.seq ≠ s.pktQueue.nextSeq) {m : UInt64}
    (hdue : Due (received.map PktEntry.seq) m) : m ∈ taken.map PktEntry.seq := by
  by_contra hm
  have hlen := htaken.length_lt hm
  have hle : s.pktQueue.nextSeq ≤ m := by
    rw [← UInt64.not_lt]
    exact fun hlt => hm (htaken.mem_of_lt_next hlt)
  have hcame : s.pktQueue.nextSeq ∈ received.map PktEntry.seq := by
    rcases UInt64.lt_or_eq_of_le hle with hlt | heq
    · exact List.count_pos_iff.mp (by rw [hdue.2 _ hlt]; exact Nat.one_pos)
    · exact heq ▸ hdue.1
  rcases List.mem_append.mp ((h.held htaken).mem_iff.mpr hcame) with hpassed | hheap
  · exact htaken.next_notMem hlen hpassed
  obtain ⟨e, he, heq⟩ := List.mem_map.mp hheap
  obtain ⟨top, hmem, htople⟩ := exists_top_le htaken.sorted he
  have hstale : top.seq < s.pktQueue.nextSeq :=
    UInt64.lt_of_le_of_ne (heq ▸ htople) (htop top hmem)
  have htwice := h.one_lt_count htaken (List.mem_of_mem_head? hmem) hstale
  rw [hdue.2 _ (UInt64.lt_of_lt_of_le hstale hle)] at htwice
  exact Nat.lt_irrefl _ htwice

theorem push (h : Received received arrived taken s) (htaken : Taken arrived taken s)
    (htop : ∀ top ∈ s.pktQueue.heap.head?, top.seq ≠ s.pktQueue.nextSeq)
    {seq : UInt64} {data : Bytes} {queue : List UploadPacket}
    (hqueue : s.upRx.queue = .packet seq data :: queue) (heap : PktHeap) :
    Received (received ++ [⟨seq, data⟩]) arrived taken { s.dequeued queue with pktQueue :=
      { s.pktQueue with heap := heap } } where
  arrived := by
    have harrived := h.arrived
    rw [hqueue] at harrived
    rw [List.append_assoc]
    exact harrived
  prompt before x hpre m hdue := by
    rw [List.map_append, List.map_singleton] at hpre
    rcases List.prefix_concat_iff.mp hpre with heq | hpre
    · rw [(List.append_inj' heq rfl).1] at hdue
      exact h.mem_of_due htaken htop hdue
    · exact h.prompt before x hpre m hdue
  timely m hm := by
    obtain ⟨before, hpre, hdue⟩ := h.timely m hm
    refine ⟨before, hpre.trans ?_, hdue⟩
    rw [List.map_append]
    exact List.prefix_append _ _

/-- What is popped was due. -/
theorem pop (h : Received received arrived taken s) (htaken : Taken arrived taken s)
    {top : PktEntry} {heap : PktHeap} (hheap : s.pktQueue.heap = top :: heap)
    (hseq : top.seq = s.pktQueue.nextSeq) (leftover : Bytes) :
    Received received arrived (taken ++ [top])
      { s with pktQueue := ⟨heap, s.pktQueue.nextSeq + 1, leftover⟩ } where
  arrived := h.arrived
  prompt before x hpre m hdue := by
    rw [List.map_append]
    exact List.mem_append_left _ (h.prompt before x hpre m hdue)
  timely m hm := by
    rw [List.map_append, List.mem_append, List.map_singleton, List.mem_singleton] at hm
    by_cases hold : m ∈ taken.map PktEntry.seq
    · exact h.timely m hold
    obtain rfl := hm.resolve_left hold
    refine ⟨_, List.prefix_rfl, ?_, fun j hj => ?_⟩
    · refine (h.held htaken).subset (List.mem_append_right _ ?_)
      rw [hheap]
      exact List.mem_cons_self
    -- each number before it was taken, once, and none is in the heap
    have htook := List.count_pos_iff.mpr (htaken.mem_of_lt_next (hseq ▸ hj))
    have honce := htaken.count_taken_le_one (htaken.length_lt hold).le j
    have hnone : (s.pktQueue.heap.map PktEntry.seq).count j = 0 := by
      refine List.count_eq_zero.mpr fun hmem => ?_
      obtain ⟨e, he, rfl⟩ := List.mem_map.mp hmem
      obtain ⟨x, hx, hle⟩ := exists_top_le htaken.sorted he
      rw [hheap, List.head?_cons, Option.mem_some_iff] at hx
      exact UInt64.not_le.mpr hj (hx ▸ hle)
    rw [h.count htaken, hnone]
    omega

theorem arrive (h : Received received arrived taken s) (e : PktEntry) :
    Received received (arrived ++ [e]) taken
      { s with upRx := { s.upRx with queue := s.upRx.queue ++ [e.packet] } } where
  arrived := by
    rw [← h.arrived, entries, List.filterMap_append, ← List.append_assoc]
    rfl
  prompt := h.prompt
  timely := h.timely

end Received

/-! ## What a stale packet hides -/

/-- A longer prefix goes on behind a shorter one. -/
theorem exists_concat_prefix {α : Type} {before received numbers : List α}
    (hbefore : before <+: numbers) (hreceived : received <+: numbers)
    (hlen : before.length < received.length) : ∃ x, before ++ [x] <+: received := by
  obtain ⟨rest, rfl⟩ := List.prefix_of_prefix_length_le hbefore hreceived hlen.le
  cases rest with
  | nil => exact absurd hlen (by simp)
  | cons x rest => exact ⟨x, rest, by simp⟩

/-- Where a packet is on top of the heap that was passed, all others were passed too. -/
theorem Received.lt_next_of_stale {received arrived taken : List PktEntry} {s : XhttpStream}
    (h : Received received arrived taken s) (htaken : Taken arrived taken s)
    {numbers : List UInt64} (hunhidden : Unhidden numbers)
    (hpre : arrived.map PktEntry.seq <+: numbers) (hlen : taken.length < 2 ^ 64)
    {top : PktEntry} (htop : top ∈ s.pktQueue.heap) (hstale : top.seq < s.pktQueue.nextSeq)
    {m : UInt64} (hm : m ∈ numbers) : m < s.pktQueue.nextSeq := by
  by_contra hle
  rw [UInt64.not_lt] at hle
  have hreceived : received.map PktEntry.seq <+: numbers := by
    refine List.IsPrefix.trans ?_ hpre
    rw [← h.arrived, List.map_append]
    exact List.prefix_append _ _
  have htwice := h.one_lt_count htaken htop hstale
  have hreach : ∀ j < top.seq, j ∈ numbers := fun j hj =>
    hreceived.subset ((h.held htaken).subset (List.mem_append_left _
      (htaken.mem_of_lt_next (UInt64.lt_trans hj hstale))))
  have hbehind := UInt64.lt_of_lt_of_le hstale hle
  obtain ⟨before, hbefore, hdue⟩ := hunhidden top.seq m hreach
    (htwice.trans_le (hreceived.sublist.count_le _)) hm hbehind
  -- the second packet with that number was received later
  have hlonger : before.length < (received.map PktEntry.seq).length := by
    by_contra hshorter
    have hsub := List.prefix_of_prefix_length_le hreceived hbefore (Nat.le_of_not_lt hshorter)
    have hcount := hsub.sublist.count_le top.seq
    rw [hdue.2 _ hbehind] at hcount
    omega
  obtain ⟨x, hx⟩ := exists_concat_prefix hbefore hreceived hlonger
  have hpassed := htaken.lt_next_of_mem hlen (h.prompt before x hx m hdue)
  exact UInt64.not_le.mpr hpassed hle

end Ruproxy.Xhttp
