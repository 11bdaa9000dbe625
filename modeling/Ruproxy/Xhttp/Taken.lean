/-
  Xhttp/Taken.lean --- what one call of `poll_read` does, whatever arrives.

  `Turn` has the ways in which a turn of the loop returns before it polls the channel,
  and `pollRead_rule` is the rule for the whole loop.  `Taken` is the account of the
  packets: those that were popped have the numbers from 0 on, the others wait in the
  heap or in the channel.  It holds for any sequence of items, with any numbers.
-/
import Ruproxy.Xhttp.Reorder

set_option autoImplicit false

namespace Ruproxy.Xhttp

open Ruproxy.Foundation

/-! ## One call of `poll_read` -/

/-- The bytes that a call put into the buffer. -/
def PollRead.bytes : PollRead → Bytes
  | .pending => []
  | .ready data => data

namespace XhttpStream

/-- The stream after what is left over was read. -/
def drained (s : XhttpStream) : XhttpStream :=
  { s with pktQueue := { s.pktQueue with leftover := [] } }

/-- What a turn of the loop finds before it polls the channel. -/
inductive Turn (s : XhttpStream) (n : Nat) : Option (PollRead × XhttpStream) → Prop where
  | leftover (hleft : s.pktQueue.leftover ≠ []) :
      Turn s n (some (.ready (s.pktQueue.leftover.take n),
        { s with pktQueue := { s.pktQueue with leftover := s.pktQueue.leftover.drop n } }))
  | streamBuf (hleft : s.pktQueue.leftover = []) (hbuf : s.streamBuf ≠ []) :
      Turn s n (some (.ready (s.streamBuf.take n), { s with streamBuf := s.streamBuf.drop n }))
  | pop (hleft : s.pktQueue.leftover = []) (hbuf : s.streamBuf = []) (top : PktEntry)
      (heap : PktHeap) (hheap : s.pktQueue.heap = top :: heap)
      (hseq : top.seq = s.pktQueue.nextSeq) :
      Turn s n (some (.ready (top.data.take n), { s with pktQueue :=
        ⟨heap, s.pktQueue.nextSeq + 1, s.pktQueue.leftover ++ top.data.drop n⟩ }))
  | ended (hleft : s.pktQueue.leftover = []) (hbuf : s.streamBuf = [])
      (htop : ∀ top ∈ s.pktQueue.heap.head?, top.seq ≠ s.pktQueue.nextSeq)
      (heof : s.eof = true) : Turn s n (some (.ready [], s))
  | goesOn (hleft : s.pktQueue.leftover = []) (hbuf : s.streamBuf = [])
      (htop : ∀ top ∈ s.pktQueue.heap.head?, top.seq ≠ s.pktQueue.nextSeq)
      (heof : s.eof = false) : Turn s n none

theorem turn_readBuffered (s : XhttpStream) (n : Nat) : Turn s n (s.readBuffered n) := by
  unfold readBuffered
  dsimp only
  split
  · rename_i hleft
    exact .leftover hleft
  rename_i hleft
  rw [not_not] at hleft
  split
  · rename_i hbuf
    exact .streamBuf hleft hbuf
  rename_i hbuf
  rw [not_not] at hbuf
  have hgo : (∀ top ∈ s.pktQueue.heap.head?, top.seq ≠ s.pktQueue.nextSeq) →
      Turn s n (if s.eof = true then some (.ready [], s) else none) := by
    intro htop
    split
    · rename_i heof
      exact .ended hleft hbuf htop heof
    · rename_i heof
      exact .goesOn hleft hbuf htop (Bool.eq_false_iff.mpr heof)
  split
  · rename_i top heap hheap
    split
    · rename_i hseq
      exact .pop hleft hbuf top heap hheap hseq
    · rename_i hseq
      apply hgo
      rw [hheap]
      rintro x ⟨⟩
      exact hseq
  · rename_i hheap
    apply hgo
    rw [hheap]
    rintro x ⟨⟩

/-- **Loop rule.**  What the turns of the loop keep gives what `poll_read` returns. -/
theorem pollRead_rule {n : Nat} {I : XhttpStream → Prop} {Q : PollRead → XhttpStream → Prop}
    (hturn : ∀ {s r s'}, I s → s.readBuffered n = some (r, s') → Q r s')
    (hpush : ∀ {s seq data queue}, I s → s.readBuffered n = none →
      s.upRx.queue = .packet seq data :: queue →
      I { s.dequeued queue with pktQueue :=
        { s.pktQueue with heap := s.pktQueue.heap.push ⟨seq, data⟩ } })
    (hchunk : ∀ {s data queue}, I s → s.readBuffered n = none →
      s.upRx.queue = .chunk data :: queue →
      Q (.ready (data.take n))
        { s.dequeued queue with streamBuf := s.streamBuf ++ data.drop n })
    (heof : ∀ {s queue}, I s → s.readBuffered n = none → s.upRx.queue = .eof :: queue →
      Q (.ready []) { s.dequeued queue with eof := true })
    (hclosed : ∀ {s}, I s → s.readBuffered n = none → s.upRx.queue = [] →
      s.upRx.closed = true → Q (.ready []) { s with eof := true })
    (hpending : ∀ {s}, I s → s.readBuffered n = none → s.upRx.queue = [] → Q .pending s)
    {s : XhttpStream} (hs : I s) : Q (s.pollRead n).1 (s.pollRead n).2 := by
  have hloop : ∀ queue, s.upRx.queue = queue →
      Q (s.pollLoop n queue).1 (s.pollLoop n queue).2 := by
    intro queue hqueue
    induction queue generalizing s with
    | nil =>
      unfold pollLoop
      split
      · rename_i hread
        exact hturn hs hread
      · rename_i hread
        split
        · rename_i hcl
          exact hclosed hs hread hqueue hcl
        · exact hpending hs hread hqueue
    | cons pkt queue ih =>
      unfold pollLoop
      split
      · rename_i hread
        exact hturn hs hread
      · rename_i hread
        cases pkt with
        | chunk data => exact hchunk hs hread hqueue
        | packet seq data => exact ih (hpush hs hread hqueue) rfl
        | eof => exact heof hs hread hqueue
  exact hloop _ rfl

end XhttpStream

/-! ## Which packets were taken -/

/-- The packets among some items of the channel. -/
def entries (items : List UploadPacket) : List PktEntry :=
  items.filterMap fun
    | .packet seq data => some ⟨seq, data⟩
    | _ => none

/-- No number that the reader can reach occurs twice: of the numbers whose predecessors
all occur, each occurs at most once. -/
def InTurnOnce (numbers : List UInt64) : Prop :=
  ∀ k, (∀ j < k, j ∈ numbers) → numbers.count k ≤ 1

/-- Of the entries with a number that occurs once there is only one. -/
theorem eq_of_count_le_one {l : List PktEntry} {e f : PktEntry} (he : e ∈ l) (hf : f ∈ l)
    (hef : e.seq = f.seq) (hcount : (l.map PktEntry.seq).count e.seq ≤ 1) : e = f := by
  induction l with
  | nil => exact absurd he List.not_mem_nil
  | cons x l ih =>
    have hrest : ∀ y ∈ l, y.seq = e.seq → x.seq ≠ e.seq := by
      intro y hy hye hxe
      have hpos := List.count_pos_iff.mpr (List.mem_map_of_mem (f := PktEntry.seq) hy)
      rw [List.map_cons, List.count_cons, hxe] at hcount
      rw [hye] at hpos
      simp only [beq_self_eq_true, if_true] at hcount
      omega
    rcases List.mem_cons.mp he with rfl | hel
    · rcases List.mem_cons.mp hf with rfl | hfl
      · rfl
      · exact absurd rfl (hrest f hfl hef.symm)
    · rcases List.mem_cons.mp hf with rfl | hfl
      · exact absurd hef.symm (hrest e hel rfl)
      · refine ih hel hfl (le_trans ?_ hcount)
        rw [List.map_cons]
        exact List.count_le_count_cons

/-- The entries `taken` were popped one after the other, with the numbers from 0 on;
everything else that arrived waits in the heap or in the channel. -/
structure Taken (arrived taken : List PktEntry) (s : XhttpStream) : Prop where
  numbers : taken.map PktEntry.seq = (List.range taken.length).map UInt64.ofNat
  next : s.pktQueue.nextSeq = UInt64.ofNat taken.length
  sorted : s.pktQueue.heap.Pairwise fun a b => a.seq ≤ b.seq
  held : (taken ++ (s.pktQueue.heap ++ entries s.upRx.queue)).Perm arrived

theorem taken_init : Taken [] [] (.new ⟨[], false⟩) := ⟨rfl, rfl, .nil, .nil⟩

/-- The top of the heap has the least number. -/
theorem exists_top_le {heap : PktHeap} (hsorted : heap.Pairwise fun a b => a.seq ≤ b.seq)
    {e : PktEntry} (he : e ∈ heap) : ∃ top ∈ heap.head?, top.seq ≤ e.seq := by
  cases heap with
  | nil => exact absurd he List.not_mem_nil
  | cons top heap =>
    refine ⟨top, rfl, ?_⟩
    rcases List.mem_cons.mp he with rfl | he
    · exact UInt64.le_refl _
    · exact List.rel_of_pairwise_cons hsorted he

namespace Taken

variable {arrived taken : List PktEntry} {s : XhttpStream}

/-- The buffered bytes and the end of the stream do not matter. -/
theorem congr (h : Taken arrived taken s) {t : XhttpStream}
    (hheap : t.pktQueue.heap = s.pktQueue.heap)
    (hnext : t.pktQueue.nextSeq = s.pktQueue.nextSeq)
    (hqueue : entries t.upRx.queue = entries s.upRx.queue) : Taken arrived taken t where
  numbers := h.numbers
  next := hnext ▸ h.next
  sorted := hheap ▸ h.sorted
  held := by
    rw [hheap, hqueue]
    exact h.held

theorem push (h : Taken arrived taken s) {seq : UInt64} {data : Bytes}
    {queue : List UploadPacket} (hqueue : s.upRx.queue = .packet seq data :: queue) :
    Taken arrived taken { s.dequeued queue with pktQueue :=
      { s.pktQueue with heap := s.pktQueue.heap.push ⟨seq, data⟩ } } where
  numbers := h.numbers
  next := h.next
  sorted := PktHeap.push_sorted _ h.sorted
  held := by
    refine List.Perm.trans (List.Perm.append_left _ ?_) h.held
    rw [hqueue]
    exact ((PktHeap.push_perm _ _).append_right _).trans List.perm_middle.symm

theorem pop (h : Taken arrived taken s) {top : PktEntry} {heap : PktHeap}
    (hheap : s.pktQueue.heap = top :: heap) (hseq : top.seq = s.pktQueue.nextSeq)
    (leftover : Bytes) :
    Taken arrived (taken ++ [top])
      { s with pktQueue := ⟨heap, s.pktQueue.nextSeq + 1, leftover⟩ } where
  numbers := by
    rw [List.map_append, h.numbers, List.length_append, List.length_singleton,
      List.range_succ, List.map_append, List.map_singleton, List.map_singleton, hseq, h.next]
  next := by
    show s.pktQueue.nextSeq + 1 = _
    rw [h.next, List.length_append, List.length_singleton, UInt64.ofNat_add]
    rfl
  sorted := by
    have hsorted := h.sorted
    rw [hheap] at hsorted
    exact hsorted.of_cons
  held := by
    have hheld := h.held
    rw [hheap] at hheld
    simpa using hheld

theorem arrive (h : Taken arrived taken s) (pkt : UploadPacket) :
    Taken (arrived ++ entries [pkt]) taken
      { s with upRx := { s.upRx with queue := s.upRx.queue ++ [pkt] } } where
  numbers := h.numbers
  next := h.next
  sorted := h.sorted
  held := by
    have hheld := h.held.append_right (entries [pkt])
    simpa [entries] using hheld

/-! ### What waits -/

/-- The numbers before the next one were taken. -/
theorem mem_of_lt_next (h : Taken arrived taken s) {j : UInt64} (hj : j < s.pktQueue.nextSeq) :
    j ∈ taken.map PktEntry.seq := by
  rw [h.next, UInt64.lt_iff_toNat_lt, UInt64.toNat_ofNat'] at hj
  rw [h.numbers, List.mem_map]
  refine ⟨j.toNat, List.mem_range.mpr ?_, UInt64.ofNat_toNat⟩
  exact hj.trans_le (Nat.mod_le _ _)

theorem count_le_one (h : Taken arrived taken s) (honce : InTurnOnce (arrived.map PktEntry.seq))
    {k : UInt64} (hk : k ≤ s.pktQueue.nextSeq) :
    (taken.map PktEntry.seq ++ (s.pktQueue.heap ++ entries s.upRx.queue).map PktEntry.seq).count
      k ≤ 1 := by
  have hperm := h.held.map PktEntry.seq
  rw [List.map_append] at hperm
  rw [hperm.count_eq]
  refine honce k fun j hj => hperm.subset (List.mem_append_left _ (h.mem_of_lt_next ?_))
  exact UInt64.lt_of_lt_of_le hj hk

/-- Nothing that was passed waits. -/
theorem not_stale (h : Taken arrived taken s) (honce : InTurnOnce (arrived.map PktEntry.seq))
    {e : PktEntry} (he : e ∈ s.pktQueue.heap ++ entries s.upRx.queue) :
    s.pktQueue.nextSeq ≤ e.seq := by
  by_contra hlt
  rw [UInt64.not_le] at hlt
  have hcount := h.count_le_one honce (UInt64.le_of_lt hlt)
  have htaken := List.count_pos_iff.mpr (h.mem_of_lt_next hlt)
  have hwaits := List.count_pos_iff.mpr (List.mem_map_of_mem (f := PktEntry.seq) he)
  rw [List.count_append] at hcount
  omega

/-- Only one packet with the next number waits. -/
theorem next_unique (h : Taken arrived taken s) (honce : InTurnOnce (arrived.map PktEntry.seq))
    {e f : PktEntry} (he : e ∈ s.pktQueue.heap ++ entries s.upRx.queue)
    (hf : f ∈ s.pktQueue.heap ++ entries s.upRx.queue) (hes : e.seq = s.pktQueue.nextSeq)
    (hfs : f.seq = s.pktQueue.nextSeq) : e = f := by
  refine eq_of_count_le_one he hf (hes.trans hfs.symm) (le_trans ?_
    (h.count_le_one honce (UInt64.le_refl s.pktQueue.nextSeq)))
  rw [hes, List.count_append]
  exact Nat.le_add_left _ _

/-- No number was taken twice. -/
theorem nodup (h : Taken arrived taken s) (honce : InTurnOnce (arrived.map PktEntry.seq)) :
    (taken.map PktEntry.seq).Nodup := by
  rw [List.nodup_iff_count_le_one]
  intro k
  rcases Nat.eq_zero_or_pos ((taken.map PktEntry.seq).count k) with hzero | hpos
  · omega
  have hk := List.count_pos_iff.mp hpos
  have hbefore : ∀ j < k, j ∈ taken.map PktEntry.seq := by
    intro j hj
    rw [h.numbers, List.mem_map] at hk ⊢
    obtain ⟨i, hi, rfl⟩ := hk
    rw [UInt64.lt_iff_toNat_lt, UInt64.toNat_ofNat'] at hj
    refine ⟨j.toNat, ?_, UInt64.ofNat_toNat⟩
    have := Nat.mod_le i (2 ^ 64)
    rw [List.mem_range] at hi ⊢
    omega
  have hperm := h.held.map PktEntry.seq
  have hcount := honce k fun j hj =>
    hperm.subset (List.map_append ▸ List.mem_append_left _ (hbefore j hj))
  rw [← hperm.count_eq, List.map_append, List.count_append] at hcount
  omega

end Taken

end Ruproxy.Xhttp
