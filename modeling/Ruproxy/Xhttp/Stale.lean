/-
  Xhttp/Stale.lean --- packets whose number was read before.

  `poll_read` pops the heap only on an exact match with `next_seq`.  A packet that comes
  a second time stays in the heap once its number has been passed, on top of all that
  come later, so the reader waits forever.  The theorem says of every sequence of
  packets when this happens in no interleaving with polls: a number that the reader can
  reach comes twice only when each greater one was due before.
-/
import Ruproxy.Xhttp.Due

set_option autoImplicit false

namespace Ruproxy.Xhttp

open Ruproxy.Foundation
open Ruproxy.Foundation.Transition

/-! ## Packets only -/

/-- A stream whose channel carries packets only, with what it has returned. -/
structure Fed (arrived taken : List PktEntry) (returned : Bytes) (s : XhttpStream) :
    Prop where
  packets : Taken arrived taken s
  order : ∃ received, Received received arrived taken s
  queue : ∀ pkt ∈ s.upRx.queue, ∃ e : PktEntry, pkt = e.packet
  noChunks : s.streamBuf = []
  ended : s.eof = true → s.upRx.queue = [] ∧ s.upRx.closed = true
  returned : returned ++ s.pktQueue.leftover = (taken.map PktEntry.data).flatten

theorem fed_init : Fed [] [] [] (.new ⟨[], false⟩) where
  packets := taken_init
  order := ⟨[], received_init⟩
  queue pkt hpkt := absurd hpkt List.not_mem_nil
  noChunks := rfl
  ended heof := by cases heof
  returned := rfl

@[simp] theorem entries_packet_cons (seq : UInt64) (data : Bytes) (queue : List UploadPacket) :
    entries (.packet seq data :: queue) = ⟨seq, data⟩ :: entries queue := rfl

theorem entries_map_packet (es : List PktEntry) : entries (es.map PktEntry.packet) = es := by
  induction es with
  | nil => rfl
  | cons e es ih =>
    rw [List.map_cons, PktEntry.packet, entries_packet_cons, ih]

/-- The rule of `poll_read` where the channel carries packets only. -/
theorem pollRead_packets_rule {n : Nat} {I : XhttpStream → Prop}
    {Q : PollRead → XhttpStream → Prop}
    (hpackets : ∀ {s}, I s → ∀ pkt ∈ s.upRx.queue, ∃ e : PktEntry, pkt = e.packet)
    (hturn : ∀ {s r s'}, I s → s.readBuffered n = some (r, s') → Q r s')
    (hpush : ∀ {s seq data queue}, I s → s.readBuffered n = none →
      s.upRx.queue = .packet seq data :: queue →
      I { s.dequeued queue with pktQueue :=
        { s.pktQueue with heap := s.pktQueue.heap.push ⟨seq, data⟩ } })
    (hclosed : ∀ {s}, I s → s.readBuffered n = none → s.upRx.queue = [] →
      s.upRx.closed = true → Q (.ready []) { s with eof := true })
    (hpending : ∀ {s}, I s → s.readBuffered n = none → s.upRx.queue = [] → Q .pending s)
    {s : XhttpStream} (hs : I s) : Q (s.pollRead n).1 (s.pollRead n).2 := by
  refine XhttpStream.pollRead_rule hturn hpush ?_ ?_ hclosed hpending hs
  · intro s data queue hI _ hqueue
    obtain ⟨e, he⟩ := hpackets hI _ (hqueue ▸ List.mem_cons_self)
    cases he
  · intro s queue hI _ hqueue
    obtain ⟨e, he⟩ := hpackets hI _ (hqueue ▸ List.mem_cons_self)
    cases he

namespace Fed

variable {arrived taken : List PktEntry} {returned : Bytes} {s : XhttpStream}

/-- The channel is polled only when the top of the heap is not next. -/
theorem top_ne {n : Nat} (hread : s.readBuffered n = none) :
    ∀ top ∈ s.pktQueue.heap.head?, top.seq ≠ s.pktQueue.nextSeq := by
  have hturn := s.turn_readBuffered n
  rw [hread] at hturn
  cases hturn with
  | goesOn _ _ htop _ => exact htop

theorem push (h : Fed arrived taken returned s) {n : Nat} (hread : s.readBuffered n = none)
    {seq : UInt64} {data : Bytes} {queue : List UploadPacket}
    (hqueue : s.upRx.queue = .packet seq data :: queue) :
    Fed arrived taken returned { s.dequeued queue with pktQueue :=
      { s.pktQueue with heap := s.pktQueue.heap.push ⟨seq, data⟩ } } where
  packets := h.packets.push hqueue
  order := by
    obtain ⟨received, hreceived⟩ := h.order
    exact ⟨_, hreceived.push h.packets (top_ne hread) hqueue _⟩
  queue pkt hpkt := h.queue pkt (hqueue ▸ List.mem_cons_of_mem _ hpkt)
  noChunks := h.noChunks
  ended heof := by
    have hempty := (h.ended heof).1
    rw [hqueue] at hempty
    cases hempty
  returned := h.returned

/-- A turn that returns. -/
theorem turn (h : Fed arrived taken returned s) {n : Nat} {r : PollRead} {s' : XhttpStream}
    (hread : s.readBuffered n = some (r, s')) :
    ∃ taken', Fed arrived taken' (returned ++ r.bytes) s' := by
  have hturn := s.turn_readBuffered n
  rw [hread] at hturn
  cases hturn with
  | leftover hleft =>
    refine ⟨taken, h.packets.congr rfl rfl rfl, h.order.imp fun _ hr => hr.congr rfl, h.queue,
      h.noChunks, h.ended, ?_⟩
    rw [PollRead.bytes, List.append_assoc, List.take_append_drop]
    exact h.returned
  | streamBuf hleft hbuf => exact absurd h.noChunks hbuf
  | pop hleft hbuf top heap hheap hseq =>
    refine ⟨taken ++ [top], h.packets.pop hheap hseq _,
      h.order.imp fun _ hr => hr.pop h.packets hheap hseq _, h.queue, h.noChunks, h.ended, ?_⟩
    have hreturned := h.returned
    rw [hleft, List.append_nil] at hreturned
    simp [PollRead.bytes, hleft, hreturned]
  | ended hleft hbuf htop heof =>
    refine ⟨taken, h.packets, h.order, h.queue, h.noChunks, h.ended, ?_⟩
    rw [PollRead.bytes, List.append_nil]
    exact h.returned

/-- **One poll.**  It takes at most one packet and returns bytes of it. -/
theorem pollRead (h : Fed arrived taken returned s) (n : Nat) :
    ∃ taken', Fed arrived taken' (returned ++ (s.pollRead n).1.bytes) (s.pollRead n).2 := by
  have hstay : ∀ {s}, Fed arrived taken returned s →
      ∃ taken', Fed arrived taken' (returned ++ []) s := by
    intro s hs
    rw [List.append_nil]
    exact ⟨taken, hs⟩
  refine @pollRead_packets_rule n (Fed arrived taken returned)
    (fun r s' => ∃ taken', Fed arrived taken' (returned ++ r.bytes) s') (fun hs => hs.queue)
    (fun hs hread => hs.turn hread) (fun hs hread hqueue => hs.push hread hqueue) ?_
    (fun hs _ _ => hstay hs) s h
  intro s hs _ hqueue hclosed
  exact hstay ⟨hs.packets.congr rfl rfl rfl, hs.order.imp fun _ hr => hr.congr rfl, hs.queue,
    hs.noChunks, fun _ => ⟨hqueue, hclosed⟩, hs.returned⟩

/-- **The next packet.**  When nothing is left over and no entry hides another, a poll
returns the data of a packet with the next number, if one waits. -/
theorem pollRead_next (h : Fed arrived taken returned s)
    (hclear : ∀ {t}, Fed arrived taken returned t → ¬ Hides t)
    (hleft : s.pktQueue.leftover = []) {e : PktEntry}
    (he : e ∈ s.pktQueue.heap ++ entries s.upRx.queue) (hseq : e.seq = s.pktQueue.nextSeq)
    (n : Nat) :
    ∃ f ∈ s.pktQueue.heap ++ entries s.upRx.queue, f.seq = s.pktQueue.nextSeq ∧
      (s.pollRead n).1 = .ready (f.data.take n) := by
  let I : XhttpStream → Prop := fun t => Fed arrived taken returned t ∧
    t.pktQueue.leftover = [] ∧ t.pktQueue.nextSeq = s.pktQueue.nextSeq ∧
    (t.pktQueue.heap ++ entries t.upRx.queue).Perm (s.pktQueue.heap ++ entries s.upRx.queue)
  have hstuck : ∀ {t : XhttpStream}, I t → t.upRx.queue = [] →
      (∀ top ∈ t.pktQueue.heap.head?, top.seq ≠ t.pktQueue.nextSeq) → False := by
    rintro t ⟨ht, -, hnext, hwait⟩ hqueue htop
    have hmem : e ∈ t.pktQueue.heap ++ entries t.upRx.queue := hwait.mem_iff.mpr he
    have hheap : e ∈ t.pktQueue.heap := by
      rw [hqueue, entries, List.filterMap_nil, List.append_nil] at hmem
      exact hmem
    obtain ⟨top, hhead, hle⟩ := exists_top_le ht.packets.sorted hheap
    rw [hseq, ← hnext] at hle
    refine hclear ht ⟨top, hhead, UInt64.lt_of_le_of_ne hle (htop top hhead), e, hmem, ?_⟩
    rw [hseq, hnext]
    exact UInt64.le_refl _
  have hnone : ∀ {t : XhttpStream}, I t → t.readBuffered n = none → t.upRx.queue ≠ [] :=
    fun ht hread hqueue => hstuck ht hqueue (top_ne hread)
  refine @pollRead_packets_rule n I (fun r _ => ∃ f ∈ s.pktQueue.heap ++
    entries s.upRx.queue, f.seq = s.pktQueue.nextSeq ∧ r = .ready (f.data.take n))
    (fun ht => ht.1.queue) ?_ ?_ ?_ ?_ s ⟨h, hleft, rfl, List.Perm.refl _⟩
  · rintro t r t' ⟨ht, hleft, hnext, hwait⟩ hread
    have hturn := t.turn_readBuffered n
    rw [hread] at hturn
    cases hturn with
    | leftover hne => exact absurd hleft hne
    | streamBuf _ hbuf => exact absurd ht.noChunks hbuf
    | pop _ _ top heap hheap htop =>
      refine ⟨top, hwait.subset (List.mem_append_left _ ?_), htop.trans hnext, rfl⟩
      rw [hheap]
      exact List.mem_cons_self
    | ended _ _ htop heof =>
      exact (hstuck ⟨ht, hleft, hnext, hwait⟩ (ht.ended heof).1 htop).elim
  · rintro t seq data queue ⟨ht, hleft, hnext, hwait⟩ hread hqueue
    refine ⟨ht.push hread hqueue, hleft, hnext, List.Perm.trans ?_ hwait⟩
    rw [hqueue, entries_packet_cons]
    exact ((PktHeap.push_perm t.pktQueue.heap ⟨seq, data⟩).append_right _).trans
      List.perm_middle.symm
  · intro t ht hread hqueue
    exact absurd hqueue (hnone ht hread)
  · intro t ht hread hqueue
    exact absurd hqueue (hnone ht hread)

/-- After what is left over was read. -/
theorem drained (h : Fed arrived taken returned s) :
    Fed arrived taken (returned ++ s.pktQueue.leftover) s.drained where
  packets := h.packets.congr rfl rfl rfl
  order := h.order.imp fun _ hr => hr.congr rfl
  queue := h.queue
  noChunks := h.noChunks
  ended := h.ended
  returned := (List.append_nil _).trans h.returned

theorem arrive (h : Fed arrived taken returned s) (hclosed : ¬ s.upRx.closed = true)
    (e : PktEntry) :
    Fed (arrived ++ [e]) taken returned
      { s with upRx := { s.upRx with queue := s.upRx.queue ++ [e.packet] } } where
  packets := h.packets.arrive e.packet
  order := h.order.imp fun _ hr => hr.arrive e
  queue pkt hpkt := by
    rcases List.mem_append.mp hpkt with hpkt | hpkt
    · exact h.queue pkt hpkt
    · exact ⟨e, List.mem_singleton.mp hpkt⟩
  noChunks := h.noChunks
  ended heof := absurd (h.ended heof).2 hclosed
  returned := h.returned

theorem hangUp (h : Fed arrived taken returned s) :
    Fed arrived taken returned { s with upRx := { s.upRx with closed := true } } where
  packets := h.packets.congr rfl rfl rfl
  order := h.order.imp fun _ hr => hr.congr rfl
  queue := h.queue
  noChunks := h.noChunks
  ended heof := ⟨(h.ended heof).1, rfl⟩
  returned := h.returned

end Fed

/-! ## The property -/

/-- The reader is not stalled by stale packets, and nothing is returned twice. -/
structure NotStalled (arrived : List PktEntry) (u : Upstream) : Prop where
  /-- once what is left over was read, a poll returns the data of a packet that is next, if
  one waits -/
  next : ∀ e ∈ u.stream.pktQueue.heap ++ entries u.stream.upRx.queue,
    e.seq = u.stream.pktQueue.nextSeq → ∀ n,
      ∃ f ∈ u.stream.pktQueue.heap ++ entries u.stream.upRx.queue,
        f.seq = u.stream.pktQueue.nextSeq ∧
        (u.stream.drained.pollRead n).1 = .ready (f.data.take n)
  /-- no entry behind the counter is on top of the heap and hides a later one -/
  top : ¬ Hides u.stream
  /-- what was returned is the data of packets with different numbers; the others wait -/
  once : ∃ taken : List PktEntry,
    (taken ++ (u.stream.pktQueue.heap ++ entries u.stream.upRx.queue)).Perm arrived ∧
    (taken.map PktEntry.seq).Nodup ∧
    u.returned ++ u.stream.pktQueue.leftover = (taken.map PktEntry.data).flatten

/-- Nothing that waits is behind the counter, and there is one packet that is next. -/
structure NoneStale (u : Upstream) : Prop where
  waits : ∀ e ∈ u.stream.pktQueue.heap ++ entries u.stream.upRx.queue,
    u.stream.pktQueue.nextSeq ≤ e.seq
  /-- once what is left over was read, a poll returns its data -/
  next : ∀ e ∈ u.stream.pktQueue.heap ++ entries u.stream.upRx.queue,
    e.seq = u.stream.pktQueue.nextSeq →
      ∀ n, (u.stream.drained.pollRead n).1 = .ready (e.data.take n)

namespace Fed

variable {arrived taken : List PktEntry} {u : Upstream}

theorem notStalled (h : Fed arrived taken u.returned u.stream)
    (hclear : ∀ {returned t}, Fed arrived taken returned t → ¬ Hides t)
    (hnodup : (taken.map PktEntry.seq).Nodup) : NotStalled arrived u where
  next _ he hseq n := h.drained.pollRead_next hclear rfl he hseq n
  top := hclear h
  once := ⟨taken, h.packets.held, hnodup, h.returned⟩

theorem not_hides_of_inTurnOnce {returned : Bytes} {s : XhttpStream}
    (h : Fed arrived taken returned s) (honce : InTurnOnce (arrived.map PktEntry.seq)) :
    ¬ Hides s := by
  rintro ⟨top, htop, hlt, -⟩
  have hle := h.packets.not_stale honce (List.mem_append_left _ (List.mem_of_mem_head? htop))
  exact UInt64.not_le.mpr hlt hle

theorem noneStale (h : Fed arrived taken u.returned u.stream)
    (honce : InTurnOnce (arrived.map PktEntry.seq)) : NoneStale u where
  waits _ he := h.packets.not_stale honce he
  next e he hseq n := by
    obtain ⟨f, hf, hfseq, hread⟩ := h.drained.pollRead_next
      (fun ht => ht.not_hides_of_inTurnOnce honce) rfl he hseq n
    rw [hread, h.packets.next_unique honce he hf hseq hfseq]

theorem not_hides_of_unhidden {returned : Bytes} {s : XhttpStream}
    (h : Fed arrived taken returned s) {numbers : List UInt64} (hunhidden : Unhidden numbers)
    (hpre : arrived.map PktEntry.seq <+: numbers) (hlen : taken.length < 2 ^ 64) :
    ¬ Hides s := by
  rintro ⟨top, htop, hlt, e, he, hle⟩
  obtain ⟨received, hreceived⟩ := h.order
  have hmem : e.seq ∈ numbers :=
    hpre.subset (List.mem_map_of_mem (h.packets.held.subset (List.mem_append_right _ he)))
  have hpassed := hreceived.lt_next_of_stale h.packets hunhidden hpre hlen
    (List.mem_of_mem_head? htop) hlt hmem
  exact UInt64.not_le.mpr hpassed hle

end Fed

/-! ## Runs -/

theorem step_read (u : Upstream) (n : Nat) :
    u.step (.read n) =
      some ⟨(u.stream.pollRead n).2, u.returned ++ (u.stream.pollRead n).1.bytes⟩ := by
  unfold Upstream.step
  dsimp only
  split
  · rename_i hread
    rw [hread]
    simp [PollRead.bytes]
  · rename_i hread
    rw [hread]
    rfl

/-- The stream is fed by what arrives. -/
theorem Fed.after_run {arrived taken : List PktEntry} {u t : Upstream} {es : List StreamEvent}
    (h : Fed arrived taken u.returned u.stream)
    (hpackets : ∀ pkt ∈ arrivals es, ∃ e : PktEntry, pkt = e.packet)
    (hrun : run Upstream.step u es = some t) :
    ∃ taken', Fed (arrived ++ entries (arrivals es)) taken' t.returned t.stream := by
  -- the rule of runs is about all that arrives, which starts with nothing here
  refine @arrivals_run
    (fun before v => ∃ taken', Fed (arrived ++ entries before) taken' v.returned v.stream)
    [] u t es ?_ ?_ ?_ ⟨taken, (List.append_nil arrived).symm ▸ h⟩ hrun
  · rintro before v v' pkt hpkt ⟨taken', h⟩ hstep
    obtain ⟨x, rfl⟩ := hpackets pkt hpkt
    simp only [Upstream.step] at hstep
    split at hstep
    · cases hstep
    · rename_i hclosed
      cases hstep
      have happend : arrived ++ entries (before ++ [x.packet]) = (arrived ++ entries before) ++ [x] := by
        rw [entries, List.filterMap_append, ← List.append_assoc]
        rfl
      rw [happend]
      exact ⟨taken', h.arrive hclosed x⟩
  · rintro before v v' ⟨taken', h⟩ hstep
    cases hstep
    exact ⟨taken', h.hangUp⟩
  · rintro before v v' n - - ⟨taken', h⟩ hstep
    rw [step_read] at hstep
    cases hstep
    exact h.pollRead n

theorem InTurnOnce.sublist {ns ms : List UInt64} (h : InTurnOnce ms) (hsub : ns.Sublist ms) :
    InTurnOnce ns := fun k hk =>
  (hsub.count_le k).trans (h k fun j hj => hsub.subset (hk j hj))

/-- What arrives in a run is a prefix of the packets. -/
theorem exists_fed {packets : List PktEntry} {es : List StreamEvent} {u : Upstream}
    (harrived : arrivals es <+: packets.map PktEntry.packet)
    (hrun : run Upstream.step .init es = some u) :
    entries (arrivals es) <+: packets ∧
      ∃ taken, Fed (entries (arrivals es)) taken u.returned u.stream := by
  have hpackets : ∀ pkt ∈ arrivals es, ∃ e : PktEntry, pkt = e.packet := by
    intro pkt hpkt
    obtain ⟨e, -, rfl⟩ := List.mem_map.mp (harrived.subset hpkt)
    exact ⟨e, rfl⟩
  refine ⟨?_, @Fed.after_run [] [] .init u es fed_init hpackets hrun⟩
  rw [← entries_map_packet packets]
  exact harrived.filterMap _

/-- Where no reachable number comes twice, nothing is ever stale. -/
theorem noneStale_of_inTurnOnce {packets : List PktEntry}
    (honce : InTurnOnce (packets.map PktEntry.seq)) {es : List StreamEvent} {u : Upstream}
    (harrived : arrivals es <+: packets.map PktEntry.packet)
    (hrun : run Upstream.step .init es = some u) :
    NotStalled (entries (arrivals es)) u ∧ NoneStale u := by
  obtain ⟨hpre, taken, h⟩ := exists_fed harrived hrun
  have honce' : InTurnOnce ((entries (arrivals es)).map PktEntry.seq) :=
    honce.sublist (hpre.sublist.map _)
  exact ⟨h.notStalled (fun ht => ht.not_hides_of_inTurnOnce honce')
    (h.packets.nodup honce'), h.noneStale honce'⟩

/-- Where nothing is hidden, no run stalls. -/
theorem notStalled_of_unhidden {packets : List PktEntry} (hlen : packets.length < 2 ^ 64)
    (hunhidden : Unhidden (packets.map PktEntry.seq)) {es : List StreamEvent} {u : Upstream}
    (harrived : arrivals es <+: packets.map PktEntry.packet)
    (hrun : run Upstream.step .init es = some u) : NotStalled (entries (arrivals es)) u := by
  obtain ⟨hpre, taken, h⟩ := exists_fed harrived hrun
  have htaken : taken.length < 2 ^ 64 := by
    have hheld := h.packets.held.length_eq
    rw [List.length_append] at hheld
    have hle := hpre.length_le
    omega
  exact h.notStalled (fun ht => ht.not_hides_of_unhidden hunhidden (hpre.map _) htaken)
    (List.nodup_iff_count_le_one.mpr (h.packets.count_taken_le_one htaken.le))

/-! ## A run that stalls -/

/-- All that waits is in the heap, and not next. -/
structure Waiting (s : XhttpStream) : Prop where
  queue : s.upRx.queue = []
  top : ∀ top ∈ s.pktQueue.heap.head?, top.seq ≠ s.pktQueue.nextSeq

/-- How far a stream is from that. -/
def backlog (s : XhttpStream) : Nat := s.pktQueue.heap.length + 2 * s.upRx.queue.length

/-- Polls with a buffer that is large enough get closer to it. -/
theorem Fed.pollRead_backlog {arrived taken : List PktEntry} {returned : Bytes}
    {s : XhttpStream} (h : Fed arrived taken returned s) (hopen : ¬ s.upRx.closed = true)
    (hleft : s.pktQueue.leftover = []) {n : Nat} (hn : ∀ e ∈ arrived, e.data.length ≤ n) :
    let s' := (s.pollRead n).2
    ¬ s'.upRx.closed = true ∧ s'.pktQueue.leftover = [] ∧
      (Waiting s' ∨ backlog s' < backlog s) := by
  let I : XhttpStream → Prop := fun t => Fed arrived taken returned t ∧
    ¬ t.upRx.closed = true ∧ t.pktQueue.leftover = [] ∧ backlog t ≤ backlog s
  refine @pollRead_packets_rule n I (fun _ s' => ¬ s'.upRx.closed = true ∧
    s'.pktQueue.leftover = [] ∧ (Waiting s' ∨ backlog s' < backlog s)) (fun ht => ht.1.queue)
    ?_ ?_ ?_ ?_ s ⟨h, hopen, hleft, Nat.le_refl _⟩
  · rintro t r t' ⟨ht, hopen, hleft, hle⟩ hread
    have hturn := t.turn_readBuffered n
    rw [hread] at hturn
    cases hturn with
    | leftover hne => exact absurd hleft hne
    | streamBuf _ hbuf => exact absurd ht.noChunks hbuf
    | pop _ _ top heap hheap htop =>
      have hmem : top ∈ arrived := by
        refine ht.packets.held.subset (List.mem_append_right _ (List.mem_append_left _ ?_))
        rw [hheap]
        exact List.mem_cons_self
      refine ⟨hopen, ?_, .inr (Nat.lt_of_lt_of_le ?_ hle)⟩
      · show t.pktQueue.leftover ++ top.data.drop n = []
        rw [hleft, List.nil_append]
        exact List.drop_eq_nil_of_le (hn top hmem)
      · simp only [backlog, hheap, List.length_cons]
        omega
    | ended _ _ _ heof => exact absurd (ht.ended heof).2 hopen
  · rintro t seq data queue ⟨ht, hopen, hleft, hle⟩ hread hqueue
    refine ⟨ht.push hread hqueue, hopen, hleft, Nat.le_trans ?_ hle⟩
    have hlen := (PktHeap.push_perm t.pktQueue.heap ⟨seq, data⟩).length_eq
    simp only [backlog, XhttpStream.dequeued, hlen, hqueue, List.length_cons]
    omega
  · rintro t ⟨-, hopen, -⟩ _ _ hclosed
    exact absurd hclosed hopen
  · rintro t ⟨-, hopen, hleft, -⟩ hread hqueue
    exact ⟨hopen, hleft, .inl ⟨hqueue, top_ne hread⟩⟩

/-- Enough polls take all that arrived out of the channel. -/
theorem Fed.exists_waiting {arrived taken : List PktEntry} {u : Upstream}
    (h : Fed arrived taken u.returned u.stream) (hopen : ¬ u.stream.upRx.closed = true)
    (hleft : u.stream.pktQueue.leftover = []) {n : Nat}
    (hn : ∀ e ∈ arrived, e.data.length ≤ n) :
    ∃ m taken' t, run Upstream.step u (List.replicate m (.read n)) = some t ∧
      Fed arrived taken' t.returned t.stream ∧ Waiting t.stream := by
  induction hb : backlog u.stream using Nat.strongRecOn generalizing u taken with
  | ind b ih =>
    obtain ⟨hopen', hleft', hcloser⟩ := h.pollRead_backlog hopen hleft hn
    obtain ⟨taken', hfed⟩ := h.pollRead n
    rcases hcloser with hwaiting | hlt
    · exact ⟨1, taken', _, run_cons_eq_some.mpr ⟨_, step_read u n, rfl⟩, hfed, hwaiting⟩
    · let v : Upstream := ⟨(u.stream.pollRead n).2, u.returned ++ (u.stream.pollRead n).1.bytes⟩
      obtain ⟨m, taken'', t, hrun, ht⟩ :=
        ih (backlog v.stream) (hb ▸ hlt) (u := v) hfed hopen' hleft' rfl
      exact ⟨m + 1, taken'', t, run_cons_eq_some.mpr ⟨_, step_read u n, hrun⟩, ht⟩

/-- Where all packets were received and none is hidden, the packets were due in time. -/
theorem unhidden_of_waiting {packets taken : List PktEntry} {u : Upstream}
    (hlen : packets.length < 2 ^ 64) (h : Fed packets taken u.returned u.stream)
    (hwaiting : Waiting u.stream) (hgood : NotStalled packets u) :
    Unhidden (packets.map PktEntry.seq) := by
  obtain ⟨received, hreceived⟩ := h.order
  obtain rfl : received = packets := by
    rw [← hreceived.arrived, hwaiting.queue, entries, List.filterMap_nil, List.append_nil]
  have hheld := hreceived.held h.packets
  have htaken : taken.length < 2 ^ 64 := by
    have hcount := h.packets.held.length_eq
    rw [List.length_append] at hcount
    omega
  -- behind a stale top there is nothing that is not stale
  have hbehind : ∀ e ∈ u.stream.pktQueue.heap, e.seq ≤ u.stream.pktQueue.nextSeq →
      ∀ f ∈ u.stream.pktQueue.heap, f.seq < u.stream.pktQueue.nextSeq := by
    intro e he hle f hf
    obtain ⟨top, htop, htople⟩ := exists_top_le h.packets.sorted he
    have hstale : top.seq < u.stream.pktQueue.nextSeq :=
      UInt64.lt_of_le_of_ne (UInt64.le_trans htople hle) (hwaiting.top top htop)
    by_contra hnot
    exact hgood.top ⟨top, htop, hstale, f, List.mem_append_left _ hf, UInt64.not_lt.mp hnot⟩
  intro k m hreach htwice hm hkm
  have hk : k ∈ u.stream.pktQueue.heap.map PktEntry.seq := by
    have honce := h.packets.count_taken_le_one htaken.le k
    rw [hreceived.count h.packets] at htwice
    exact List.count_pos_iff.mp (by omega)
  obtain ⟨e, he, rfl⟩ := List.mem_map.mp hk
  -- the number twice received was passed: else the next one would wait
  have hpassed : e.seq < u.stream.pktQueue.nextSeq := by
    by_contra hnot
    have hcame : u.stream.pktQueue.nextSeq ∈ received.map PktEntry.seq := by
      rcases UInt64.lt_or_eq_of_le (UInt64.not_lt.mp hnot) with hlt | heq
      · exact hreach _ hlt
      · exact heq ▸ hheld.subset (List.mem_append_right _ hk)
    rcases List.mem_append.mp (hheld.mem_iff.mpr hcame) with hold | hheap
    · exact h.packets.next_notMem htaken hold
    obtain ⟨f, hf, heq⟩ := List.mem_map.mp hheap
    exact hnot (hbehind f hf (heq ▸ UInt64.le_refl _) e he)
  rcases List.mem_append.mp (hheld.mem_iff.mpr hm) with hold | hheap
  · exact hreceived.timely m hold
  · obtain ⟨f, hf, rfl⟩ := List.mem_map.mp hheap
    have hlt := hbehind e he (UInt64.le_of_lt hpassed) f hf
    exact hreceived.timely _ (h.packets.mem_of_lt_next hlt)

/-- The packets arrive one after the other. -/
def arriveAll (packets : List PktEntry) : List StreamEvent :=
  packets.map fun e => .arrive e.packet

theorem run_arriveAll (packets : List PktEntry) {u : Upstream}
    (hopen : ¬ u.stream.upRx.closed = true) :
    ∃ t, run Upstream.step u (arriveAll packets) = some t ∧ ¬ t.stream.upRx.closed = true ∧
      t.stream.pktQueue.leftover = u.stream.pktQueue.leftover := by
  induction packets generalizing u with
  | nil => exact ⟨u, rfl, hopen, rfl⟩
  | cons e packets ih =>
    have hstep : u.step (.arrive e.packet) = some { u with stream := { u.stream with upRx :=
        { u.stream.upRx with queue := u.stream.upRx.queue ++ [e.packet] } } } := if_neg hopen
    obtain ⟨t, hrun, ht⟩ := ih (u := { u with stream := { u.stream with upRx :=
      { u.stream.upRx with queue := u.stream.upRx.queue ++ [e.packet] } } }) hopen
    exact ⟨t, run_cons_eq_some.mpr ⟨_, hstep, hrun⟩, ht⟩

theorem arrivals_append (es fs : List StreamEvent) :
    arrivals (es ++ fs) = arrivals es ++ arrivals fs := List.filterMap_append

theorem arrivals_arriveAll (packets : List PktEntry) :
    arrivals (arriveAll packets) = packets.map PktEntry.packet := by
  induction packets with
  | nil => rfl
  | cons e packets ih => exact congrArg (e.packet :: ·) ih

theorem arrivals_replicate_read (m n : Nat) : arrivals (List.replicate m (.read n)) = [] := by
  induction m with
  | zero => rfl
  | succ m ih => exact ih

/-- Every sequence of packets arrives in some run at whose end all of them wait or were
taken. -/
theorem exists_run_waiting (packets : List PktEntry) :
    ∃ es taken u, arrivals es = packets.map PktEntry.packet ∧
      run Upstream.step .init es = some u ∧ Fed packets taken u.returned u.stream ∧
      Waiting u.stream := by
  obtain ⟨t, hrun, hopen, hleft⟩ := run_arriveAll packets (u := .init) Bool.false_ne_true
  have hpackets : ∀ pkt ∈ arrivals (arriveAll packets), ∃ e : PktEntry, pkt = e.packet := by
    rw [arrivals_arriveAll]
    intro pkt hpkt
    obtain ⟨e, -, rfl⟩ := List.mem_map.mp hpkt
    exact ⟨e, rfl⟩
  obtain ⟨taken, hfed⟩ := @Fed.after_run [] [] .init t _ fed_init hpackets hrun
  rw [List.nil_append, arrivals_arriveAll, entries_map_packet] at hfed
  let n := (packets.map fun e => e.data.length).sum
  have hn : ∀ e ∈ packets, e.data.length ≤ n :=
    fun e he => List.le_sum_of_mem (List.mem_map_of_mem he)
  obtain ⟨m, taken', u, hreads, hfed', hwaiting⟩ := hfed.exists_waiting hopen hleft hn
  refine ⟨arriveAll packets ++ List.replicate m (.read n), taken', u, ?_, ?_, hfed', hwaiting⟩
  · rw [arrivals_append, arrivals_arriveAll, arrivals_replicate_read, List.append_nil]
  · rw [run_append, hrun]
    exact hreads

/-! ## Every run -/

/-- **Stale packets.**  No run in which packets of a sequence arrive stalls if and only if a
number that the reader can reach comes twice in it only when each greater one was due
before; the numbers must not wrap.  If none comes twice, nothing is ever stale. -/
theorem notStalled_iff_unhidden (packets : List PktEntry) :
    (packets.length < 2 ^ 64 →
      ((∀ es u, arrivals es <+: packets.map PktEntry.packet →
        run Upstream.step .init es = some u → NotStalled (entries (arrivals es)) u) ↔
      Unhidden (packets.map PktEntry.seq))) ∧
    (InTurnOnce (packets.map PktEntry.seq) →
      ∀ es u, arrivals es <+: packets.map PktEntry.packet →
        run Upstream.step .init es = some u →
          NotStalled (entries (arrivals es)) u ∧ NoneStale u) := by
  refine ⟨fun hlen => ⟨fun hall => ?_, fun hunhidden _ _ harrived hrun =>
    notStalled_of_unhidden hlen hunhidden harrived hrun⟩, fun honce _ _ harrived hrun =>
    noneStale_of_inTurnOnce honce harrived hrun⟩
  obtain ⟨es, taken, u, harrived, hrun, hfed, hwaiting⟩ := exists_run_waiting packets
  have hgood := hall es u (harrived ▸ List.prefix_rfl) hrun
  rw [harrived, entries_map_packet] at hgood
  exact unhidden_of_waiting hlen hfed hwaiting hgood

/-- The first of two packets comes twice. -/
def staleRun : List StreamEvent :=
  [.arrive (.packet 0 [104]), .arrive (.packet 0 [104]), .arrive (.packet 1 [105]),
    .read 7, .read 7]

/-- The second one has arrived and is never returned. -/
theorem not_notStalled_staleRun :
    ¬ ∀ (packets : List PktEntry) (es : List StreamEvent) (u : Upstream),
      arrivals es <+: packets.map PktEntry.packet → run Upstream.step .init es = some u →
      NotStalled (entries (arrivals es)) u := by
  intro hall
  obtain ⟨u, hrun⟩ : ∃ u, run Upstream.step .init staleRun = some u := ⟨_, rfl⟩
  have hend : (run Upstream.step .init staleRun).map (·.stream) =
      some ⟨⟨[], false⟩, ⟨[⟨0, [104]⟩, ⟨1, [105]⟩], 1, []⟩, [], false⟩ := by decide
  rw [hrun] at hend
  have hstream : u.stream = ⟨⟨[], false⟩, ⟨[⟨0, [104]⟩, ⟨1, [105]⟩], 1, []⟩, [], false⟩ :=
    Option.some.inj hend
  have hgood := hall [⟨0, [104]⟩, ⟨0, [104]⟩, ⟨1, [105]⟩] staleRun u (by decide) hrun
  obtain ⟨f, -, -, hread⟩ :=
    hgood.next ⟨1, [105]⟩ (by rw [hstream]; decide) (by rw [hstream]) 7
  rw [hstream] at hread
  have hpending : (XhttpStream.drained
      ⟨⟨[], false⟩, ⟨[⟨0, [104]⟩, ⟨1, [105]⟩], 1, []⟩, [], false⟩).pollRead 7 =
      (.pending, ⟨⟨[], false⟩, ⟨[⟨0, [104]⟩, ⟨1, [105]⟩], 1, []⟩, [], false⟩) := by decide
  rw [hpending] at hread
  cases hread

end Ruproxy.Xhttp
