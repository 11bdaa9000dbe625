/-
  Xhttp/Reorder.lean --- packets that arrive in any order are read in sequence.

  The packets of an upload that have arrived are those that were taken for
  reading (the first `k`, where `k` is the next sequence number), those in the
  heap, and those still in the channel.  `Ordered` says so together with what was
  returned; a packet's arrival and every `poll_read` keep it.
-/
import Ruproxy.Xhttp.Reader

set_option autoImplicit false

namespace Ruproxy.Xhttp

open Ruproxy.Foundation
open Ruproxy.Foundation.Transition

/-! ## The packets of an upload -/

/-- The packets that carry the parts of an upload, with their sequence numbers. -/
def packets (bodies : List Bytes) : List UploadPacket :=
  bodies.mapIdx fun i data => .packet (UInt64.ofNat i) data

/-- What arrives in a list of events. -/
def arrivals (es : List StreamEvent) : List UploadPacket :=
  es.filterMap fun
    | .arrive pkt => some pkt
    | _ => none

/-- **A run with arrivals.**  What every arrival and every poll of the run keeps, of the
packets that have arrived before it and the state, holds of all of them behind the run. -/
theorem arrivals_run {P : List UploadPacket → Upstream → Prop} {arrived : List UploadPacket}
    {u t : Upstream} {es : List StreamEvent}
    (harrive : ∀ before u u' pkt, pkt ∈ arrivals es → P before u →
      u.step (.arrive pkt) = some u' → P (before ++ [pkt]) u')
    (hhangUp : ∀ before u u', P before u → u.step .hangUp = some u' → P before u')
    (hread : ∀ before u u' n, before <+: arrived ++ arrivals es → .read n ∈ es → P before u →
      u.step (.read n) = some u' → P before u')
    (h : P arrived u) (hrun : run Upstream.step u es = some t) : P (arrived ++ arrivals es) t := by
  induction es generalizing u arrived with
  | nil =>
    cases hrun
    rwa [arrivals, List.filterMap_nil, List.append_nil]
  | cons e es ih =>
    obtain ⟨u', hstep, hrest⟩ := run_cons_eq_some.mp hrun
    have hlater : ∀ n, .read n ∈ es → .read n ∈ e :: es := fun n => List.mem_cons_of_mem e
    cases e with
    | arrive pkt =>
      have happend : arrived ++ arrivals (.arrive pkt :: es) = arrived ++ [pkt] ++ arrivals es := by
        rw [List.append_assoc]
        rfl
      rw [happend] at hread ⊢
      refine ih (fun before v v' x hx => harrive before v v' x (List.mem_cons_of_mem pkt hx))
        (fun before v v' n hpre hmem => hread before v v' n hpre (hlater n hmem)) ?_ hrest
      exact harrive arrived u u' pkt List.mem_cons_self h hstep
    | hangUp =>
      exact ih harrive (fun before v v' n hpre hmem => hread before v v' n hpre (hlater n hmem))
        (hhangUp arrived u u' h hstep) hrest
    | read n =>
      refine ih harrive (fun before v v' n hpre hmem => hread before v v' n hpre (hlater n hmem))
        ?_ hrest
      exact hread arrived u u' n (List.prefix_append _ _) List.mem_cons_self h hstep

/-- The entry of the heap for a packet. -/
def PktEntry.packet (e : PktEntry) : UploadPacket := .packet e.seq e.data

/-- The byte after the first `n` of an upload is in a packet that has arrived. -/
def NextArrived (bodies : List Bytes) (arrived : List UploadPacket) (n : Nat) : Prop :=
  ∃ k data, bodies[k]? = some data ∧ .packet (UInt64.ofNat k) data ∈ arrived ∧
    (bodies.take k).flatten.length ≤ n ∧ n < (bodies.take (k + 1)).flatten.length

section Packets

variable {bodies : List Bytes}

theorem packets_getElem? (bodies : List Bytes) (i : Nat) :
    (packets bodies)[i]? = bodies[i]?.map (.packet (UInt64.ofNat i)) := by
  simp [packets]

theorem mem_take_packets {k : Nat} {pkt : UploadPacket} (h : pkt ∈ (packets bodies).take k) :
    ∃ i data, i < k ∧ bodies[i]? = some data ∧ pkt = .packet (UInt64.ofNat i) data := by
  obtain ⟨i, hi⟩ := List.mem_iff_getElem?.mp h
  rw [List.getElem?_take] at hi
  split at hi
  · rename_i hik
    rw [packets_getElem?, Option.map_eq_some_iff] at hi
    obtain ⟨data, hdata, hpkt⟩ := hi
    exact ⟨i, data, hik, hdata, hpkt.symm⟩
  · cases hi

theorem mem_drop_packets {k : Nat} {pkt : UploadPacket} (h : pkt ∈ (packets bodies).drop k) :
    ∃ i data, k ≤ i ∧ bodies[i]? = some data ∧ pkt = .packet (UInt64.ofNat i) data := by
  obtain ⟨j, hj⟩ := List.mem_iff_getElem?.mp h
  rw [List.getElem?_drop, packets_getElem?, Option.map_eq_some_iff] at hj
  obtain ⟨data, hdata, hpkt⟩ := hj
  exact ⟨k + j, data, Nat.le_add_right k j, hdata, hpkt.symm⟩

/-- The part with a number is in the upload. -/
theorem lt_of_getElem? {i : Nat} {data : Bytes} (h : bodies[i]? = some data) :
    i < bodies.length :=
  (List.getElem?_eq_some_iff.mp h).1

/-- Sequence numbers of an upload that its counter can number are different. -/
theorem ofNat_seq_inj (hlen : bodies.length ≤ 2 ^ 64) {i j : Nat} (hi : i < bodies.length)
    (hj : j < bodies.length) (h : UInt64.ofNat i = UInt64.ofNat j) : i = j := by
  have hnat := congrArg UInt64.toNat h
  simp only [UInt64.toNat_ofNat'] at hnat
  omega

/-- The first parts are at least as long as fewer of them. -/
theorem length_flatten_take_mono (bodies : List Bytes) {i j : Nat} (h : i ≤ j) :
    (bodies.take i).flatten.length ≤ (bodies.take j).flatten.length := by
  have hsub : (bodies.take i).Sublist (bodies.take j) := (List.take_prefix_take_left h).sublist
  exact hsub.flatten.length_le

theorem take_succ_flatten {k : Nat} {data : Bytes} (h : bodies[k]? = some data) :
    (bodies.take (k + 1)).flatten = (bodies.take k).flatten ++ data := by
  rw [List.take_add_one, h, List.flatten_append]
  simp

end Packets

/-! ## The invariant -/

/-- A stream that has taken the first `k` packets of an upload for reading. -/
structure Ordered (bodies : List Bytes) (arrived : List UploadPacket) (k : Nat)
    (returned : Bytes) (s : XhttpStream) : Prop where
  packetsOnly : s.streamBuf = []
  ended : s.eof = true → s.upRx.queue = [] ∧ s.upRx.closed = true
  next : k ≤ bodies.length ∧ s.pktQueue.nextSeq = UInt64.ofNat k
  returned : returned ++ s.pktQueue.leftover = (bodies.take k).flatten
  sorted : s.pktQueue.heap.Pairwise fun a b => a.seq ≤ b.seq
  held : ((packets bodies).take k ++ (s.pktQueue.heap.map PktEntry.packet ++
    s.upRx.queue)).Perm arrived

theorem ordered_init (bodies : List Bytes) :
    Ordered bodies [] 0 Upstream.init.returned Upstream.init.stream where
  packetsOnly := rfl
  ended heof := by cases heof
  next := ⟨Nat.zero_le _, rfl⟩
  returned := rfl
  sorted := .nil
  held := .refl _

/-- Nothing is left over, and the packet that is next is not in the heap. -/
def Exhausted (s : XhttpStream) : Prop :=
  s.pktQueue.leftover = [] ∧ ∀ e ∈ s.pktQueue.heap, e.seq ≠ s.pktQueue.nextSeq

/-- Pushing keeps the heap in order. -/
theorem PktHeap.push_sorted {heap : PktHeap} (e : PktEntry)
    (h : heap.Pairwise fun a b => a.seq ≤ b.seq) :
    (heap.push e).Pairwise fun a b => a.seq ≤ b.seq := by
  have : Std.Total fun a b : PktEntry => a.seq ≤ b.seq := ⟨fun a b => UInt64.le_total a.seq b.seq⟩
  have : IsTrans PktEntry fun a b => a.seq ≤ b.seq := ⟨fun _ _ _ => UInt64.le_trans⟩
  exact h.orderedInsert e heap

theorem PktHeap.push_perm (heap : PktHeap) (e : PktEntry) : (heap.push e).Perm (e :: heap) :=
  List.perm_orderedInsert _ e heap

section Read

variable {bodies : List Bytes} {arrived : List UploadPacket} {k : Nat} {returned : Bytes}
  {s : XhttpStream}

theorem Ordered.isPrefix (h : Ordered bodies arrived k returned s) :
    returned <+: bodies.flatten := by
  refine List.IsPrefix.trans ⟨_, h.returned⟩ ?_
  rw [← List.take_append_drop k bodies, List.flatten_append]
  simp

variable (hlen : bodies.length ≤ 2 ^ 64) (hne : ∀ d ∈ bodies, d ≠ [])
  (harrived : arrived.Subperm (packets bodies)) {remaining : Nat} (hpos : 0 < remaining)

include harrived in
/-- What waits in the heap or in the channel was not taken before. -/
theorem Ordered.waiting (h : Ordered bodies arrived k returned s) {pkt : UploadPacket}
    (hpkt : pkt ∈ s.pktQueue.heap.map PktEntry.packet ++ s.upRx.queue) :
    ∃ i data, k ≤ i ∧ bodies[i]? = some data ∧ pkt = .packet (UInt64.ofNat i) data := by
  have hsplit : (packets bodies).Subperm ((packets bodies).take k ++ (packets bodies).drop k) := by
    rw [List.take_append_drop]
  have hsub := (h.held.subperm.trans harrived).trans hsplit
  rw [List.subperm_append_left] at hsub
  exact mem_drop_packets (hsub.subset hpkt)

include harrived in
/-- An entry of the heap carries a part that was not taken before. -/
theorem Ordered.entry (h : Ordered bodies arrived k returned s) {e : PktEntry}
    (he : e ∈ s.pktQueue.heap) :
    ∃ i, k ≤ i ∧ bodies[i]? = some e.data ∧ e.seq = UInt64.ofNat i := by
  obtain ⟨i, data, hki, hdata, heq⟩ := h.waiting harrived
    (List.mem_append_left _ (List.mem_map_of_mem he))
  obtain ⟨hseq, hbody⟩ := UploadPacket.packet.inj heq
  exact ⟨i, hki, hbody ▸ hdata, hseq⟩

include hlen harrived in
/-- When the entry on top is not the next one, no entry is. -/
theorem Ordered.top_least (h : Ordered bodies arrived k returned s) {top : PktEntry}
    {heap : PktHeap} (hheap : s.pktQueue.heap = top :: heap)
    (hseq : top.seq ≠ s.pktQueue.nextSeq) :
    ∀ e ∈ s.pktQueue.heap, e.seq ≠ s.pktQueue.nextSeq := by
  intro e he heq
  have hle : top.seq ≤ e.seq := by
    have hsorted := h.sorted
    rw [hheap] at hsorted he
    rcases List.mem_cons.mp he with rfl | he
    · exact UInt64.le_refl _
    · exact List.rel_of_pairwise_cons hsorted he
  obtain ⟨i, hki, hdata, htop⟩ := h.entry harrived (hheap ▸ List.mem_cons_self)
  have hi := lt_of_getElem? hdata
  apply hseq
  rw [h.next.2] at heq ⊢
  rw [heq, htop, UInt64.le_iff_toNat_le] at hle
  simp only [UInt64.toNat_ofNat'] at hle
  have hik : i = k := by omega
  rw [htop, hik]

include hlen hne harrived hpos in
/-- The entry on top that is next in sequence is read. -/
theorem Ordered.popTop (h : Ordered bodies arrived k returned s) {top : PktEntry}
    {heap : PktHeap} (hheap : s.pktQueue.heap = top :: heap)
    (hleft : s.pktQueue.leftover = []) (hseq : top.seq = s.pktQueue.nextSeq) :
    top.data.take remaining ≠ [] ∧
      Ordered bodies arrived (k + 1) (returned ++ top.data.take remaining)
        { s with pktQueue := ⟨heap, s.pktQueue.nextSeq + 1,
          s.pktQueue.leftover ++ top.data.drop remaining⟩ } := by
  obtain ⟨i, hki, hdata, htop⟩ := h.entry harrived (hheap ▸ List.mem_cons_self)
  have hi := lt_of_getElem? hdata
  have hik : i = k := ofNat_seq_inj hlen hi (by omega) (by rw [← htop, hseq, h.next.2])
  subst hik
  refine ⟨?_, h.packetsOnly, h.ended, ⟨hi, ?_⟩, ?_, ?_, ?_⟩
  · rw [ne_eq, List.take_eq_nil_iff, not_or]
    exact ⟨Nat.ne_of_gt hpos, hne _ (List.mem_of_getElem? hdata)⟩
  · show s.pktQueue.nextSeq + 1 = UInt64.ofNat (i + 1)
    rw [h.next.2, UInt64.ofNat_add]
    rfl
  · have hret := h.returned
    rw [hleft, List.append_nil] at hret
    rw [take_succ_flatten hdata, hleft, List.nil_append, List.append_assoc,
      List.take_append_drop, hret]
  · have hsorted := h.sorted
    rw [hheap] at hsorted
    exact hsorted.of_cons
  · have hheld := h.held
    rw [hheap] at hheld
    rw [List.take_add_one, packets_getElem?, hdata]
    simpa [PktEntry.packet, htop] using hheld

include hlen hne harrived hpos in
/-- **A turn that does not poll the channel.**  It returns the next bytes, or nothing is
left to return before the next packet comes. -/
theorem Ordered.readBuffered (h : Ordered bodies arrived k returned s) :
    (∃ out s' k', s.readBuffered remaining = some (.ready out, s') ∧ out ≠ [] ∧
      Ordered bodies arrived k' (returned ++ out) s') ∨
    (Exhausted s ∧ (s.readBuffered remaining = if s.eof then some (.ready [], s) else none)) := by
  unfold XhttpStream.readBuffered
  dsimp only
  split
  · rename_i hleft
    left
    refine ⟨_, _, k, rfl, ?_, h.packetsOnly, h.ended, h.next, ?_, h.sorted, h.held⟩
    · rw [ne_eq, List.take_eq_nil_iff, not_or]
      exact ⟨Nat.ne_of_gt hpos, hleft⟩
    · rw [List.append_assoc, List.take_append_drop]
      exact h.returned
  · rename_i hleft
    have hleft : s.pktQueue.leftover = [] := by simpa using hleft
    rw [if_neg (by simp [h.packetsOnly])]
    split
    · rename_i top heap hheap
      split
      · rename_i hseq
        left
        obtain ⟨hout, hnext⟩ := h.popTop hlen hne harrived hpos hheap hleft hseq
        exact ⟨_, _, k + 1, rfl, hout, hnext⟩
      · rename_i hseq
        right
        exact ⟨⟨hleft, h.top_least hlen harrived hheap hseq⟩, rfl⟩
    · rename_i hheap
      right
      exact ⟨⟨hleft, by simp [hheap]⟩, rfl⟩

/-- When nothing more is in the channel either, the next packet has not arrived. -/
theorem Ordered.not_arrived (hlen : bodies.length ≤ 2 ^ 64)
    (h : Ordered bodies arrived k returned s) (hs : Exhausted s) (hqueue : s.upRx.queue = [])
    {data : Bytes} (hdata : bodies[k]? = some data) :
    .packet (UInt64.ofNat k) data ∉ arrived := by
  intro hmem
  have hk := lt_of_getElem? hdata
  rcases List.mem_append.mp (h.held.mem_iff.mpr hmem) with htaken | hwaiting
  · obtain ⟨i, _, hik, hi, heq⟩ := mem_take_packets htaken
    obtain ⟨hseq, -⟩ := UploadPacket.packet.inj heq
    have := ofNat_seq_inj hlen hk (lt_of_getElem? hi) hseq
    omega
  · rw [hqueue, List.append_nil] at hwaiting
    obtain ⟨e, he, heq⟩ := List.mem_map.mp hwaiting
    obtain ⟨hseq, -⟩ := UploadPacket.packet.inj heq
    exact hs.2 e he (hseq.trans h.next.2.symm)

/-- A packet goes from the channel into the heap. -/
theorem Ordered.push (h : Ordered bodies arrived k returned s) {seq : UInt64} {data : Bytes}
    {queue : List UploadPacket} (hqueue : s.upRx.queue = .packet seq data :: queue) :
    Ordered bodies arrived k returned { s.dequeued queue with pktQueue :=
      { s.pktQueue with heap := s.pktQueue.heap.push ⟨seq, data⟩ } } where
  packetsOnly := h.packetsOnly
  ended heof := by
    have hempty := (h.ended heof).1
    rw [hqueue] at hempty
    cases hempty
  next := h.next
  returned := h.returned
  sorted := PktHeap.push_sorted _ h.sorted
  held := by
    refine List.Perm.trans ?_ h.held
    refine List.Perm.append_left _ ?_
    have hpush := (PktHeap.push_perm s.pktQueue.heap ⟨seq, data⟩).map PktEntry.packet
    refine (hpush.append_right queue).trans ?_
    rw [hqueue]
    exact List.perm_middle.symm

/-- **One poll.**  It returns the next bytes, or all that arrived in sequence was returned
before. -/
theorem Ordered.pollLoop (hlen : bodies.length ≤ 2 ^ 64) (hne : ∀ d ∈ bodies, d ≠ [])
    (harrived : arrived.Subperm (packets bodies)) {remaining : Nat} (hpos : 0 < remaining)
    {queue : List UploadPacket} (hqueue : s.upRx.queue = queue)
    (h : Ordered bodies arrived k returned s) :
    (∃ out s' k', s.pollLoop remaining queue = (.ready out, s') ∧ out ≠ [] ∧
      Ordered bodies arrived k' (returned ++ out) s') ∨
    (∃ res s', s.pollLoop remaining queue = (res, s') ∧ (res = .pending ∨ res = .ready []) ∧
      Ordered bodies arrived k returned s' ∧ Exhausted s' ∧ s'.upRx.queue = []) := by
  induction queue generalizing s with
  | nil =>
    rcases h.readBuffered hlen hne harrived hpos with ⟨out, s', k', hread, hout, hnext⟩ |
      ⟨hs, hread⟩
    · exact .inl ⟨out, s', k', by simp only [XhttpStream.pollLoop, hread], hout, hnext⟩
    · right
      cases heof : s.eof with
      | true =>
        rw [heof, if_pos rfl] at hread
        exact ⟨_, s, by simp only [XhttpStream.pollLoop, hread], .inr rfl, h, hs, hqueue⟩
      | false =>
        rw [heof, if_neg Bool.false_ne_true] at hread
        cases hclosed : s.upRx.closed with
        | true =>
          refine ⟨_, { s with eof := true }, ?_, .inr rfl,
            ⟨h.packetsOnly, fun _ => ⟨hqueue, hclosed⟩, h.next, h.returned, h.sorted, h.held⟩,
            hs, hqueue⟩
          simp [XhttpStream.pollLoop, hread, hclosed]
        | false =>
          refine ⟨_, s, ?_, .inl rfl, h, hs, hqueue⟩
          simp [XhttpStream.pollLoop, hread, hclosed]
  | cons pkt queue ih =>
    rcases h.readBuffered hlen hne harrived hpos with ⟨out, s', k', hread, hout, hnext⟩ |
      ⟨hs, hread⟩
    · exact .inl ⟨out, s', k', by simp only [XhttpStream.pollLoop, hread], hout, hnext⟩
    · have heof : s.eof = false := by
        cases heof : s.eof with
        | false => rfl
        | true =>
          have hempty := (h.ended heof).1
          rw [hqueue] at hempty
          cases hempty
      rw [heof, if_neg Bool.false_ne_true] at hread
      obtain ⟨i, data, -, -, hpkt⟩ := h.waiting harrived
        (List.mem_append_right _ (hqueue ▸ List.mem_cons_self))
      subst hpkt
      simp only [XhttpStream.pollLoop, hread]
      exact ih rfl (h.push hqueue)

end Read

/-! ## Runs -/

/-- The stream has taken some packets in sequence. -/
def Sequenced (bodies : List Bytes) (arrived : List UploadPacket) (u : Upstream) : Prop :=
  ∃ k, Ordered bodies arrived k u.returned u.stream

/-- All parts before one were returned, and its packet has not arrived. -/
def AwaitsPacket (bodies : List Bytes) (arrived : List UploadPacket) (returned : Bytes) : Prop :=
  ∃ k, k ≤ bodies.length ∧ returned = (bodies.take k).flatten ∧
    ∀ data, bodies[k]? = some data → .packet (UInt64.ofNat k) data ∉ arrived

section Run

variable {bodies : List Bytes} {arrived : List UploadPacket} {u u' : Upstream} {n : Nat}

/-- Parts are not empty, so the next byte is in the packet that is awaited. -/
theorem AwaitsPacket.not_nextArrived (hne : ∀ d ∈ bodies, d ≠ []) {returned : Bytes}
    (h : AwaitsPacket bodies arrived returned) : ¬ NextArrived bodies arrived returned.length := by
  obtain ⟨k, hk, hreturned, hmissing⟩ := h
  rintro ⟨j, data, hdata, hmem, hlow, hhigh⟩
  rw [hreturned] at hlow hhigh
  rcases Nat.lt_trichotomy j k with hjk | hjk | hjk
  · have := length_flatten_take_mono bodies (show j + 1 ≤ k from hjk)
    omega
  · subst hjk
    exact hmissing data hdata hmem
  · have hlt : k < bodies.length := Nat.lt_trans hjk (lt_of_getElem? hdata)
    have hsucc := congrArg List.length (take_succ_flatten (List.getElem?_eq_getElem hlt))
    have hbody : 0 < bodies[k].length :=
      List.length_pos_iff.mpr (hne _ (List.getElem_mem hlt))
    have := length_flatten_take_mono bodies (show k + 1 ≤ j from hjk)
    rw [List.length_append] at hsucc
    omega

/-- When all packets have arrived, none is awaited but after the last. -/
theorem AwaitsPacket.eq_flatten {returned : Bytes} (hall : arrived.Perm (packets bodies))
    (h : AwaitsPacket bodies arrived returned) : returned = bodies.flatten := by
  obtain ⟨k, hk, hreturned, hmissing⟩ := h
  rcases Nat.eq_or_lt_of_le hk with hend | hlt
  · rw [hreturned, hend, List.take_length]
  · refine absurd (hall.mem_iff.mpr ?_) (hmissing _ (List.getElem?_eq_getElem hlt))
    apply List.mem_of_getElem? (i := k)
    rw [packets_getElem?, List.getElem?_eq_getElem hlt]
    rfl

/-- A packet joins those in the channel. -/
theorem Sequenced.arrive (h : Sequenced bodies arrived u) {pkt : UploadPacket}
    (hstep : u.step (.arrive pkt) = some u') : Sequenced bodies (arrived ++ [pkt]) u' := by
  obtain ⟨k, hk⟩ := h
  simp only [Upstream.step] at hstep
  split at hstep
  · cases hstep
  · rename_i hclosed
    cases hstep
    refine ⟨k, hk.packetsOnly, fun heof => absurd (hk.ended heof).2 hclosed, hk.next,
      hk.returned, hk.sorted, ?_⟩
    have hheld := hk.held.append_right [pkt]
    simpa only [List.append_assoc] using hheld

theorem Sequenced.hangUp (h : Sequenced bodies arrived u) (hstep : u.step .hangUp = some u') :
    Sequenced bodies arrived u' := by
  obtain ⟨k, hk⟩ := h
  cases hstep
  exact ⟨k, hk.packetsOnly, fun heof => ⟨(hk.ended heof).1, rfl⟩, hk.next, hk.returned,
    hk.sorted, hk.held⟩

variable (hlen : bodies.length ≤ 2 ^ 64) (hne : ∀ d ∈ bodies, d ≠ [])
include hlen hne

/-- A poll returns the next bytes, unless the packet they are in has not arrived. -/
theorem Sequenced.read (harrived : arrived.Subperm (packets bodies))
    (h : Sequenced bodies arrived u) (hn : 0 < n) :
    (∃ out s, u.stream.pollRead n = (.ready out, s) ∧ out ≠ [] ∧
      Sequenced bodies arrived ⟨s, u.returned ++ out⟩) ∨
    (∃ res s, u.stream.pollRead n = (res, s) ∧ (res = .pending ∨ res = .ready []) ∧
      Sequenced bodies arrived ⟨s, u.returned⟩ ∧ AwaitsPacket bodies arrived u.returned) := by
  obtain ⟨k, hk⟩ := h
  rcases hk.pollLoop hlen hne harrived hn rfl with ⟨out, s, k', hread, hout, hnext⟩ |
    ⟨res, s, hread, hres, hnext, hs, hqueue⟩
  · exact .inl ⟨out, s, hread, hout, k', hnext⟩
  · refine .inr ⟨res, s, hread, hres, ⟨k, hnext⟩, k, hnext.next.1, ?_, fun data hdata =>
      hnext.not_arrived hlen hs hqueue hdata⟩
    have hreturned := hnext.returned
    rwa [hs.1, List.append_nil] at hreturned

/-- A poll keeps the sequence and, once all has arrived, returns bytes until all is
returned. -/
theorem Sequenced.step_read (harrived : arrived.Subperm (packets bodies))
    (h : Sequenced bodies arrived u) (hn : 0 < n) :
    ∃ u', u.step (.read n) = some u' ∧ Sequenced bodies arrived u' ∧
      (arrived.Perm (packets bodies) →
        min bodies.flatten.length (u.returned.length + 1) ≤ u'.returned.length) := by
  rcases h.read hlen hne harrived hn with ⟨out, s, hread, hout, hnext⟩ |
    ⟨res, s, hread, hres, hnext, hawaits⟩
  · refine ⟨⟨s, u.returned ++ out⟩, by simp only [Upstream.step, hread], hnext, fun _ => ?_⟩
    have := List.length_pos_iff.mpr hout
    rw [List.length_append]
    omega
  · refine ⟨⟨s, u.returned⟩, ?_, hnext, fun hall => ?_⟩
    · rcases hres with rfl | rfl <;> simp [Upstream.step, hread]
    · rw [hawaits.eq_flatten hall]
      exact Nat.min_le_left _ _

/-- The sequence is kept by every run in which the packets arrive at most once each. -/
theorem Sequenced.run {es : List StreamEvent} {t : Upstream} (h : Sequenced bodies arrived u)
    (hreads : ∀ n, .read n ∈ es → 0 < n)
    (harrived : (arrived ++ arrivals es).Subperm (packets bodies))
    (hrun : Transition.run Upstream.step u es = some t) :
    Sequenced bodies (arrived ++ arrivals es) t := by
  refine arrivals_run (fun _ _ _ _ _ h hstep => h.arrive hstep) (fun _ _ _ h hstep => h.hangUp hstep)
    ?_ h hrun
  intro before v v' n hpre hmem h hstep
  obtain ⟨v'', hread, hnext, -⟩ :=
    h.step_read hlen hne (hpre.sublist.subperm.trans harrived) (hreads n hmem)
  rw [hstep] at hread
  cases hread
  exact hnext

end Run

/-- **Reordering.**  The packets of an upload arrive in any order, each at most once, in any
interleaving with polls of any positive sizes.  What was returned is a prefix of the
upload; a poll returns bytes when the packet with the next byte has arrived; and once
all packets have arrived, as many polls as the upload has bytes return all of it.
Sequence numbers have 64 bits, so there are at most `2 ^ 64` packets. -/
theorem returned_inSequence {bodies : List Bytes} (hlen : bodies.length ≤ 2 ^ 64)
    (hne : ∀ d ∈ bodies, d ≠ []) {es : List StreamEvent} {u : Upstream}
    (hreads : ∀ n, .read n ∈ es → 0 < n) (harrived : (arrivals es).Subperm (packets bodies))
    (hrun : run Upstream.step .init es = some u) :
    u.returned <+: bodies.flatten ∧
    (NextArrived bodies (arrivals es) u.returned.length → ∀ n, 0 < n →
      ∃ out s, u.stream.pollRead n = (.ready out, s) ∧ out ≠ []) ∧
    ((arrivals es).Perm (packets bodies) → ∀ ns : List Nat, (∀ n ∈ ns, 0 < n) →
      bodies.flatten.length ≤ ns.length →
      ∃ t, run Upstream.step u (ns.map .read) = some t ∧ t.returned = bodies.flatten) := by
  have hinit : Sequenced bodies [] .init := ⟨0, ordered_init bodies⟩
  have hu : Sequenced bodies (arrivals es) u :=
    hinit.run hlen hne hreads harrived hrun
  refine ⟨hu.elim fun _ h => h.isPrefix, fun hnext n hn => ?_, fun hall ns hns hcount => ?_⟩
  · rcases hu.read hlen hne harrived hn with ⟨out, s, hread, hout, -⟩ | ⟨_, _, -, -, -, hawaits⟩
    · exact ⟨out, s, hread, hout⟩
    · exact absurd hnext (hawaits.not_nextArrived hne)
  · have hpolls : Every Upstream.step (fun _ e => ∃ n, 0 < n ∧ e = .read n) u (ns.map .read) := by
      refine every_of_forall (fun _ e he => ?_) u
      obtain ⟨n, hn, rfl⟩ := List.mem_map.mp he
      exact ⟨n, hns n hn, rfl⟩
    obtain ⟨t, hrun', ht, hsize⟩ := exists_run_growing (Sequenced bodies (arrivals es))
      (fun u => u.returned.length) (fun _ => 1) bodies.flatten.length
      (fun hinv he => by
        obtain ⟨n, hn, rfl⟩ := he
        obtain ⟨u', hstep, hinv', hgrow⟩ := hinv.step_read hlen hne harrived hn
        exact ⟨u', hstep, hinv', hgrow hall⟩) hu hpolls
    refine ⟨t, hrun', (ht.elim fun _ h => h.isPrefix).eq_of_length_le ?_⟩
    have hgain : ((ns.map StreamEvent.read).map fun _ => 1).sum = ns.length := by
      rw [List.map_const', List.length_map, List.sum_replicate_nat, Nat.mul_one]
    omega

/-- The second of two packets comes first. -/
theorem returned_inSequence_swapped :
    ∃ t, run Upstream.step .init [.arrive (.packet 1 [105]), .read 7, .arrive (.packet 0 [104]),
      .read 7, .read 1] = some t ∧ t.returned = [104, 105] := by
  have harrived : (arrivals [.arrive (.packet 1 [105]), .read 7, .arrive (.packet 0 [104])]).Subperm
      (packets [[104], [105]]) := by decide
  obtain ⟨-, -, hall⟩ := returned_inSequence (by decide) (by decide) (by simp) harrived rfl
  exact hall (.swap _ _ _) [7, 1] (by decide) (by decide)

end Ruproxy.Xhttp
