/-
  Xhttp/ZeroRead.lean --- what a read of no bytes means.

  A reader takes a `Ready` without bytes for the end of the stream.  `poll_read` passes
  the body of a chunk or of the next packet on as it is, so an empty one looks like the
  end.  The theorem says for every sequence of items and every interleaving with polls
  that, as long as no such body is empty and no stale packet hides another, only the end
  of the stream does.
-/
import Ruproxy.Xhttp.Taken

set_option autoImplicit false

namespace Ruproxy.Xhttp

open Ruproxy.Foundation
open Ruproxy.Foundation.Transition

/-! ## The property -/

/-- The stream has ended, and nothing is left that the reader could return. -/
structure AtEnd (arrived : List UploadPacket) (s : XhttpStream) : Prop where
  ended : .eof ∈ arrived ∨ s.upRx.closed = true
  leftover : s.pktQueue.leftover = []
  streamBuf : s.streamBuf = []
  heap : ∀ e ∈ s.pktQueue.heap, e.seq ≠ s.pktQueue.nextSeq
  queue : s.upRx.queue = [] ∨ ∃ front, arrived = front ++ s.upRx.queue ∧ .eof ∈ front

/-- A poll with a buffer that is not empty returns no bytes at the end of the stream only. -/
def ZeroReadsEnd (arrived : List UploadPacket) (u : Upstream) : Prop :=
  ∀ n, 0 < n → (u.stream.pollRead n).1 = .ready [] → AtEnd arrived (u.stream.pollRead n).2

/-- The items before the first `Eof`. -/
def upToEof (items : List UploadPacket) : List UploadPacket :=
  items.takeWhile (· ≠ .eof)

/-- The number `k` comes in turn: those before it occur. -/
def InTurn (numbers : List UInt64) (k : UInt64) : Prop := ∀ j < k, j ∈ numbers

/-- No chunk is empty, and no packet that comes in turn; and no number before one that
comes in turn occurs twice. -/
structure Clean (items : List UploadPacket) : Prop where
  chunks : ∀ data, .chunk data ∈ items → data ≠ []
  bodies : ∀ e ∈ entries items, InTurn ((entries items).map PktEntry.seq) e.seq → e.data ≠ []
  once : ∀ m ∈ (entries items).map PktEntry.seq, InTurn ((entries items).map PktEntry.seq) m →
    ∀ k < m, ((entries items).map PktEntry.seq).count k ≤ 1

theorem Clean.of_prefix {items front : List UploadPacket} (h : Clean items)
    (hpre : front <+: items) : Clean front := by
  have hentries : (entries front).Sublist (entries items) := hpre.sublist.filterMap _
  have hnumbers := hentries.map PktEntry.seq
  have hturn : ∀ {k}, InTurn ((entries front).map PktEntry.seq) k →
      InTurn ((entries items).map PktEntry.seq) k :=
    fun hk j hj => hnumbers.subset (hk j hj)
  refine ⟨fun data hdata => h.chunks data (hpre.subset hdata), fun e he hk => ?_,
    fun m hm hk k hkm => ?_⟩
  · exact h.bodies e (hentries.subset he) (hturn hk)
  · exact (hnumbers.count_le k).trans (h.once m (hnumbers.subset hm) (hturn hk) k hkm)

theorem eof_not_mem_upToEof (items : List UploadPacket) : .eof ∉ upToEof items := by
  intro hmem
  rw [upToEof] at hmem
  have hne := List.mem_takeWhile_imp hmem
  simp at hne

theorem prefix_upToEof {items front : List UploadPacket} (hpre : front <+: items)
    (heof : .eof ∉ front) : front <+: upToEof items := by
  obtain ⟨rest, rfl⟩ := hpre
  have hall : ∀ pkt ∈ front, decide (pkt ≠ UploadPacket.eof) = true := by
    intro pkt hpkt
    rw [decide_eq_true_eq]
    rintro rfl
    exact heof hpkt
  rw [upToEof, List.takeWhile_append_of_pos hall]
  exact List.prefix_append _ _

/-! ## The invariant -/

/-- The items `drawn` were taken out of the channel; of their packets, `taken` were
popped. -/
structure Drawn (arrived drawn : List UploadPacket) (taken : List PktEntry)
    (s : XhttpStream) : Prop where
  packets : Taken (entries drawn) taken (s.dequeued [])
  noEof : .eof ∉ drawn
  flowing : s.eof = false → arrived = drawn ++ s.upRx.queue
  ended : s.eof = true → arrived = drawn ++ .eof :: s.upRx.queue ∨
    s.upRx.closed = true ∧ s.upRx.queue = []
  isPrefix : drawn <+: arrived

theorem drawn_init : Drawn [] [] [] (.new ⟨[], false⟩) where
  packets := taken_init
  noEof := List.not_mem_nil
  flowing _ := rfl
  ended heof := by cases heof
  isPrefix := List.nil_prefix

namespace Drawn

variable {arrived drawn : List UploadPacket} {taken : List PktEntry} {s : XhttpStream}

theorem push (h : Drawn arrived drawn taken s) (heof : s.eof = false) {seq : UInt64}
    {data : Bytes} {queue : List UploadPacket}
    (hqueue : s.upRx.queue = .packet seq data :: queue) :
    Drawn arrived (drawn ++ [.packet seq data]) taken { s.dequeued queue with pktQueue :=
      { s.pktQueue with heap := s.pktQueue.heap.push ⟨seq, data⟩ } } where
  packets := by
    have harrive := (h.packets.arrive (.packet seq data)).push rfl
    rw [entries, List.filterMap_append]
    exact harrive.congr rfl rfl rfl
  noEof hmem := by
    rcases List.mem_append.mp hmem with hmem | hmem
    · exact h.noEof hmem
    · cases List.mem_singleton.mp hmem
  flowing _ := by
    rw [h.flowing heof, hqueue, List.append_assoc]
    rfl
  ended heof' := by
    rw [show s.eof = true from heof'] at heof
    cases heof
  isPrefix := by
    rw [h.flowing heof, hqueue]
    exact ⟨queue, by simp⟩

theorem chunk (h : Drawn arrived drawn taken s) (heof : s.eof = false) {data rest : Bytes}
    {queue : List UploadPacket} (hqueue : s.upRx.queue = .chunk data :: queue) :
    Drawn arrived (drawn ++ [.chunk data]) taken
      { s.dequeued queue with streamBuf := rest } where
  packets := by
    rw [entries, List.filterMap_append]
    exact (h.packets.arrive (.chunk data)).congr rfl rfl rfl
  noEof hmem := by
    rcases List.mem_append.mp hmem with hmem | hmem
    · exact h.noEof hmem
    · cases List.mem_singleton.mp hmem
  flowing _ := by
    rw [h.flowing heof, hqueue, List.append_assoc]
    rfl
  ended heof' := by
    rw [show s.eof = true from heof'] at heof
    cases heof
  isPrefix := by
    rw [h.flowing heof, hqueue]
    exact ⟨queue, by simp⟩

/-- The reader took the `Eof`. -/
theorem takeEof (h : Drawn arrived drawn taken s) (heof : s.eof = false)
    {queue : List UploadPacket} (hqueue : s.upRx.queue = .eof :: queue) :
    Drawn arrived drawn taken { s.dequeued queue with eof := true } where
  packets := h.packets.congr rfl rfl rfl
  noEof := h.noEof
  flowing heof' := by cases heof'
  ended _ := .inl (hqueue ▸ h.flowing heof)
  isPrefix := h.isPrefix

/-- The reader found the channel closed. -/
theorem takeClosed (h : Drawn arrived drawn taken s) (hqueue : s.upRx.queue = [])
    (hclosed : s.upRx.closed = true) : Drawn arrived drawn taken { s with eof := true } where
  packets := h.packets.congr rfl rfl rfl
  noEof := h.noEof
  flowing heof' := by cases heof'
  ended _ := .inr ⟨hclosed, hqueue⟩
  isPrefix := h.isPrefix

/-- The popped packets have the numbers before the next one. -/
theorem inTurn_next (h : Drawn arrived drawn taken s) :
    InTurn ((entries drawn).map PktEntry.seq) s.pktQueue.nextSeq := fun _ hj =>
  (h.packets.held.map PktEntry.seq).subset
    (List.map_append ▸ List.mem_append_left _ (h.packets.mem_of_lt_next hj))

theorem mem_entries (h : Drawn arrived drawn taken s) {e : PktEntry}
    (he : e ∈ s.pktQueue.heap) : e ∈ entries drawn :=
  h.packets.held.subset (List.mem_append_right _ (List.mem_append_left _ he))

/-- When the entry on top is not the next one, no entry is. -/
theorem next_not_hidden (h : Drawn arrived drawn taken s) (hclean : Clean drawn)
    (htop : ∀ top ∈ s.pktQueue.heap.head?, top.seq ≠ s.pktQueue.nextSeq) :
    ∀ e ∈ s.pktQueue.heap, e.seq ≠ s.pktQueue.nextSeq := by
  intro e he hseq
  obtain ⟨top, hmem, hle⟩ := exists_top_le h.packets.sorted he
  have hlt : top.seq < s.pktQueue.nextSeq :=
    UInt64.lt_of_le_of_ne (hseq ▸ hle) (htop top hmem)
  have hcount := hclean.once s.pktQueue.nextSeq
    (hseq ▸ List.mem_map_of_mem (h.mem_entries he)) h.inTurn_next top.seq hlt
  have htaken := List.count_pos_iff.mpr (h.packets.mem_of_lt_next hlt)
  have hheap : 0 < (s.pktQueue.heap.map PktEntry.seq).count top.seq :=
    List.count_pos_iff.mpr (List.mem_map_of_mem (List.mem_of_mem_head? hmem))
  have hheld := (h.packets.held.map PktEntry.seq).count_eq top.seq
  rw [List.map_append, List.map_append, List.count_append, List.count_append] at hheld
  dsimp only [XhttpStream.dequeued] at hheld
  omega

/-- At the end of the stream. -/
theorem atEnd (h : Drawn arrived drawn taken s) (hclean : Clean drawn) (heof : s.eof = true)
    (hleft : s.pktQueue.leftover = []) (hbuf : s.streamBuf = [])
    (htop : ∀ top ∈ s.pktQueue.heap.head?, top.seq ≠ s.pktQueue.nextSeq) :
    AtEnd arrived s where
  ended := by
    rcases h.ended heof with harrived | ⟨hclosed, -⟩
    · rw [harrived]
      exact .inl (by simp)
    · exact .inr hclosed
  leftover := hleft
  streamBuf := hbuf
  heap := h.next_not_hidden hclean htop
  queue := by
    rcases h.ended heof with harrived | ⟨-, hqueue⟩
    · exact .inr ⟨drawn ++ [.eof], by simp [harrived], by simp⟩
    · exact .inl hqueue

/-! ### One poll -/

/-- What a poll leaves behind: the account, and where it returned no bytes, the end. -/
def Answered (arrived : List UploadPacket) (n : Nat) (r : PollRead) (s : XhttpStream) : Prop :=
  (∃ drawn taken, Drawn arrived drawn taken s) ∧ (0 < n → r = .ready [] → AtEnd arrived s)

theorem take_ne_nil {n : Nat} (hn : 0 < n) {data : Bytes} (hdata : data ≠ []) :
    PollRead.ready (data.take n) ≠ .ready [] := by
  intro h
  rcases List.take_eq_nil_iff.mp (PollRead.ready.inj h) with h | h
  · omega
  · exact hdata h

theorem turn (h : Drawn arrived drawn taken s) (hclean : Clean drawn) {n : Nat}
    {r : PollRead} {s' : XhttpStream} (hread : s.readBuffered n = some (r, s')) :
    Answered arrived n r s' := by
  have hturn := s.turn_readBuffered n
  rw [hread] at hturn
  cases hturn with
  | leftover hleft =>
    refine ⟨⟨drawn, taken, h.packets.congr rfl rfl rfl, h.noEof, h.flowing, h.ended, h.isPrefix⟩,
      fun hn hnil => ?_⟩
    exact absurd hnil (take_ne_nil hn hleft)
  | streamBuf hleft hbuf =>
    refine ⟨⟨drawn, taken, h.packets.congr rfl rfl rfl, h.noEof, h.flowing, h.ended, h.isPrefix⟩,
      fun hn hnil => ?_⟩
    exact absurd hnil (take_ne_nil hn hbuf)
  | pop hleft hbuf top heap hheap hseq =>
    refine ⟨⟨drawn, taken ++ [top], (h.packets.pop hheap hseq _).congr rfl rfl rfl, h.noEof,
      h.flowing, h.ended, h.isPrefix⟩, fun hn hnil => ?_⟩
    have hbody := hclean.bodies top (h.mem_entries (hheap ▸ List.mem_cons_self))
      (hseq ▸ h.inTurn_next)
    exact absurd hnil (take_ne_nil hn hbody)
  | ended hleft hbuf htop heof =>
    exact ⟨⟨drawn, taken, h⟩, fun _ _ => h.atEnd hclean heof hleft hbuf htop⟩

/-- **One poll.**  It keeps the account and returns no bytes at the end only. -/
theorem pollRead (h : Drawn arrived drawn taken s) (hclean : Clean (upToEof arrived))
    (n : Nat) : Answered arrived n (s.pollRead n).1 (s.pollRead n).2 := by
  have hdrawn : ∀ {drawn taken s}, Drawn arrived drawn taken s → Clean drawn :=
    fun hd => hclean.of_prefix (prefix_upToEof hd.isPrefix hd.noEof)
  have hnone : ∀ {s : XhttpStream}, s.readBuffered n = none →
      s.pktQueue.leftover = [] ∧ s.streamBuf = [] ∧
        (∀ top ∈ s.pktQueue.heap.head?, top.seq ≠ s.pktQueue.nextSeq) ∧ s.eof = false := by
    intro s hread
    have hturn := s.turn_readBuffered n
    rw [hread] at hturn
    cases hturn with
    | goesOn hleft hbuf htop heof => exact ⟨hleft, hbuf, htop, heof⟩
  refine @XhttpStream.pollRead_rule n (fun s => ∃ drawn taken, Drawn arrived drawn taken s)
    (Answered arrived n) ?_ ?_ ?_ ?_ ?_ ?_ s ⟨drawn, taken, h⟩
  · rintro s r s' ⟨drawn, taken, hs⟩ hread
    exact hs.turn (hdrawn hs) hread
  · rintro s seq data queue ⟨drawn, taken, hs⟩ hread hqueue
    exact ⟨_, taken, hs.push (hnone hread).2.2.2 hqueue⟩
  · rintro s data queue ⟨drawn, taken, hs⟩ hread hqueue
    have hs' : Drawn arrived (drawn ++ [.chunk data]) taken
        { s.dequeued queue with streamBuf := s.streamBuf ++ data.drop n } :=
      hs.chunk (hnone hread).2.2.2 hqueue
    refine ⟨⟨_, taken, hs'⟩, fun hn hnil => ?_⟩
    have hbody := (hdrawn hs').chunks data (by simp)
    exact absurd hnil (take_ne_nil hn hbody)
  · rintro s queue ⟨drawn, taken, hs⟩ hread hqueue
    obtain ⟨hleft, hbuf, htop, heof⟩ := hnone hread
    have hs' := hs.takeEof heof hqueue
    exact ⟨⟨drawn, taken, hs'⟩, fun _ _ => hs'.atEnd (hdrawn hs') rfl hleft hbuf htop⟩
  · rintro s ⟨drawn, taken, hs⟩ hread hqueue hclosed
    obtain ⟨hleft, hbuf, htop, -⟩ := hnone hread
    have hs' := hs.takeClosed hqueue hclosed
    exact ⟨⟨drawn, taken, hs'⟩, fun _ _ => hs'.atEnd (hdrawn hs') rfl hleft hbuf htop⟩
  · rintro s ⟨drawn, taken, hs⟩ _ _
    exact ⟨⟨drawn, taken, hs⟩, fun _ h => by cases h⟩

end Drawn

/-! ## Every run -/

section Run

variable {arrived : List UploadPacket} {u u' : Upstream}

/-- What arrived so far is accounted for. -/
def Accounted (arrived : List UploadPacket) (u : Upstream) : Prop :=
  ∃ drawn taken, Drawn arrived drawn taken u.stream

theorem Accounted.arrive (h : Accounted arrived u) {pkt : UploadPacket}
    (hstep : u.step (.arrive pkt) = some u') : Accounted (arrived ++ [pkt]) u' := by
  obtain ⟨drawn, taken, h⟩ := h
  simp only [Upstream.step] at hstep
  split at hstep
  · cases hstep
  · rename_i hopen
    cases hstep
    refine ⟨drawn, taken, h.packets, h.noEof, fun heof => ?_, fun heof => ?_, ?_⟩
    · rw [h.flowing heof, List.append_assoc]
    · rcases h.ended heof with harrived | ⟨hclosed, -⟩
      · left
        rw [harrived, List.append_assoc]
        rfl
      · exact absurd hclosed hopen
    · exact h.isPrefix.trans (List.prefix_append _ _)

theorem Accounted.hangUp (h : Accounted arrived u) (hstep : u.step .hangUp = some u') :
    Accounted arrived u' := by
  obtain ⟨drawn, taken, h⟩ := h
  cases hstep
  refine ⟨drawn, taken, h.packets.congr rfl rfl rfl, h.noEof, h.flowing, fun heof => ?_,
    h.isPrefix⟩
  rcases h.ended heof with harrived | ⟨-, hqueue⟩
  · exact .inl harrived
  · exact .inr ⟨rfl, hqueue⟩

theorem Accounted.read (h : Accounted arrived u) (hclean : Clean (upToEof arrived)) {n : Nat}
    (hstep : u.step (.read n) = some u') : Accounted arrived u' := by
  obtain ⟨drawn, taken, h⟩ := h
  have hread := (h.pollRead hclean n).1
  simp only [Upstream.step] at hstep
  split at hstep
  all_goals
    rename_i hpoll
    cases hstep
    rw [hpoll] at hread
    exact hread

/-- **A run.**  It keeps the account. -/
theorem Accounted.after_run {es : List StreamEvent} {t : Upstream} (h : Accounted arrived u)
    (hclean : Clean (upToEof (arrived ++ arrivals es)))
    (hrun : run Upstream.step u es = some t) : Accounted (arrived ++ arrivals es) t := by
  refine arrivals_run (fun _ _ _ _ _ h hstep => h.arrive hstep) (fun _ _ _ h hstep => h.hangUp hstep)
    ?_ h hrun
  intro before v v' n hpre _ h hstep
  have hearly : upToEof before <+: upToEof (arrived ++ arrivals es) :=
    prefix_upToEof ((List.takeWhile_prefix _).trans hpre) (eof_not_mem_upToEof before)
  exact h.read (hclean.of_prefix hearly) hstep

end Run

/-- **Zero-length reads.**  For every sequence of items that is clean up to its first `Eof`,
and in every state of every run in which items of the sequence have arrived, a poll with a
buffer that is not empty returns no bytes at the end of the stream only. -/
theorem zeroReadsEnd_of_clean {items : List UploadPacket} (hclean : Clean (upToEof items))
    {es : List StreamEvent} {u : Upstream} (harrived : arrivals es <+: items)
    (hrun : run Upstream.step .init es = some u) : ZeroReadsEnd (arrivals es) u := by
  have hearly : upToEof (arrivals es) <+: upToEof items := prefix_upToEof
    ((List.takeWhile_prefix _).trans harrived) (eof_not_mem_upToEof (arrivals es))
  have hinit : Accounted [] .init := ⟨[], [], drawn_init⟩
  obtain ⟨drawn, taken, h⟩ := hinit.after_run (hclean.of_prefix hearly) hrun
  exact fun n hn hread => (h.pollRead (hclean.of_prefix hearly) n).2 hn hread

/-! ## Instances -/

/-- A chunk, a packet and the end of the stream. -/
def cleanItems : List UploadPacket := [.chunk [104], .packet 0 [105], .eof]

theorem clean_cleanItems : Clean (upToEof cleanItems) := by
  have hitems : upToEof cleanItems = [.chunk [104], .packet 0 [105]] := rfl
  rw [hitems]
  refine ⟨?_, ?_, ?_⟩
  · intro data hdata
    obtain rfl : data = [104] := by simpa using hdata
    exact List.cons_ne_nil _ _
  · intro e he _
    obtain rfl := List.mem_singleton.mp he
    exact List.cons_ne_nil _ _
  · intro m hm _ k hk
    obtain rfl := List.mem_singleton.mp hm
    exact absurd hk UInt64.not_lt_zero

/-- After both were read, a third poll returns no bytes at the end. -/
theorem zeroReadsEnd_of_clean_cleanItems :
    ∃ u, run Upstream.step .init (cleanItems.map .arrive ++ [.read 7, .read 7]) = some u ∧
      (u.stream.pollRead 7).1 = .ready [] ∧ AtEnd cleanItems (u.stream.pollRead 7).2 := by
  obtain ⟨u, hrun⟩ : ∃ u, run Upstream.step .init
      (cleanItems.map .arrive ++ [.read 7, .read 7]) = some u := ⟨_, rfl⟩
  have hread : (run Upstream.step .init (cleanItems.map .arrive ++ [.read 7, .read 7])).map
      (fun u => (u.stream.pollRead 7).1) = some (.ready []) := by decide
  rw [hrun] at hread
  have hread := Option.some.inj hread
  exact ⟨u, hrun, hread,
    zeroReadsEnd_of_clean clean_cleanItems List.prefix_rfl hrun 7 (by decide) hread⟩

/-- An empty chunk looks like the end of the stream. -/
theorem not_zeroReadsEnd_emptyChunk :
    ¬ ∀ (items : List UploadPacket) (es : List StreamEvent) (u : Upstream),
      arrivals es <+: items → run Upstream.step .init es = some u →
      ZeroReadsEnd (arrivals es) u := by
  intro hall
  have hend := hall [.chunk []] [.arrive (.chunk [])] _ List.prefix_rfl rfl 1 Nat.one_pos rfl
  rcases hend.ended with hmem | hclosed
  · exact absurd hmem (by decide)
  · exact absurd hclosed (by decide)

end Ruproxy.Xhttp
