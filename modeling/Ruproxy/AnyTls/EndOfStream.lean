/-
  AnyTls/EndOfStream.lean --- what it means when `StreamConn::read` returns 0.

  The end of a stream is an empty chunk in the channel of its data, and a PSH frame
  without data is an empty chunk as well.  The reader stops at either, so a `read` of 0
  bytes tells the end of the stream exactly as long as no such frame is passed on.

  `given` and `endMark` are not in the source: what the `read`s of a stream returned, and
  which of the chunks sent into its channel was sent for a FIN frame or for the end of the
  session.
-/
import Ruproxy.AnyTls.Reads
import Ruproxy.AnyTls.Senders

set_option autoImplicit false

namespace Ruproxy.AnyTls

open Ruproxy.Foundation Ruproxy.Foundation.Transition

/-! ## A session and the readers of its streams -/

/-- A session with the `StreamConn`s of its streams. -/
structure Readers where
  session : Session
  /-- the `buf` of a `StreamConn` -/
  buf : Nat → Bytes
  given : Nat → Bytes
  endMark : Nat → Option Nat

/-- What happens next: a step of the session, in which no chunk is received, or a `read`. -/
inductive ReadersEvent where
  | session (e : SessionEvent)
  | read (stream len : Nat)

namespace Readers

/-- The start of the session. -/
def init (padding : PaddingScheme) (input : Bytes) : Readers where
  session := Session.init padding input
  buf _ := []
  given _ := []
  endMark _ := none

/-- The `StreamConn` at the other end of a channel. -/
def conn (t : Readers) (stream : Nat) (ch : Channel) : StreamConn where
  rx := ch.queue
  rxOpen := decide (stream ∈ t.session.senders)
  buf := t.buf stream

/-- A `tx.send` that is enabled sends the end mark of the stream, if it has a receiver. -/
def mark (t : Readers) : Nat → Option Nat :=
  match t.session.loop.ending with
  | none => t.endMark
  | some stream =>
      match t.session.channels stream with
      | none => t.endMark
      | some ch =>
          if ch.droppedAt.isSome then t.endMark
          else Function.update t.endMark stream (some ch.sent.length)

/-- One step; `none` where the event cannot happen. -/
def step (t : Readers) : ReadersEvent → Option Readers
  -- a chunk is received in `read`
  | .session (.recv _) => none
  | .session .send =>
      (t.session.step .send).map fun s => { t with session := s, endMark := t.mark }
  | .session e => (t.session.step e).map fun s => { t with session := s }
  | .read stream len =>
      match t.session.channels stream with
      | none => none
      | some ch =>
          if ch.droppedAt.isSome then none
          else
            ((t.conn stream ch).read len).map fun r =>
              let ch := { ch with queue := r.2.rx }
              { t with
                session := { t.session with
                  channels := Function.update t.session.channels stream (some ch) }
                buf := Function.update t.buf stream r.2.buf
                given := Function.update t.given stream (t.given stream ++ r.1) }

/-! ## The property -/

/-- The next chunk is the end mark, or there is none and the sender is gone. -/
def AtEnd (t : Readers) (stream : Nat) (ch : Channel) (c : StreamConn) : Prop :=
  (c.rx ≠ [] ∧ t.endMark stream = some (ch.sent.length - c.rx.length)) ∨
    (c.rx = [] ∧ stream ∉ t.session.senders)

/-- Whenever a `read` of a stream, after any others, returns 0, it is at the end of the
stream, and the `read`s have returned all that was sent. -/
def ZeroAtEnd (t : Readers) : Prop :=
  ∀ stream ch, t.session.channels stream = some ch → ch.droppedAt = none →
    ∀ lens outs c len c', (t.conn stream ch).reads lens = some (outs, c) → 0 < len →
      c.read len = some ([], c') →
        t.AtEnd stream ch c ∧ t.given stream ++ outs.flatten = ch.sent.flatten

/-- The loop does not pass a PSH frame without data on to a stream that is there. -/
def PushesData (t : Readers) : ReadersEvent → Prop
  | .session .send =>
      match t.session.loop with
      | .pushing stream f =>
          (∃ ch, t.session.channels stream = some ch ∧ ch.droppedAt = none) → f.data ≠ []
      | _ => True
  | _ => True

/-! ## What a step does to the channels -/

/-- What a step does to the channels of the streams and to their readers. -/
inductive Does (t : Readers) : ReadersEvent → Readers → Prop where
  | skips {e : ReadersEvent} {s : Session} (hok : t.PushesData e)
      (hchannels : s.channels = t.session.channels)
      (hsub : s.senders.Subperm t.session.senders) : Does t e { t with session := s }
  | opens {e : ReadersEvent} {stream : Nat} {s : Session} (hok : t.PushesData e)
      (hnone : t.session.channels stream = none)
      (hchannels : s.channels =
        Function.update t.session.channels stream (some ⟨[], [], none⟩))
      (hsub : s.senders.Subperm (stream :: t.session.senders)) :
      Does t e { t with session := s }
  | pushes {e : ReadersEvent} {stream : Nat} {ch : Channel} {data : Bytes} {s : Session}
      (hok : t.PushesData e ↔ data ≠ []) (hch : t.session.channels stream = some ch)
      (hthere : ch.droppedAt = none) (hsender : stream ∈ t.session.senders)
      (hchannels : s.channels = Function.update t.session.channels stream
        (some { ch with queue := ch.queue ++ [data], sent := ch.sent ++ [data] }))
      (hsub : s.senders.Subperm t.session.senders) : Does t e { t with session := s }
  | ends {e : ReadersEvent} {stream : Nat} {ch : Channel} {s : Session}
      (hok : t.PushesData e) (hch : t.session.channels stream = some ch)
      (hthere : ch.droppedAt = none) (hsender : stream ∈ t.session.senders)
      (hchannels : s.channels = Function.update t.session.channels stream
        (some { ch with queue := ch.queue ++ [[]], sent := ch.sent ++ [[]] }))
      (hsub : s.senders.Subperm t.session.senders) (hgone : stream ∉ s.senders) :
      Does t e { t with
        session := s, endMark := Function.update t.endMark stream (some ch.sent.length) }
  | drops {e : ReadersEvent} {stream n : Nat} {ch : Channel} {s : Session}
      (hok : t.PushesData e) (hch : t.session.channels stream = some ch)
      (hchannels : s.channels = Function.update t.session.channels stream
        (some { ch with queue := [], droppedAt := some n }))
      (hsub : s.senders.Subperm t.session.senders) : Does t e { t with session := s }
  | reads {stream len : Nat} {ch : Channel} {out : Bytes} {c : StreamConn}
      (hch : t.session.channels stream = some ch) (hthere : ch.droppedAt = none)
      (hread : (t.conn stream ch).read len = some (out, c)) :
      Does t (.read stream len) { t with
        session := { t.session with
          channels := Function.update t.session.channels stream
            (some { ch with queue := c.rx }) }
        buf := Function.update t.buf stream c.buf
        given := Function.update t.given stream (t.given stream ++ out) }

/-- Only the `tx.send` for a PSH frame passes one on. -/
theorem pushesData_of_ne {t : Readers} {e : ReadersEvent}
    (h : ∀ stream f, e = .session .send → t.session.loop ≠ .pushing stream f) :
    t.PushesData e := by
  unfold PushesData
  split
  · split
    · rename_i hloop
      exact absurd hloop (h _ _ rfl)
    · trivial
  · trivial

/-- The `tx.send` of an end mark, and the loop goes on without the sender. -/
theorem does_of_ending {t : Readers} {stream : Nat} {ok : Bool} {s s' : Session}
    (hsender : OneSender t.session) (hending : t.session.loop.ending = some stream)
    (hsend : t.session.trySend stream [] = some (ok, s)) (hchannels : s'.channels = s.channels)
    (hperm : (stream :: s'.senders).Perm t.session.senders) :
    t.Does (.session .send) { t with session := s', endMark := t.mark } := by
  have hok : t.PushesData (.session .send) := by
    apply pushesData_of_ne
    intro p f _ hloop
    rw [hloop] at hending
    cases hending
  have hsub : s'.senders.Subperm t.session.senders :=
    (List.Subperm.cons_right stream (List.Subperm.refl _)).trans hperm.subperm
  obtain ⟨ch, hch, ⟨-, hgone, rfl⟩ | ⟨-, hthere, rfl⟩⟩ := Session.trySend_cases hsend
  · have hmark : t.mark = t.endMark := by
      simp [mark, hending, hch, Option.isSome_iff_ne_none.mpr hgone]
    rw [hmark]
    exact .skips hok hchannels hsub
  · have hmark : t.mark = Function.update t.endMark stream (some ch.sent.length) := by
      simp [mark, hending, hch, hthere]
    rw [hmark]
    refine .ends hok hch hthere (hperm.subset List.mem_cons_self) hchannels hsub ?_
    exact (List.nodup_cons.mp (hperm.nodup_iff.mpr hsender.nodup)).1

/-- The `tx.send`s of the loop. -/
theorem does_of_send {t : Readers} {s : Session} (hsession : SessionInv t.session)
    (hsender : OneSender t.session) (h : t.session.step .send = some s) :
    t.Does (.session .send) { t with session := s, endMark := t.mark } := by
  simp only [Session.step] at h
  split at h
  · rename_i stream f hloop
    obtain ⟨-, hlookup⟩ := hsession.pushing hloop
    have hmem := Session.mem_senders_of_lookup hlookup
    have hmark : t.mark = t.endMark := by simp [mark, hloop, ReadLoop.ending]
    rw [hmark]
    split at h
    · rename_i s' hsend
      cases h
      obtain ⟨ch, hch, ⟨hok, -⟩ | ⟨-, hthere, rfl⟩⟩ := Session.trySend_cases hsend
      · cases hok
      · refine .pushes ?_ hch hthere hmem rfl ?_
        · simp [PushesData, hloop, hch, hthere]
        · simp [Session.senders, ReadLoop.senders, hloop, List.Subperm.refl]
    · rename_i s' hsend
      cases h
      obtain ⟨ch, hch, ⟨-, hgone, rfl⟩ | ⟨hok, -⟩⟩ := Session.trySend_cases hsend
      · refine .skips ?_ rfl ?_
        · simp [PushesData, hloop, hch, hgone]
        · simpa [Session.senders, ReadLoop.senders, hloop]
            using (Session.senders_erase_sublist _ f.streamId).subperm
      · cases hok
    · cases h
  · rename_i stream f hloop
    obtain ⟨⟨ok, s'⟩, hsend, rfl⟩ := Option.map_eq_some_iff.mp h
    refine does_of_ending hsender (by rw [hloop]; rfl) hsend rfl ?_
    have hstreams : s'.streams = t.session.streams := by
      obtain ⟨ch, -, ⟨-, -, rfl⟩ | ⟨-, -, rfl⟩⟩ := Session.trySend_cases hsend <;> rfl
    simp only [Session.senders, Session.next_streams, Session.next_loop, ReadLoop.senders, hloop,
      hstreams, List.append_nil]
    exact (List.perm_append_singleton _ _).symm
  · rename_i stream rest hloop
    obtain ⟨⟨ok, s'⟩, hsend, rfl⟩ := Option.map_eq_some_iff.mp h
    refine does_of_ending hsender (by rw [hloop]; rfl) hsend rfl ?_
    have hstreams : s'.streams = t.session.streams := by
      obtain ⟨ch, -, ⟨-, -, rfl⟩ | ⟨-, -, rfl⟩⟩ := Session.trySend_cases hsend <;> rfl
    simp only [Session.senders, ReadLoop.senders, hloop, hstreams]
    exact List.perm_middle.symm
  · cases h

/-- Every step is one of these. -/
theorem does_of_step {t t' : Readers} {e : ReadersEvent} (hsession : SessionInv t.session)
    (hsender : OneSender t.session) (h : t.step e = some t') : t.Does e t' := by
  cases e with
  | read stream len =>
    simp only [step] at h
    split at h
    · cases h
    · rename_i ch hch
      split at h
      · cases h
      · rename_i hthere
        obtain ⟨⟨out, c⟩, hread, rfl⟩ := Option.map_eq_some_iff.mp h
        exact .reads hch (Option.not_isSome_iff_eq_none.mp hthere) hread
  | session e =>
    -- at the end of its input the loop keeps the senders
    have hclose : ∀ {s : Session}, s.loop = .reading →
        s.close.senders.Subperm s.senders := by
      intro s hloop
      simp [Session.senders, Session.close, ReadLoop.senders, hloop, List.Subperm.refl]
    cases e with
    | recv stream => cases h
    | send =>
      obtain ⟨s, hstep, rfl⟩ := Option.map_eq_some_iff.mp h
      exact does_of_send hsession hsender hstep
    | read =>
      obtain ⟨s, hstep, rfl⟩ := Option.map_eq_some_iff.mp h
      have hok := pushesData_of_ne (t := t) (e := .session .read) (by simp)
      simp only [Session.step] at hstep
      split at hstep
      · rename_i hloop
        split at hstep
        · rename_i f input hread
          cases hstep
          rcases Session.dispatch_senders (s := { t.session with input := input }) f hloop with
            ⟨hchannels, hsub⟩ | ⟨hchannels, hsub⟩
          · exact .skips hok hchannels hsub
          · exact .opens hok hsession.channels_length hchannels hsub
        · cases hstep
          exact .skips hok rfl (hclose hloop)
      · cases hstep
    | readError =>
      obtain ⟨s, hstep, rfl⟩ := Option.map_eq_some_iff.mp h
      have hok := pushesData_of_ne (t := t) (e := .session .readError) (by simp)
      simp only [Session.step] at hstep
      split at hstep
      · rename_i hloop
        cases hstep
        exact .skips hok rfl (hclose hloop)
      · cases hstep
    | drop stream =>
      obtain ⟨s, hstep, rfl⟩ := Option.map_eq_some_iff.mp h
      have hok := pushesData_of_ne (t := t) (e := .session (.drop stream)) (by simp)
      simp only [Session.step] at hstep
      split at hstep
      · rename_i ch hch
        split at hstep
        · cases hstep
        · cases hstep
          exact .drops hok hch rfl (List.Subperm.refl _)
      · cases hstep
    | writerBreaks =>
      cases h
      exact .skips (pushesData_of_ne (by simp)) rfl (List.Subperm.refl _)

/-! ## The invariant -/

/-- A channel with its receiver: what was returned, what is in `buf` and what is queued
is what was sent, and an end mark is the last chunk that its sender sent. -/
structure Accounted (ch : Channel) (buf given : Bytes) (endMark : Option Nat) (sender : Prop) :
    Prop where
  account : ch.droppedAt = none → given ++ (buf ++ ch.queue.flatten) = ch.sent.flatten
  suffix : ch.droppedAt = none → ch.queue <:+ ch.sent
  marked : ∀ {i}, endMark = some i → ¬ sender ∧ ch.sent.length = i + 1

namespace Accounted

variable {ch : Channel} {buf given : Bytes} {endMark : Option Nat} {sender sender' : Prop}

theorem new (sender : Prop) : Accounted ⟨[], [], none⟩ [] [] none sender where
  account _ := rfl
  suffix _ := List.suffix_rfl
  marked h := by cases h

theorem weaken (h : Accounted ch buf given endMark sender) (hsender : sender' → sender) :
    Accounted ch buf given endMark sender' where
  account := h.account
  suffix := h.suffix
  marked hi := ⟨fun hin => (h.marked hi).1 (hsender hin), (h.marked hi).2⟩

/-- As long as there is a sender there is no end mark. -/
theorem endMark_eq_none (h : Accounted ch buf given endMark sender) (hsender : sender) :
    endMark = none := by
  rw [Option.eq_none_iff_forall_ne_some]
  intro i hi
  exact (h.marked hi).1 hsender

theorem push (h : Accounted ch buf given endMark sender) (hthere : ch.droppedAt = none)
    (data : Bytes) :
    Accounted { ch with queue := ch.queue ++ [data], sent := ch.sent ++ [data] } buf given
      none sender where
  account _ := by
    rw [List.flatten_append, List.flatten_append, ← h.account hthere]
    simp only [List.append_assoc]
  suffix _ := by
    obtain ⟨front, hfront⟩ := h.suffix hthere
    exact ⟨front, by rw [← List.append_assoc, hfront]⟩
  marked hi := by cases hi

theorem markEnd (h : Accounted ch buf given endMark sender) (hthere : ch.droppedAt = none)
    (hgone : ¬ sender') :
    Accounted { ch with queue := ch.queue ++ [[]], sent := ch.sent ++ [[]] } buf given
      (some ch.sent.length) sender' where
  account := (h.push hthere []).account
  suffix := (h.push hthere []).suffix
  marked hi := by
    cases hi
    exact ⟨hgone, by simp⟩

theorem drop (h : Accounted ch buf given endMark sender) (n : Nat) :
    Accounted { ch with queue := [], droppedAt := some n } buf given endMark sender where
  account hthere := by cases hthere
  suffix hthere := by cases hthere
  marked := h.marked

theorem read (h : Accounted ch buf given endMark sender) (hthere : ch.droppedAt = none)
    {rxOpen : Bool} {len : Nat} {out : Bytes} {c : StreamConn}
    (hread : StreamConn.read ⟨ch.queue, rxOpen, buf⟩ len = some (out, c)) :
    Accounted { ch with queue := c.rx } c.buf (given ++ out) endMark sender where
  account _ := by
    obtain ⟨hheld, -, -⟩ := StreamConn.read_takes hread
    rw [List.append_assoc, ← h.account hthere]
    exact congrArg (given ++ ·) hheld
  suffix _ := (StreamConn.read_takes hread).2.1.trans (h.suffix hthere)
  marked := h.marked

/-- The end mark is the last chunk. -/
theorem eq_nil_of_mark (h : Accounted ch buf given endMark sender) (hthere : ch.droppedAt = none)
    {front rest : List Bytes} (hqueue : ch.queue = front ++ [] :: rest)
    (hmark : endMark = some (ch.sent.length - (rest.length + 1))) : rest = [] := by
  have hlen : ch.queue.length = front.length + (rest.length + 1) := by
    rw [hqueue, List.length_append, List.length_cons]
  have hle := (h.suffix hthere).length_le
  have hlast := (h.marked hmark).2
  exact List.length_eq_zero_iff.mp (by omega)

end Accounted

/-- The session keeps its invariant, and all channels are accounted for. -/
structure Inv (t : Readers) : Prop where
  session : SessionInv t.session
  sender : OneSender t.session
  fresh : ∀ {stream}, t.session.channels stream = none →
    t.buf stream = [] ∧ t.given stream = [] ∧ t.endMark stream = none
  accounted : ∀ {stream ch}, t.session.channels stream = some ch →
    Accounted ch (t.buf stream) (t.given stream) (t.endMark stream)
      (stream ∈ t.session.senders)

theorem inv_init (padding : PaddingScheme) (input : Bytes) : (init padding input).Inv where
  session := sessionInv_init padding input
  sender := oneSender_init padding input
  fresh _ := ⟨rfl, rfl, rfl⟩
  accounted h := by cases h

/-- The channel that a step changes, and the others. -/
theorem update_some_cases {channels : Nat → Option Channel} {p q : Nat} {ch c : Channel}
    (h : Function.update channels p (some ch) q = some c) :
    (q = p ∧ c = ch) ∨ (q ≠ p ∧ channels q = some c) := by
  rcases eq_or_ne q p with rfl | hne
  · rw [Function.update_self] at h
    exact .inl ⟨rfl, (Option.some.inj h).symm⟩
  · rw [Function.update_of_ne hne] at h
    exact .inr ⟨hne, h⟩

theorem ne_of_update_eq_none {channels : Nat → Option Channel} {p q : Nat} {ch : Channel}
    (h : Function.update channels p (some ch) q = none) : q ≠ p ∧ channels q = none := by
  rcases eq_or_ne q p with rfl | hne
  · rw [Function.update_self] at h
    cases h
  · rw [Function.update_of_ne hne] at h
    exact ⟨hne, h⟩

theorem isSome_update {channels : Nat → Option Channel} (p : Nat) (ch : Channel) {q : Nat}
    (h : (channels q).isSome) : (Function.update channels p (some ch) q).isSome := by
  rcases eq_or_ne q p with rfl | hne
  · simp
  · simpa [hne] using h

theorem inv_of_does {t t' : Readers} {e : ReadersEvent} (h : t.Inv)
    (hsession : SessionInv t'.session) (hd : t.Does e t') : t'.Inv := by
  cases hd with
  | skips hok hchannels hsub =>
    refine ⟨hsession, h.sender.of_subperm hsub fun hs => hchannels ▸ hs, ?_, ?_⟩
    · exact fun hs => h.fresh (hchannels ▸ hs)
    · exact fun hs => (h.accounted (hchannels ▸ hs)).weaken (hsub.subset ·)
  | opens hok hnone hchannels hsub =>
    refine ⟨hsession, h.sender.of_subperm_cons hnone hsub ?_ ?_, fun hs => ?_, fun hs => ?_⟩
    · simp [hchannels]
    · exact fun hs => hchannels ▸ isSome_update _ _ hs
    · rw [hchannels] at hs
      exact h.fresh (ne_of_update_eq_none hs).2
    · rw [hchannels] at hs
      rcases update_some_cases hs with ⟨rfl, rfl⟩ | ⟨hne, hs⟩
      · obtain ⟨hbuf, hgiven, hmark⟩ := h.fresh hnone
        simp only [hbuf, hgiven, hmark]
        exact .new _
      · apply (h.accounted hs).weaken
        exact fun hin => (List.mem_cons.mp (hsub.subset hin)).resolve_left hne
  | pushes hok hch hthere hmem hchannels hsub =>
    refine ⟨hsession, h.sender.of_subperm hsub ?_, fun hs => ?_, fun hs => ?_⟩
    · exact fun hs => hchannels ▸ isSome_update _ _ hs
    · rw [hchannels] at hs
      exact h.fresh (ne_of_update_eq_none hs).2
    · rw [hchannels] at hs
      rcases update_some_cases hs with ⟨rfl, rfl⟩ | ⟨hne, hs⟩
      · have hacc := h.accounted hch
        simp only [hacc.endMark_eq_none hmem]
        exact (hacc.push hthere _).weaken (hsub.subset ·)
      · exact (h.accounted hs).weaken (hsub.subset ·)
  | ends hok hch hthere hmem hchannels hsub hgone =>
    refine ⟨hsession, h.sender.of_subperm hsub ?_, fun hs => ?_, fun hs => ?_⟩
    · exact fun hs => hchannels ▸ isSome_update _ _ hs
    · rw [hchannels] at hs
      obtain ⟨hne, hs⟩ := ne_of_update_eq_none hs
      simpa [hne] using h.fresh hs
    · rw [hchannels] at hs
      rcases update_some_cases hs with ⟨rfl, rfl⟩ | ⟨hne, hs⟩
      · simp only [Function.update_self]
        exact (h.accounted hch).markEnd hthere hgone
      · simp only [Function.update_of_ne hne]
        exact (h.accounted hs).weaken (hsub.subset ·)
  | drops hok hch hchannels hsub =>
    refine ⟨hsession, h.sender.of_subperm hsub ?_, fun hs => ?_, fun hs => ?_⟩
    · exact fun hs => hchannels ▸ isSome_update _ _ hs
    · rw [hchannels] at hs
      exact h.fresh (ne_of_update_eq_none hs).2
    · rw [hchannels] at hs
      rcases update_some_cases hs with ⟨rfl, rfl⟩ | ⟨-, hs⟩
      · exact ((h.accounted hch).drop _).weaken (hsub.subset ·)
      · exact (h.accounted hs).weaken (hsub.subset ·)
  | reads hch hthere hread =>
    refine ⟨hsession, h.sender.of_subperm (List.Subperm.refl _) ?_, fun hs => ?_, fun hs => ?_⟩
    · exact fun hs => isSome_update _ _ hs
    · obtain ⟨hne, hs⟩ := ne_of_update_eq_none hs
      simpa [hne] using h.fresh hs
    · rcases update_some_cases hs with ⟨rfl, rfl⟩ | ⟨hne, hs⟩
      · simp only [Function.update_self]
        exact (h.accounted hch).read hthere hread
      · simp only [Function.update_of_ne hne]
        exact h.accounted hs

/-- A step of the session, or chunks taken out of one channel. -/
theorem moves_of_step {t t' : Readers} {e : ReadersEvent} (h : t.step e = some t') :
    t.session.Moves t'.session := by
  cases e with
  | read stream len =>
    simp only [step] at h
    split at h
    · cases h
    · rename_i ch hch
      split at h
      · cases h
      · rename_i hthere
        obtain ⟨⟨out, c⟩, hread, rfl⟩ := Option.map_eq_some_iff.mp h
        exact .receives hch (Option.not_isSome_iff_eq_none.mp hthere)
  | session e =>
    cases e with
    | recv stream => cases h
    | writerBreaks =>
      cases h
      exact .breaks
    | send | read | readError | drop stream =>
      obtain ⟨s, hstep, rfl⟩ := Option.map_eq_some_iff.mp h
      exact Session.moves_of_step hstep

theorem preserves_inv : Preserves step (fun _ _ => True) Inv := by
  intro t e t' h _ hstep
  exact inv_of_does h (h.session.moves (moves_of_step hstep))
    (does_of_step h.session h.sender hstep)

/-! ## Empty chunks -/

/-- An empty chunk in the channel is its end mark. -/
def OnlyMark (ch : Channel) (endMark : Option Nat) : Prop :=
  ∀ front rest, ch.queue = front ++ [] :: rest →
    endMark = some (ch.sent.length - (rest.length + 1))

/-- No empty chunk waits for a reader but the end mark. -/
def Tidy (t : Readers) : Prop :=
  ∀ {stream ch}, t.session.channels stream = some ch → ch.droppedAt = none →
    OnlyMark ch (t.endMark stream)

/-- The reads of a stream stop at its end exactly if its channel has no other empty chunk. -/
theorem zeroAtEnd_iff_tidy {t : Readers} (h : t.Inv) : t.ZeroAtEnd ↔ t.Tidy := by
  constructor
  · intro hzero stream ch hch hthere front rest hqueue
    -- read up to the empty chunk, and then it
    have hrx : (t.conn stream ch).rx = front ++ [] :: rest := hqueue
    obtain ⟨lens, outs, hreads⟩ := StreamConn.exists_reads_drain hrx
    obtain ⟨hend, -⟩ := hzero stream ch hch hthere lens outs _ 1
      ⟨rest, (t.conn stream ch).rxOpen, []⟩ hreads Nat.one_pos rfl
    rcases hend with ⟨-, hmark⟩ | ⟨hnil, -⟩
    · exact hmark
    · cases hnil
  · intro htidy stream ch hch hthere lens outs c len c' hreads hlen hread
    obtain ⟨hheld, hsuffix, hopen⟩ := StreamConn.reads_take hreads
    have hacc := h.accounted hch
    have hall : t.given stream ++ outs.flatten ++ c.held = ch.sent.flatten := by
      rw [List.append_assoc, hheld, ← hacc.account hthere]
      rfl
    obtain ⟨hbuf, ⟨rx, hrx⟩ | ⟨hrx, hclosed⟩⟩ := StreamConn.read_zero_cases hlen hread
    · -- it has taken an empty chunk
      obtain ⟨front, hfront⟩ := hsuffix
      rw [hrx] at hfront
      have hmark := htidy hch hthere front rx hfront.symm
      refine ⟨.inl ⟨by simp [hrx], by rw [hmark, hrx, List.length_cons]⟩, ?_⟩
      have hlast := hacc.eq_nil_of_mark hthere hfront.symm hmark
      rw [← hall]
      simp [StreamConn.held, hbuf, hrx, hlast]
    · refine ⟨.inr ⟨hrx, ?_⟩, ?_⟩
      · rw [hopen] at hclosed
        exact of_decide_eq_false hclosed
      · rw [← hall]
        simp [StreamConn.held, hbuf, hrx]

/-- As long as there is no end mark there is no empty chunk. -/
theorem onlyMark_none_iff {ch : Channel} : OnlyMark ch none ↔ [] ∉ ch.queue := by
  constructor
  · intro hmark hmem
    obtain ⟨front, rest, hqueue⟩ := List.append_of_mem hmem
    cases hmark front rest hqueue
  · intro hnot front rest hqueue
    exact absurd (hqueue ▸ List.mem_append_right front List.mem_cons_self) hnot

/-- The end mark behind chunks that are not empty. -/
theorem onlyMark_markEnd {ch : Channel} (h : [] ∉ ch.queue) :
    OnlyMark { ch with queue := ch.queue ++ [[]], sent := ch.sent ++ [[]] }
      (some ch.sent.length) := by
  intro front rest hqueue
  obtain rfl := StreamConn.eq_nil_of_endMark h hqueue
  simp

/-- **Step.**  The channels stay tidy exactly if no empty PSH frame is passed on. -/
theorem tidy_step_iff {t t' : Readers} {e : ReadersEvent} (h : t.Inv) (htidy : t.Tidy)
    (hd : t.Does e t') : t'.Tidy ↔ t.PushesData e := by
  have hclean : ∀ {stream ch}, t.session.channels stream = some ch → ch.droppedAt = none →
      stream ∈ t.session.senders → [] ∉ ch.queue := by
    intro stream ch hch hthere hmem
    have hmark := htidy hch hthere
    rw [(h.accounted hch).endMark_eq_none hmem] at hmark
    exact onlyMark_none_iff.mp hmark
  cases hd with
  | skips hok hchannels hsub =>
    exact iff_of_true (fun hs => htidy (hchannels ▸ hs)) hok
  | opens hok hnone hchannels hsub =>
    refine iff_of_true (fun hs hthere => ?_) hok
    rw [hchannels] at hs
    rcases update_some_cases hs with ⟨rfl, rfl⟩ | ⟨-, hs⟩
    · intro front rest hqueue
      simp at hqueue
    · exact htidy hs hthere
  | @pushes _ stream ch data s hok hch hthere hmem hchannels hsub =>
    have hnone := (h.accounted hch).endMark_eq_none hmem
    rw [hok]
    constructor
    · intro htidy' hdata
      have hself : s.channels stream = some
          { ch with queue := ch.queue ++ [data], sent := ch.sent ++ [data] } := by
        rw [hchannels, Function.update_self]
      have hmark := htidy' hself hthere
      simp only [hnone] at hmark
      apply onlyMark_none_iff.mp hmark
      simp [hdata]
    · intro hdata p c hs hthere'
      rw [hchannels] at hs
      rcases update_some_cases hs with ⟨rfl, rfl⟩ | ⟨-, hs⟩
      · change OnlyMark _ (t.endMark p)
        rw [hnone]
        apply onlyMark_none_iff.mpr
        simp [hclean hch hthere hmem, hdata.symm]
      · exact htidy hs hthere'
  | ends hok hch hthere hmem hchannels hsub hgone =>
    refine iff_of_true (fun hs hthere' => ?_) hok
    rw [hchannels] at hs
    rcases update_some_cases hs with ⟨rfl, rfl⟩ | ⟨hne, hs⟩
    · simp only [Function.update_self]
      exact onlyMark_markEnd (hclean hch hthere hmem)
    · simp only [Function.update_of_ne hne]
      exact htidy hs hthere'
  | drops hok hch hchannels hsub =>
    refine iff_of_true (fun hs hthere' => ?_) hok
    rw [hchannels] at hs
    rcases update_some_cases hs with ⟨rfl, rfl⟩ | ⟨-, hs⟩
    · cases hthere'
    · exact htidy hs hthere'
  | @reads stream len ch out c hch hthere hread =>
    refine iff_of_true (fun hs hthere' => ?_) (pushesData_of_ne (by simp))
    rcases update_some_cases hs with ⟨rfl, rfl⟩ | ⟨-, hs⟩
    · intro front rest hqueue
      obtain ⟨l, hl⟩ := (StreamConn.read_takes hread).2.1
      apply htidy hch hthere (l ++ front) rest
      rw [List.append_assoc, ← hqueue]
      exact hl.symm
    · exact htidy hs hthere'

/-! ## Every run -/

/-- **End of stream.**  In a run of a session, on whatever input and with whatever reads,
a `read` that returns 0 is at the end of its stream, exactly if every PSH frame that is
passed on to a stream has data. -/
theorem zeroAtEnd_iff_pushesData {padding : PaddingScheme} {input : Bytes}
    {es : List ReadersEvent} {t : Readers} (h : run step (init padding input) es = some t) :
    Always step ZeroAtEnd (init padding input) es ↔
      Every step PushesData (init padding input) es := by
  rw [always_congr preserves_inv zeroAtEnd_iff_tidy (inv_init padding input) es]
  refine always_iff_every preserves_inv (fun hinv htidy hstep => ?_)
    (inv_init padding input) ?_ h
  · exact tidy_step_iff hinv htidy (does_of_step hinv.session hinv.sender hstep)
  · intro stream ch hch
    cases hch

/-- The frames of `oneStream`, with the stream read to its end. -/
def readToEnd : List ReadersEvent :=
  [.session .read, .session .read, .session .read, .session .send, .read 1 16,
    .session .read, .session .send, .read 1 16]

theorem zeroAtEnd_iff_pushesData_readToEnd : ∃ t,
    run step (init ⟨[], ""⟩ oneStream) readToEnd = some t ∧
    (Always step ZeroAtEnd (init ⟨[], ""⟩ oneStream) readToEnd ↔
      Every step PushesData (init ⟨[], ""⟩ oneStream) readToEnd) := by
  obtain ⟨t, ht⟩ : ∃ t, run step (init ⟨[], ""⟩ oneStream) readToEnd = some t :=
    Option.isSome_iff_exists.mp (by decide +kernel)
  exact ⟨t, ht, zeroAtEnd_iff_pushesData ht⟩

/-- SETTINGS, SYN of stream 1, PSH without data, PSH with the byte 7. -/
def emptyPush : Bytes :=
  [4, 0, 0, 0, 0, 0, 0, 1, 0, 0, 0, 1, 0, 0, 2, 0, 0, 0, 1, 0, 0, 2, 0, 0, 0, 1, 0, 1, 7]

/-- **Early end.**  After the PSH frame without data a `read` returns 0, with the stream
open and the byte 7 still to come. -/
theorem not_zeroAtEnd_emptyPush : ∃ t,
    run step (init ⟨[], ""⟩ emptyPush) [.session .read, .session .read, .session .read,
      .session .send, .session .read, .session .send] = some t ∧ ¬ t.ZeroAtEnd := by
  have hrun : (run step (init ⟨[], ""⟩ emptyPush) [.session .read, .session .read,
      .session .read, .session .send, .session .read, .session .send]).map
        (fun t => (t.session.channels 1, t.buf 1, t.endMark 1)) =
      some (some ⟨[[], [7]], [[], [7]], none⟩, [], none) := by
    decide +kernel
  obtain ⟨t, ht, hfields⟩ := Option.map_eq_some_iff.mp hrun
  simp only [Prod.mk.injEq] at hfields
  obtain ⟨hch, hbuf, hmark⟩ := hfields
  refine ⟨t, ht, fun hzero => ?_⟩
  have hread : (t.conn 1 ⟨[[], [7]], [[], [7]], none⟩).read 1 =
      some ([], ⟨[[7]], decide (1 ∈ t.session.senders), []⟩) := by
    simp [StreamConn.read, conn, hbuf]
  obtain ⟨hend, -⟩ := hzero 1 _ hch rfl [] [] _ 1 _ rfl Nat.one_pos hread
  rcases hend with ⟨-, hsome⟩ | ⟨hnil, -⟩
  · rw [hmark] at hsome
    cases hsome
  · cases hnil

end Readers

end Ruproxy.AnyTls
