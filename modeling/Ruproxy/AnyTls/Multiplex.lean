/-
  AnyTls/Multiplex.lean --- a connection of `anytls/server.rs` with all of its tasks.

  `handle_conn` checks the password and runs the session.  The read loop opens the streams,
  each with a task that runs `handle_stream`; the loop and the tasks put their frames on one
  write channel, which the writer task empties.  All of them move in any order.

  A task of a stream moves by the steps of its `Handler`, which is given the chunks of its
  channel and the write channel for the step.  `queued` and `record` are not in the source:
  the frames that were put on the write channel, with the stream that did it, and what the
  tasks have done.  `wire` are the frames that the writer task has written in full.
-/
import Ruproxy.AnyTls.EndOfStream
import Ruproxy.AnyTls.Replies
import Ruproxy.AnyTls.Streams

set_option autoImplicit false

namespace Ruproxy.AnyTls

open Ruproxy.Foundation Ruproxy.Foundation.Transition Ruproxy.Address

/-! ## The connection -/

/-- `handle_conn` up to the session: what is left for it. -/
def authenticate (sha256 : Bytes → Vector UInt8 32) (password : String) (client : Bytes) :
    Option Bytes := do
  let (authBuf, client) ← readExact 34 client
  if authBuf.take 32 ≠ (sha256 (asBytes password)).toList then none
  else
    let padding0Len := (u16OfBe (authBuf.getD 32 0) (authBuf.getD 33 0)).toNat
    if 0 < padding0Len then
      let (_, client) ← readExact padding0Len client
      return client
    else return client

/-- The event is one of the read loop, or the end of the writer task. -/
def SessionEvent.isLoop : SessionEvent → Bool
  | .recv _ | .drop _ => false
  | _ => true

/-- A session with the tasks of its streams and its write channel. -/
structure Mux where
  session : Session
  /-- the `buf` of a `StreamConn` -/
  buf : Nat → Bytes
  handlers : Nat → Option Handler
  writeChannel : List Frame
  wire : List Frame
  queued : List (Option Nat × Frame)
  record : Nat → Record

/-- What happens next. -/
inductive MuxEvent where
  | session (e : SessionEvent)
  | stream (p : Nat) (e : HandlerEvent)
  /-- the writer task writes a frame -/
  | write

namespace Mux

/-- The start of the session. -/
def init (padding : PaddingScheme) (input : Bytes) : Mux where
  session := Session.init padding input
  buf _ := []
  handlers _ := none
  writeChannel := []
  wire := []
  queued := []
  record _ := .start

/-- The read loop has moved: what it has written goes to the write channel, and a stream that
it has opened gets its task. -/
def moved (t : Mux) (s : Session) : Mux :=
  let new := s.written.drop t.session.written.length
  let opened := t.session.handled.length
  { t with
    session := s
    handlers :=
      match s.channels opened, s.handled[opened]? with
      | some _, some syn =>
          Function.update t.handlers opened (some (Handler.start syn.streamId [] true))
      | _, _ => t.handlers
    writeChannel := t.writeChannel ++ new
    queued := t.queued ++ new.map (none, ·) }

/-- The task of a stream, with the chunks of its channel and the write channel. -/
def attach (t : Mux) (p : Nat) (h : Handler) (ch : Channel) : Handler :=
  { h with
    relay := { h.relay with
      conn := ⟨ch.queue, decide (p ∈ t.session.senders), t.buf p⟩
      writeChannel := t.writeChannel
      writerAlive := t.session.writerAlive } }

/-- The channel of a stream whose task has moved; a task that has returned drops it. -/
def leave (t : Mux) (ch : Channel) (h : Handler) : Channel :=
  if h.phase.isReturned then
    { ch with queue := [], droppedAt := some t.session.handled.length }
  else { ch with queue := h.relay.conn.rx }

/-- The task of a stream has moved from `h` to `h'`. -/
def detach (t : Mux) (p : Nat) (ch : Channel) (h : Handler) (e : HandlerEvent) (h' : Handler) :
    Mux :=
  { t with
    session := { t.session with
      channels := Function.update t.session.channels p (some (t.leave ch h')) }
    buf := Function.update t.buf p h'.relay.conn.buf
    handlers := Function.update t.handlers p (some h')
    writeChannel := h'.relay.writeChannel
    queued := t.queued ++ (h'.relay.queued.drop h.relay.queued.length).map (some p, ·)
    record := Function.update t.record p ((t.record p).after e h') }

/-- One step; `none` where the event cannot happen. -/
def step (t : Mux) : MuxEvent → Option Mux
  | .session e => if e.isLoop then (t.session.step e).map t.moved else none
  | .stream p e =>
      match t.handlers p, t.session.channels p with
      | some h, some ch =>
          if e.isOwn then ((t.attach p h ch).step e).map fun h' => t.detach p ch h e h'
          else none
      | _, _ => none
  | .write =>
      match t.writeChannel with
      | f :: fs =>
          if t.session.writerAlive then some { t with writeChannel := fs, wire := t.wire ++ [f] }
          else none
      | [] => none

end Mux

/-- A connection behind `handle_conn`'s check of the password. -/
def handleConn (sha256 : Bytes → Vector UInt8 32) (password : String) (padding : PaddingScheme)
    (client : Bytes) : Option Mux :=
  (authenticate sha256 password client).map (Mux.init padding)

/-- The first read of `handle_conn`, with the digest and the length in it. -/
theorem readExact_auth {client rest authBuf : Bytes} :
    readExact 34 client = some (authBuf, rest) ↔ ∃ digest len, digest.length = 32 ∧
      authBuf = digest ++ u16ToBe len ∧ client = digest ++ (u16ToBe len ++ rest) := by
  rw [readExact_eq_some]
  constructor
  · rintro ⟨rfl, hlen⟩
    have hdrop : (authBuf.drop 32).length = 2 := by
      rw [List.length_drop, hlen]
    obtain ⟨a, b, hab⟩ := List.length_eq_two.mp hdrop
    have hsplit : authBuf = authBuf.take 32 ++ u16ToBe (u16OfBe a b) := by
      rw [u16ToBe_ofBe, ← hab, List.take_append_drop]
    refine ⟨authBuf.take 32, u16OfBe a b, ?_, hsplit, ?_⟩
    · rw [List.length_take, hlen]
      rfl
    · rw [← List.append_assoc, ← hsplit]
  · rintro ⟨digest, len, hdigest, rfl, rfl⟩
    refine ⟨(List.append_assoc _ _ _).symm, ?_⟩
    rw [List.length_append, hdigest, u16ToBe_length]

/-- A session runs exactly behind the digest of the password and the padding. -/
theorem authenticate_eq_some {sha256 : Bytes → Vector UInt8 32} {password : String}
    {client rest : Bytes} : authenticate sha256 password client = some rest ↔
      ∃ len padding0, client = (sha256 (asBytes password)).toList ++ (u16ToBe len ++
        (padding0 ++ rest)) ∧ padding0.length = len.toNat := by
  have hlen : ∀ (digest : Bytes) (len : UInt16), digest.length = 32 →
      u16OfBe ((digest ++ u16ToBe len).getD 32 0) ((digest ++ u16ToBe len).getD 33 0) = len := by
    intro digest len hdigest
    obtain ⟨a, b, rfl⟩ := exists_u16OfBe len
    rw [u16ToBe_ofBe, List.getD_append_right _ _ _ _ (by omega),
      List.getD_append_right _ _ _ _ (by omega), hdigest]
    rfl
  constructor
  · intro h
    obtain ⟨⟨authBuf, rest'⟩, hread, hbody⟩ := Option.bind_eq_some_iff.mp h
    obtain ⟨digest, len, hdigest, rfl, rfl⟩ := readExact_auth.mp hread
    dsimp only at hbody
    rw [List.take_left' hdigest, hlen digest len hdigest] at hbody
    split at hbody
    · cases hbody
    rename_i heq
    rw [not_not] at heq
    subst heq
    split at hbody
    · obtain ⟨⟨padding0, rest''⟩, hmore, hrest⟩ := Option.bind_eq_some_iff.mp hbody
      obtain ⟨rfl, hpadding⟩ := readExact_eq_some.mp hmore
      cases hrest
      exact ⟨len, padding0, rfl, hpadding⟩
    · rename_i hzero
      cases hbody
      exact ⟨len, [], rfl, (Nat.eq_zero_of_not_pos hzero).symm⟩
  · rintro ⟨len, padding0, rfl, hpadding⟩
    have hdigest : (sha256 (asBytes password)).toList.length = 32 := Vector.length_toList
    refine Option.bind_eq_some_iff.mpr
      ⟨_, readExact_auth.mpr ⟨_, len, hdigest, rfl, rfl⟩, ?_⟩
    dsimp only
    rw [List.take_left' hdigest, hlen _ len hdigest, if_neg (not_not.mpr rfl)]
    split
    · exact Option.bind_eq_some_iff.mpr ⟨_, readExact_append hpadding rest, rfl⟩
    · rename_i hzero
      rw [Nat.eq_zero_of_not_pos hzero, List.length_eq_zero_iff] at hpadding
      rw [hpadding]
      rfl

/-! ## What the read loop does -/

theorem getElem?_of_prefix {fs gs : List Frame} (h : fs <+: gs) {p : Nat} {f : Frame}
    (hf : fs[p]? = some f) : gs[p]? = some f := by
  obtain ⟨hlt, rfl⟩ := List.getElem?_eq_some_iff.mp hf
  exact List.prefix_iff_getElem?.mp h p hlt

/-- What a step of the read loop does to the rest of the connection. -/
structure Drives (s s' : Session) : Prop where
  handled : s.handled <+: s'.handled
  written : s.written <+: s'.written
  alive : s'.writerAlive = true → s.writerAlive = true
  /-- a channel is opened, or sent some chunks -/
  channels : ∀ {p ch'}, s'.channels p = some ch' →
    (p = s.handled.length ∧ ch' = ⟨[], [], none⟩ ∧ (s'.handled[p]?).isSome) ∨
      ∃ ch more, s.channels p = some ch ∧
        ch' = { ch with queue := ch.queue ++ more, sent := ch.sent ++ more }
  kept : ∀ {p}, (s.channels p).isSome → (s'.channels p).isSome

namespace Drives

variable {s s' : Session}

/-- The channels stay as they are. -/
theorem quiet (hhandled : s.handled <+: s'.handled) (hwritten : s.written <+: s'.written)
    (halive : s'.writerAlive = true → s.writerAlive = true)
    (hchannels : s'.channels = s.channels) : Drives s s' where
  handled := hhandled
  written := hwritten
  alive := halive
  channels hch := by
    rw [hchannels] at hch
    exact .inr ⟨_, [], hch, by simp⟩
  kept hsome := by rwa [hchannels]

/-- A `tx.send` of the loop. -/
theorem of_trySend {stream : Nat} {data : Bytes} {ok : Bool}
    (h : s.trySend stream data = some (ok, s')) : Drives s s' := by
  obtain ⟨ch, hch, ⟨-, -, rfl⟩ | ⟨-, -, rfl⟩⟩ := Session.trySend_cases h
  · exact quiet List.prefix_rfl List.prefix_rfl id rfl
  · refine ⟨List.prefix_rfl, List.prefix_rfl, id, fun {p ch'} hch' => ?_, fun {p} hsome => ?_⟩
    · rcases Readers.update_some_cases hch' with ⟨rfl, rfl⟩ | ⟨-, hsame⟩
      · exact .inr ⟨ch, [data], hch, rfl⟩
      · exact .inr ⟨ch', [], hsame, by simp⟩
    · exact Readers.isSome_update stream _ hsome

/-- The loop goes somewhere else behind a `tx.send`. -/
theorem then_quiet (h : Drives s s') {t : Session} (hhandled : s'.handled <+: t.handled)
    (hwritten : t.written = s'.written) (halive : t.writerAlive = s'.writerAlive)
    (hchannels : t.channels = s'.channels) : Drives s t where
  handled := h.handled.trans hhandled
  written := hwritten ▸ h.written
  alive ha := h.alive (halive ▸ ha)
  channels {p ch'} hch := by
    rw [hchannels] at hch
    refine (h.channels hch).imp_left fun ⟨hp, heq, hsome⟩ => ⟨hp, heq, ?_⟩
    rw [Option.isSome_iff_exists] at hsome ⊢
    obtain ⟨f, hf⟩ := hsome
    exact ⟨f, getElem?_of_prefix hhandled hf⟩
  kept hsome := by
    rw [hchannels]
    exact h.kept hsome

/-- A reply of the loop. -/
theorem replies_written (s : Session) (fs : List Frame) :
    s.written <+: (s.replies fs).written := List.prefix_append _ _

theorem dispatch (s : Session) (f : Frame) : Drives s (s.dispatch f) := by
  have hnext : s.handled <+: s.handled ++ [f] := List.prefix_append _ _
  fun_cases Session.dispatch s f with
  | case1 | case6 | case8 | case10 | case12 | case11 =>
    exact quiet hnext List.prefix_rfl id rfl
  | case5 | case7 => exact quiet List.prefix_rfl List.prefix_rfl id rfl
  | case2 =>
    unfold Session.settings
    dsimp only
    rw [Session.ite_reply, Session.ite_reply]
    refine quiet hnext ?_ id rfl
    exact (replies_written _ _).trans (replies_written _ _)
  | case4 =>
    rw [Session.reply_eq_replies]
    exact quiet hnext (replies_written s _) id rfl
  | case9 =>
    rw [Session.reply_eq_replies]
    exact quiet hnext (replies_written s _) id rfl
  | case3 =>
    unfold Session.openStream
    dsimp only
    rw [Session.ite_reply]
    refine ⟨hnext, replies_written _ _, id, fun {p ch'} hch' => ?_, fun {p} hsome => ?_⟩
    · rcases Readers.update_some_cases hch' with ⟨rfl, rfl⟩ | ⟨-, hsame⟩
      · refine .inl ⟨rfl, rfl, ?_⟩
        rw [Session.next_handled]
        simp [Session.replies]
      · exact .inr ⟨ch', [], hsame, by simp⟩
    · exact Readers.isSome_update _ _ hsome

end Drives

theorem drives_of_step {s s' : Session} {e : SessionEvent} (h : s.step e = some s')
    (hloop : e.isLoop = true) : Drives s s' := by
  have hend : Drives s s.close := .quiet List.prefix_rfl List.prefix_rfl id rfl
  cases e with
  | recv | drop => cases hloop
  | writerBreaks =>
    cases h
    exact .quiet List.prefix_rfl List.prefix_rfl nofun rfl
  | read =>
    simp only [Session.step] at h
    split at h
    case h_2 => cases h
    split at h
    · rename_i f input _
      cases h
      have hdispatch := Drives.dispatch { s with input := input } f
      exact ⟨hdispatch.handled, hdispatch.written, hdispatch.alive, hdispatch.channels,
        hdispatch.kept⟩
    · cases h
      exact hend
  | readError =>
    simp only [Session.step] at h
    split at h
    · cases h
      exact hend
    · cases h
  | send =>
    simp only [Session.step] at h
    split at h
    · split at h
      · rename_i hsend
        cases h
        exact (Drives.of_trySend hsend).then_quiet (List.prefix_append _ _) rfl rfl rfl
      · rename_i hsend
        cases h
        exact (Drives.of_trySend hsend).then_quiet (List.prefix_append _ _) rfl rfl rfl
      · cases h
    · obtain ⟨⟨ok, t⟩, hsend, rfl⟩ := Option.map_eq_some_iff.mp h
      exact (Drives.of_trySend hsend).then_quiet (List.prefix_append _ _) rfl rfl rfl
    · obtain ⟨⟨ok, t⟩, hsend, rfl⟩ := Option.map_eq_some_iff.mp h
      exact (Drives.of_trySend hsend).then_quiet List.prefix_rfl rfl rfl rfl
    · cases h

/-! ## What a task does to the rest -/

variable {md5Hex : Bytes → String}

theorem Relay.step_rest {s s' : Relay} {e : Event} (h : s.step e = some s')
    (hown : (HandlerEvent.relay e).isOwn = true) :
    s'.streamId = s.streamId ∧ s'.writerAlive = s.writerAlive := by
  cases e with
  | push | fin | replaced | otherFrame | write | writerBreaks => cases hown
  | locked half =>
    cases half with
    | up | down =>
      simp only [Relay.step] at h
      repeat' split at h
      all_goals first
        | contradiction
        | obtain rfl := Option.some.inj h
          exact ⟨rfl, rfl⟩
  | upRead | upWritten | upShutdown | downRead | downSent =>
    simp only [Relay.step] at h
    repeat' split at h
    all_goals first
      | contradiction
      | obtain rfl := Option.some.inj h
        exact ⟨rfl, rfl⟩

namespace Handler

/-- A step of the task leaves the stream id and the writer task, and queues such messages. -/
theorem step_rest {s s' : Handler} {e : HandlerEvent} (hown : e.isOwn = true)
    (hstep : s.step e = some s') : s'.relay.streamId = s.relay.streamId ∧
      s'.relay.writerAlive = s.relay.writerAlive ∧ s.phase.isReturned = false ∧
        (s.relay.Writes md5Hex → s'.relay.Writes md5Hex) := by
  cases e with
  | address =>
    simp only [Handler.step] at hstep
    split at hstep
    case h_2 => cases hstep
    rename_i taken hphase
    split at hstep
    all_goals
      obtain rfl := Option.some.inj hstep
      exact ⟨rfl, rfl, by rw [hphase]; rfl, fun h => h.same (.inr rfl) rfl⟩
  | connect outcome =>
    simp only [Handler.step] at hstep
    split at hstep
    case h_2 => cases hstep
    rename_i target hphase
    cases outcome with
    | connected =>
      obtain rfl := Option.some.inj hstep
      exact ⟨rfl, rfl, by rw [hphase]; rfl,
        fun _ => ⟨fun _ hdata => (by cases hdata), List.forall_mem_nil _⟩⟩
    | failed | timedOut =>
      obtain rfl := Option.some.inj hstep
      exact ⟨rfl, rfl, by rw [hphase]; rfl, id⟩
  | join =>
    simp only [Handler.step] at hstep
    split at hstep
    · rename_i hphase _ _
      obtain rfl := Option.some.inj hstep
      exact ⟨rfl, rfl, by rw [hphase]; rfl, id⟩
    · cases hstep
  | relay e =>
    simp only [Handler.step] at hstep
    split at hstep
    case isFalse => cases hstep
    rename_i hadmits
    obtain ⟨relay, hrelay, rfl⟩ := Option.map_eq_some_iff.mp hstep
    obtain ⟨hid, halive⟩ := Relay.step_rest hrelay hown
    refine ⟨hid, halive, ?_, fun h => Relay.step_writes h trivial hrelay⟩
    rw [Phase.eq_relaying_of_admits hadmits hown]
    rfl

end Handler

/-! ## The invariant -/

/-- The frames of one source, a stream or the read loop. -/
def framesBy (source : Option Nat) (queued : List (Option Nat × Frame)) : List Frame :=
  (queued.filter fun q => q.1 = source).map Prod.snd

theorem framesBy_append_self (source : Option Nat) (queued : List (Option Nat × Frame))
    (new : List Frame) :
    framesBy source (queued ++ new.map (source, ·)) = framesBy source queued ++ new := by
  have hall : (new.map (source, ·)).filter (fun q => q.1 = source) = new.map (source, ·) := by
    refine List.filter_eq_self.mpr fun q hq => ?_
    obtain ⟨f, -, rfl⟩ := List.mem_map.mp hq
    exact decide_eq_true rfl
  rw [framesBy, List.filter_append, hall, List.map_append, List.map_map]
  exact congrArg _ (List.map_id _)

theorem framesBy_append_other {source source' : Option Nat} (h : source' ≠ source)
    (queued : List (Option Nat × Frame)) (new : List Frame) :
    framesBy source (queued ++ new.map (source', ·)) = framesBy source queued := by
  have hnone : (new.map (source', ·)).filter (fun q => q.1 = source) = [] := by
    refine List.filter_eq_nil_iff.mpr fun q hq => ?_
    obtain ⟨f, -, rfl⟩ := List.mem_map.mp hq
    exact fun heq => h (of_decide_eq_true heq)
  rw [framesBy, List.filter_append, hnone, List.append_nil]
  rfl

theorem map_snd_append (source : Option Nat) (queued : List (Option Nat × Frame))
    (new : List Frame) :
    (queued ++ new.map (source, ·)).map Prod.snd = queued.map Prod.snd ++ new := by
  rw [List.map_append, List.map_map]
  exact congrArg _ (List.map_id _)

namespace Mux

/-- A stream with its task: what the task has read and queued. -/
structure Served (md5Hex : Bytes → String) (t : Mux) (p : Nat) (h : Handler) (ch : Channel) :
    Prop where
  opened : ∃ syn, t.session.handled[p]? = some syn ∧ syn.streamId = h.relay.streamId
  alive : t.session.writerAlive = true → h.relay.writerAlive = true
  took : ∃ took, h.Took (t.record p) took ∧ took <+: ch.sent.flatten ∧
    (ch.droppedAt = none → took ++ (t.buf p ++ ch.queue.flatten) = ch.sent.flatten)
  there : h.phase.isReturned = false → ch.droppedAt = none
  sends : h.Sends (t.record p)
  writes : h.relay.Writes md5Hex
  queued : framesBy (some p) t.queued = h.relay.queued

/-- The tasks of a connection agree on its streams and on its write channel. -/
structure Inv (md5Hex : Bytes → String) (padding : PaddingScheme) (input : Bytes) (t : Mux) :
    Prop where
  session : SessionInv t.session
  answered : t.session.Answered padding
  frames : t.session.frames = framesOf input
  tasks : ∀ p, (t.handlers p).isSome = (t.session.channels p).isSome
  served : ∀ {p h ch}, t.handlers p = some h → t.session.channels p = some ch →
    Served md5Hex t p h ch
  unserved : ∀ {p}, t.handlers p = none →
    t.record p = .start ∧ t.buf p = [] ∧ framesBy (some p) t.queued = []
  loop : framesBy none t.queued = t.session.written
  wire : t.queued.map Prod.snd = t.wire ++ t.writeChannel

variable {padding : PaddingScheme} {input : Bytes}

theorem inv_init (padding : PaddingScheme) (input : Bytes) :
    Inv md5Hex padding input (init padding input) where
  session := sessionInv_init padding input
  answered := Session.answered_init padding input
  frames := rfl
  tasks _ := rfl
  served h := nomatch h
  unserved _ := ⟨rfl, rfl, rfl⟩
  loop := rfl
  wire := rfl

/-- Chunks that come into a channel do not matter to its task. -/
theorem Served.more {t t' : Mux} {p : Nat} {h : Handler} {ch : Channel}
    (hs : Served md5Hex t p h ch) (more : List Bytes)
    (hhandled : t.session.handled <+: t'.session.handled)
    (halive : t'.session.writerAlive = true → t.session.writerAlive = true)
    (hrecord : t'.record p = t.record p) (hbuf : t'.buf p = t.buf p)
    (hqueued : framesBy (some p) t'.queued = framesBy (some p) t.queued) :
    Served md5Hex t' p h { ch with queue := ch.queue ++ more, sent := ch.sent ++ more } where
  opened := by
    obtain ⟨syn, hsyn, hid⟩ := hs.opened
    exact ⟨syn, getElem?_of_prefix hhandled hsyn, hid⟩
  alive ha := hs.alive (halive ha)
  took := by
    obtain ⟨took, htook, hpre, hall⟩ := hs.took
    rw [hrecord, hbuf]
    refine ⟨took, htook, ?_, fun hthere => ?_⟩
    · rw [List.flatten_append]
      exact hpre.trans (List.prefix_append _ _)
    · rw [List.flatten_append, List.flatten_append, ← hall hthere]
      simp only [List.append_assoc]
  there := hs.there
  sends := hrecord ▸ hs.sends
  writes := hs.writes
  queued := hqueued.trans hs.queued

/-- The tasks behind a step of the read loop. -/
theorem moved_handlers {t : Mux} {s : Session} (hdrives : Drives t.session s)
    (hfresh : t.session.channels t.session.handled.length = none) :
    (s.channels t.session.handled.length = none ∧ (t.moved s).handlers = t.handlers) ∨
      ∃ syn, s.handled[t.session.handled.length]? = some syn ∧
        s.channels t.session.handled.length = some ⟨[], [], none⟩ ∧
          (t.moved s).handlers = Function.update t.handlers t.session.handled.length
            (some (Handler.start syn.streamId [] true)) := by
  cases hch : s.channels t.session.handled.length with
  | none =>
    refine .inl ⟨rfl, ?_⟩
    unfold moved
    dsimp only
    rw [hch]
  | some ch =>
    rcases hdrives.channels hch with ⟨-, rfl, hsome⟩ | ⟨ch', more, hold, -⟩
    · obtain ⟨syn, hsyn⟩ := Option.isSome_iff_exists.mp hsome
      refine .inr ⟨syn, hsyn, rfl, ?_⟩
      unfold moved
      dsimp only
      rw [hch, hsyn]
    · rw [hfresh] at hold
      cases hold

/-- The read loop queues nothing for a stream. -/
theorem framesBy_moved (t : Mux) (s : Session) (p : Nat) :
    framesBy (some p) (t.moved s).queued = framesBy (some p) t.queued :=
  framesBy_append_other (Option.some_ne_none p).symm _ _

/-- A stream that the read loop has opened has a task that has done nothing. -/
theorem Inv.served_opened {t : Mux} (h : Inv md5Hex padding input t) {s : Session} {p : Nat}
    {syn : Frame} (hhandled : s.handled[p]? = some syn) (hnone : t.handlers p = none) :
    Served md5Hex (t.moved s) p (Handler.start syn.streamId [] true) ⟨[], [], none⟩ := by
  obtain ⟨hrecord, hbuf, hqueued⟩ := h.unserved hnone
  refine ⟨⟨syn, hhandled, rfl⟩, fun _ => rfl, ?_, fun _ => rfl, ?_, ⟨?_, ?_⟩, ?_⟩
  · show ∃ took, Handler.Took _ (t.record p) took ∧ _
    rw [hrecord]
    refine ⟨[], Handler.took_start _ _ _, List.nil_prefix, fun _ => ?_⟩
    show [] ++ (t.buf p ++ []) = []
    rw [hbuf]
    rfl
  · show Handler.Sends _ (t.record p)
    rw [hrecord]
    exact Handler.sends_start _ _ _
  · exact fun data hdata => by cases hdata
  · exact List.forall_mem_nil _
  · exact (framesBy_moved t s p).trans hqueued

/-- **The read loop.** -/
theorem Inv.moved {t : Mux} (h : Inv md5Hex padding input t) {s : Session}
    (hmoves : t.session.Moves s) (hdrives : Drives t.session s) :
    Inv md5Hex padding input (t.moved s) := by
  have hfresh := h.session.channels_length
  obtain ⟨new, hnew⟩ := hdrives.written
  have hdrop : s.written.drop t.session.written.length = new := by
    rw [← hnew, List.drop_left]
  -- the streams that were there
  have hold : ∀ {p hd ch}, t.handlers p = some hd → s.channels p = some ch →
      Served md5Hex (t.moved s) p hd ch := by
    intro p hd ch hhd hch
    rcases hdrives.channels hch with ⟨rfl, -, -⟩ | ⟨ch', more, hch', rfl⟩
    · have hnone := h.tasks t.session.handled.length
      rw [hfresh, hhd] at hnone
      cases hnone
    · exact (h.served hhd hch').more more hdrives.handled hdrives.alive rfl rfl
        (framesBy_moved t s p)
  have hsome : ∀ {p}, p ≠ t.session.handled.length →
      (s.channels p).isSome = (t.session.channels p).isSome := by
    intro p hne
    rw [Bool.eq_iff_iff]
    refine ⟨fun hs => ?_, hdrives.kept⟩
    obtain ⟨ch, hch⟩ := Option.isSome_iff_exists.mp hs
    rcases hdrives.channels hch with ⟨hp, -, -⟩ | ⟨ch', more, hch', -⟩
    · exact absurd hp hne
    · rw [hch']
      rfl
  have hopened := moved_handlers hdrives hfresh
  have hunopened : t.handlers t.session.handled.length = none := by
    have hnone := h.tasks t.session.handled.length
    rwa [hfresh, Option.isSome_none, Option.isSome_eq_false_iff, Option.isNone_iff_eq_none] at hnone
  refine ⟨h.session.moves hmoves, h.answered.moves hmoves, ?_, ?_, ?_, ?_, ?_, ?_⟩
  · exact hmoves.frames_eq.trans h.frames
  · intro p
    show _ = (s.channels p).isSome
    rcases eq_or_ne p t.session.handled.length with rfl | hne
    · rcases hopened with ⟨hnone, heq⟩ | ⟨syn, -, hch, heq⟩
      · rw [heq, hunopened, hnone]
        rfl
      · rw [heq, hch, Function.update_self]
        rfl
    · rw [hsome hne, ← h.tasks]
      rcases hopened with ⟨-, heq⟩ | ⟨syn, -, -, heq⟩
      · rw [heq]
      · rw [heq, Function.update_of_ne hne]
  · intro p hd ch hhd hch
    rcases hopened with ⟨-, heq⟩ | ⟨syn, hsyn, hnew', heq⟩
    · rw [heq] at hhd
      exact hold hhd hch
    · rw [heq] at hhd
      rcases eq_or_ne p t.session.handled.length with rfl | hne
      · rw [Function.update_self] at hhd
        obtain rfl := Option.some.inj hhd
        obtain rfl := Option.some.inj (hnew'.symm.trans hch)
        exact h.served_opened hsyn hunopened
      · rw [Function.update_of_ne hne] at hhd
        exact hold hhd hch
  · intro p hnone
    have hnone' : t.handlers p = none := by
      rcases hopened with ⟨-, heq⟩ | ⟨syn, -, -, heq⟩
      · rwa [heq] at hnone
      · rcases eq_or_ne p t.session.handled.length with rfl | hne
        · exact hunopened
        · rwa [heq, Function.update_of_ne hne] at hnone
    obtain ⟨hrecord, hbuf, hqueued⟩ := h.unserved hnone'
    exact ⟨hrecord, hbuf, (framesBy_moved t s p).trans hqueued⟩
  · show framesBy none (t.queued ++ _) = s.written
    rw [hdrop, framesBy_append_self, h.loop, hnew]
  · show (t.queued ++ _).map Prod.snd = t.wire ++ (t.writeChannel ++ _)
    rw [map_snd_append, h.wire, List.append_assoc]

theorem leave_sent (t : Mux) (ch : Channel) (h : Handler) : (t.leave ch h).sent = ch.sent := by
  unfold leave
  split
  · rfl
  · rfl

theorem leave_queue (t : Mux) {ch : Channel} {h : Handler}
    (hgoes : (t.leave ch h).droppedAt = none) : (t.leave ch h).queue = h.relay.conn.rx := by
  unfold leave at hgoes ⊢
  split at hgoes
  · cases hgoes
  · rename_i hphase
    rw [if_neg hphase]

/-- The session behind a step of a task. -/
theorem moves_detach {t : Mux} {p : Nat} {h : Handler} {ch : Channel}
    (hch : t.session.channels p = some ch) (hthere : ch.droppedAt = none) (e : HandlerEvent)
    (h' : Handler) : t.session.Moves (t.detach p ch h e h').session := by
  unfold detach leave
  dsimp only
  split
  · exact .drops hch hthere
  · exact .receives hch hthere

/-- The step of a task puts what it queues into the write channel of the connection. -/
theorem Served.detach {t : Mux} {p : Nat} {h h' : Handler} {ch : Channel} {e : HandlerEvent}
    (hserved : Served md5Hex t p h ch) (hown : e.isOwn = true)
    (hstep : (t.attach p h ch).step e = some h') :
    ch.droppedAt = none ∧ Served md5Hex (t.detach p ch h e h') p h' (t.leave ch h') ∧
      h'.relay.writeChannel = t.writeChannel ++ h'.relay.queued.drop h.relay.queued.length := by
  obtain ⟨took, htook, hpre, hall⟩ := hserved.took
  obtain ⟨hid, halive, hphase, hwrites⟩ := @Handler.step_rest md5Hex _ _ _ hown hstep
  have hthere : ch.droppedAt = none := hserved.there hphase
  have hattached : (t.attach p h ch).Took (t.record p) took :=
    ⟨htook.addressing, htook.connecting, htook.relaying, htook.quiet, htook.dialed⟩
  have hsends : (t.attach p h ch).Sends (t.record p) :=
    ⟨hserved.sends.sent.same rfl rfl rfl hserved.alive, hserved.sends.early⟩
  obtain ⟨took', htook', hheld⟩ := hattached.step hown hstep
  obtain ⟨hsends', new, hqueued, hchannel⟩ := hsends.step hown hstep
  have hdrop : h'.relay.queued.drop h.relay.queued.length = new := by
    rw [hqueued]
    exact List.drop_left
  obtain ⟨syn, hsyn, hsid⟩ := hserved.opened
  have hrecord : (t.detach p ch h e h').record p = (t.record p).after e h' :=
    Function.update_self _ _ _
  have hbuf : (t.detach p ch h e h').buf p = h'.relay.conn.buf := Function.update_self _ _ _
  refine ⟨hthere, ⟨⟨syn, hsyn, hsid.trans hid.symm⟩, fun ha => halive.trans ha, ?_,
    fun hgoes => ?_, hrecord ▸ hsends', hwrites (hserved.writes.same (.inr rfl) rfl), ?_⟩,
    hdrop.symm ▸ hchannel⟩
  · rw [hrecord, hbuf, t.leave_sent]
    have hsplit : took' ++ h'.relay.conn.held = ch.sent.flatten := hheld.trans (hall hthere)
    refine ⟨took', htook', ⟨_, hsplit⟩, fun hgoes => ?_⟩
    rw [t.leave_queue hgoes]
    exact hsplit
  · unfold leave
    rw [hgoes]
    exact hthere
  · show framesBy (some p) (t.queued ++ _) = _
    rw [framesBy_append_self, hserved.queued, hdrop, hqueued]
    rfl

/-- **A task.** -/
theorem Inv.detach {t : Mux} (hinv : Inv md5Hex padding input t) {p : Nat} {h h' : Handler}
    {ch : Channel} {e : HandlerEvent} (hh : t.handlers p = some h)
    (hch : t.session.channels p = some ch) (hown : e.isOwn = true)
    (hstep : (t.attach p h ch).step e = some h') :
    Inv md5Hex padding input (t.detach p ch h e h') := by
  obtain ⟨hthere, hserved, hchannel⟩ := (hinv.served hh hch).detach hown hstep
  have hmoves := moves_detach hch hthere (h := h) e h'
  have hother : ∀ {source : Option Nat}, some p ≠ source →
      framesBy source (t.detach p ch h e h').queued = framesBy source t.queued :=
    fun hne => framesBy_append_other hne _ _
  refine ⟨hinv.session.moves hmoves, hinv.answered.moves hmoves,
    hmoves.frames_eq.trans hinv.frames, ?_, ?_, ?_, ?_, ?_⟩
  · intro q
    show (Function.update t.handlers p (some h') q).isSome =
      (Function.update t.session.channels p _ q).isSome
    rcases eq_or_ne q p with rfl | hne
    · rw [Function.update_self, Function.update_self]
      rfl
    · rw [Function.update_of_ne hne, Function.update_of_ne hne]
      exact hinv.tasks q
  · intro q hd chq hhd hchq
    change Function.update t.handlers p (some h') q = some hd at hhd
    change Function.update t.session.channels p (some (t.leave ch h')) q = some chq at hchq
    rcases eq_or_ne q p with rfl | hne
    · rw [Function.update_self] at hhd hchq
      obtain rfl := Option.some.inj hhd
      obtain rfl := Option.some.inj hchq
      exact hserved
    · rw [Function.update_of_ne hne] at hhd hchq
      have hs : Served md5Hex (t.detach p ch h e h') q hd _ :=
        (hinv.served hhd hchq).more [] List.prefix_rfl id (Function.update_of_ne hne _ _)
          (Function.update_of_ne hne _ _) (hother fun heq => hne (Option.some.inj heq).symm)
      simpa only [List.append_nil] using hs
  · intro q hnone
    change Function.update t.handlers p (some h') q = none at hnone
    rcases eq_or_ne q p with rfl | hne
    · rw [Function.update_self] at hnone
      cases hnone
    · rw [Function.update_of_ne hne] at hnone
      obtain ⟨hrecord, hbuf, hq⟩ := hinv.unserved hnone
      exact ⟨(Function.update_of_ne hne _ _).trans hrecord,
        (Function.update_of_ne hne _ _).trans hbuf,
        (hother fun heq => hne (Option.some.inj heq).symm).trans hq⟩
  · exact (hother (Option.some_ne_none p)).trans hinv.loop
  · show (t.queued ++ _).map Prod.snd = t.wire ++ h'.relay.writeChannel
    rw [map_snd_append, hinv.wire, hchannel, List.append_assoc]

theorem preserves_inv :
    Preserves step (fun _ _ => True) (Inv md5Hex padding input) := by
  intro t e t' h _ hstep
  cases e with
  | session e =>
    simp only [step] at hstep
    split at hstep
    · rename_i hloop
      obtain ⟨s, hs, rfl⟩ := Option.map_eq_some_iff.mp hstep
      exact h.moved (Session.moves_of_step hs) (drives_of_step hs hloop)
    · cases hstep
  | stream p e =>
    simp only [step] at hstep
    split at hstep
    · rename_i hd ch hhd hch
      split at hstep
      · rename_i hown
        obtain ⟨h', hh', rfl⟩ := Option.map_eq_some_iff.mp hstep
        exact h.detach hhd hch hown hh'
      · cases hstep
    · cases hstep
  | write =>
    simp only [step] at hstep
    split at hstep
    · rename_i f fs hchannel
      split at hstep
      · obtain rfl := Option.some.inj hstep
        refine ⟨h.session, h.answered, h.frames, h.tasks, fun hhd hch => ?_, h.unserved, h.loop,
          ?_⟩
        · have hs := h.served hhd hch
          exact ⟨hs.opened, hs.alive, hs.took, hs.there, hs.sends, hs.writes, hs.queued⟩
        · rw [h.wire, hchannel, List.append_assoc]
          rfl
      · cases hstep
    · cases hstep

theorem inv_of_run {es : List MuxEvent} {t : Mux}
    (h : run step (init padding input) es = some t) : Inv md5Hex padding input t :=
  Reachable.invariant preserves_inv (inv_init padding input) ⟨es, h⟩

/-! ## What a stream of the client gets to its target -/

/-- The payloads of more frames begin with those of fewer. -/
theorem payloads_prefix {sid : UInt32} {fs gs : List Frame} (h : fs <+: gs) :
    payloads sid fs <+: payloads sid gs := by
  obtain ⟨more, rfl⟩ := h
  by_cases hends : ∃ g ∈ fs, g.Ends sid
  · rw [payloads_append_of_ended hends]
  · rw [payloads_append_of_open fun g hg hg' => hends ⟨g, hg, hg'⟩]
    exact List.prefix_append _ _

/-- What was sent into a channel are payloads of its stream. -/
theorem sent_prefix {t : Mux} (h : Inv md5Hex padding input t) {p : Nat} {syn : Frame}
    {ch : Channel} (hsyn : t.session.handled[p]? = some syn)
    (hch : t.session.channels p = some ch) :
    ch.sent.flatten <+: (payloads syn.streamId (t.session.handled.drop (p + 1))).flatten := by
  have hheard : ch.heard t.session.handled <+: t.session.handled := by
    unfold Channel.heard
    split
    · exact List.prefix_rfl
    · exact List.take_prefix _ _
  have hsent := h.session.demuxed.sent hsyn hch
  rw [← List.flatten_filter_ne_nil]
  change (nonEmpty ch.sent).flatten <+: _
  rw [hsent]
  have hpayloads : payloads syn.streamId _ <+: payloads syn.streamId _ :=
    payloads_prefix (hheard.drop (p + 1))
  exact hpayloads.flatten

end Mux

variable {sha256 : Bytes → Vector UInt8 32} {password : String} {client : Bytes} {t₀ : Mux}
  {padding : PaddingScheme} {input : Bytes}

/-- **Uplink.**  In every run of a connection, the client has sent the digest of the password.
A task connects to a target only for a SYN behind SETTINGS, and only to the target of the
address at the front of the payloads of its stream; what it gives to the target are the
payloads behind that. -/
theorem run_uplink {es : List MuxEvent} {t : Mux}
    (hconn : handleConn sha256 password padding client = some t₀)
    (h : run Mux.step t₀ es = some t) :
    ∃ len padding0 rest, client = (sha256 (asBytes password)).toList ++ (u16ToBe len ++
        (padding0 ++ rest)) ∧ padding0.length = len.toNat ∧
      t.session.handled ++ t.session.loop.current ++ framesOf t.session.input = framesOf rest ∧
      ∀ p, ((t.record p).dialed = none → (t.record p).toTarget = []) ∧
        ∀ target, (t.record p).dialed = some target →
          ∃ syn head, t.session.handled[p]? = some syn ∧ OpenedAt t.session.handled p ∧
            IsAddress head target ∧ head ++ (t.record p).toTarget <+:
              (payloads syn.streamId (t.session.handled.drop (p + 1))).flatten := by
  obtain ⟨rest, hauth, rfl⟩ := Option.map_eq_some_iff.mp hconn
  obtain ⟨len, padding0, hclient, hlen⟩ := authenticate_eq_some.mp hauth
  have hinv := @Mux.inv_of_run (fun _ => "") _ _ _ _ h
  refine ⟨len, padding0, rest, hclient, hlen, hinv.frames, fun p => ?_⟩
  cases hh : t.handlers p with
  | none =>
    obtain ⟨hrecord, -, -⟩ := hinv.unserved hh
    rw [hrecord]
    exact ⟨fun _ => rfl, nofun⟩
  | some hd =>
    have htask := hinv.tasks p
    rw [hh, Option.isSome_some, eq_comm, Option.isSome_iff_exists] at htask
    obtain ⟨ch, hch⟩ := htask
    have hserved := hinv.served hh hch
    obtain ⟨took, htook, hpre, -⟩ := hserved.took
    obtain ⟨syn, hsyn, -⟩ := hserved.opened
    refine ⟨htook.quiet, fun target htarget => ?_⟩
    obtain ⟨head, haddress, rfl⟩ := htook.dialed target htarget
    refine ⟨syn, head, hsyn, (hinv.session.demuxed.opened p).mp (by rw [hch]; rfl), haddress, ?_⟩
    exact hpre.trans (Mux.sent_prefix hinv hsyn hch)

/-- SETTINGS, SYN of stream 1, PSH with `127.0.0.1:80` and the byte 9. -/
def dialStream : Bytes :=
  [4, 0, 0, 0, 0, 0, 0, 1, 0, 0, 0, 1, 0, 0, 2, 0, 0, 0, 1, 0, 8, 1, 127, 0, 0, 1, 0, 80, 9]

/-- The stream is opened, dials, and reads the byte behind its address. -/
def dialRun : List MuxEvent :=
  [.session .read, .session .read, .session .read, .session .send, .stream 1 .address,
    .stream 1 (.connect .connected), .stream 1 (.relay (.locked .up)),
    .stream 1 (.relay .upRead)]

/-- The byte 9 for `127.0.0.1:80`. -/
theorem run_uplink_dialRun : ∃ t₀ t,
    handleConn (fun _ => Vector.replicate 32 0) "" ⟨[], ""⟩ (List.replicate 34 0 ++ dialStream) =
      some t₀ ∧ run Mux.step t₀ dialRun = some t ∧ ∃ head, IsAddress head "127.0.0.1:80" ∧
        head ++ [9] <+: (payloads 1 (t.session.handled.drop 2)).flatten := by
  have hconn : handleConn (fun _ => Vector.replicate 32 0) "" ⟨[], ""⟩
      (List.replicate 34 0 ++ dialStream) = some (Mux.init ⟨[], ""⟩ dialStream) := rfl
  have hrun : (run Mux.step (Mux.init ⟨[], ""⟩ dialStream) dialRun).map (fun t =>
      ((t.record 1).dialed, (t.record 1).toTarget, t.session.handled[1]?)) =
        some (some "127.0.0.1:80", [9], some ⟨1, 1, []⟩) := by
    decide +kernel
  obtain ⟨t, ht, hfields⟩ := Option.map_eq_some_iff.mp hrun
  simp only [Prod.mk.injEq] at hfields
  obtain ⟨hdialed, htarget, hhandled⟩ := hfields
  obtain ⟨len, padding0, rest, -, -, -, hall⟩ := run_uplink hconn ht
  obtain ⟨syn, head, hsyn, -, haddress, hpre⟩ := (hall 1).2 _ hdialed
  obtain rfl := Option.some.inj (hsyn.symm.trans hhandled)
  rw [htarget] at hpre
  exact ⟨_, t, hconn, ht, head, haddress, hpre⟩

/-! ## What a target gets back to its client -/

/-- The frame has data or the end of a stream with the id. -/
def Frame.IsFor (sid : UInt32) (f : Frame) : Prop :=
  f.streamId = sid ∧ (f.cmd = cmdPsh ∨ f.cmd = cmdFin)

instance (sid : UInt32) (f : Frame) : Decidable (f.IsFor sid) :=
  inferInstanceAs (Decidable (_ ∧ _))

/-- What is queued of a stream, by its end. -/
theorem Relay.Sent.cases {s : Relay} {fromTarget : Bytes} (h : s.Sent fromTarget) :
    ∃ chunks, chunks.flatten <+: fromTarget ∧ (s.queued = pushes s.streamId chunks ∨
      (s.queued = pushes s.streamId chunks ++ [⟨cmdFin, s.streamId, []⟩] ∧
        chunks.flatten = fromTarget)) := by
  obtain ⟨chunks, h⟩ := h
  refine ⟨chunks, ?_⟩
  split at h
  · obtain ⟨hqueued, rfl⟩ := h
    exact ⟨List.prefix_rfl, .inl hqueued⟩
  · obtain ⟨hqueued, rfl⟩ := h
    exact ⟨List.prefix_append _ _, .inl hqueued⟩
  · obtain ⟨hqueued, rfl⟩ := h
    exact ⟨List.prefix_append _ _, .inl hqueued⟩
  · exact ⟨h.2.1, .inl h.1⟩
  · exact ⟨h.2.1, .inl h.1⟩
  · rcases h with ⟨hqueued, hpre⟩ | ⟨hqueued, rfl⟩
    · exact ⟨hpre, .inl hqueued⟩
    · exact ⟨List.prefix_rfl, .inr ⟨hqueued, rfl⟩⟩

/-- All of it is data or the end of the stream. -/
theorem Relay.Sent.isFor {s : Relay} {fromTarget : Bytes} (h : s.Sent fromTarget) {f : Frame}
    (hf : f ∈ s.queued) : f.IsFor s.streamId := by
  obtain ⟨chunks, -, hqueued | ⟨hqueued, -⟩⟩ := h.cases
  · rw [hqueued] at hf
    obtain ⟨data, -, rfl⟩ := List.mem_map.mp hf
    exact ⟨rfl, .inl rfl⟩
  · rw [hqueued] at hf
    rcases List.mem_append.mp hf with hf | hf
    · obtain ⟨data, -, rfl⟩ := List.mem_map.mp hf
      exact ⟨rfl, .inl rfl⟩
    · obtain rfl := List.mem_singleton.mp hf
      exact ⟨rfl, .inr rfl⟩

namespace Mux

/-- Who has queued a frame: the loop, which answers, or the task of a stream. -/
theorem source_cases {t : Mux} (h : Inv md5Hex padding input t) {source : Option Nat} {f : Frame}
    (hf : (source, f) ∈ t.queued) :
    (source = none ∧ ∃ before g, f ∈ answersTo padding before g) ∨
      ∃ q hd ch, source = some q ∧ t.handlers q = some hd ∧ t.session.channels q = some ch ∧
        Served md5Hex t q hd ch ∧ f ∈ hd.relay.queued := by
  have hby : f ∈ framesBy source t.queued :=
    List.mem_map.mpr ⟨_, List.mem_filter.mpr ⟨hf, decide_eq_true rfl⟩, rfl⟩
  cases source with
  | none =>
    rw [h.loop] at hby
    obtain ⟨before, g, -, -, hg⟩ := mem_answersFrom.mp (h.answered.prefix_answers.subset hby)
    exact .inl ⟨rfl, _, g, hg⟩
  | some q =>
    cases hh : t.handlers q with
    | none =>
      rw [(h.unserved hh).2.2] at hby
      cases hby
    | some hd =>
      have htask := h.tasks q
      rw [hh, Option.isSome_some, eq_comm, Option.isSome_iff_exists] at htask
      obtain ⟨ch, hch⟩ := htask
      have hserved := h.served hh hch
      rw [hserved.queued] at hby
      exact .inr ⟨q, hd, ch, rfl, hh, hch, hserved, hby⟩

/-- The frames for an id that was opened once are those of its stream. -/
theorem filter_isFor {t : Mux} (h : Inv md5Hex padding input t) {p : Nat} {syn : Frame}
    (hsyn : t.session.handled[p]? = some syn)
    (honce : ∀ q syn', t.session.handled[q]? = some syn' → syn'.cmd = cmdSyn →
      syn'.streamId = syn.streamId → q = p) :
    (t.queued.map Prod.snd).filter (Frame.IsFor syn.streamId) = framesBy (some p) t.queued := by
  rw [List.filter_map, framesBy]
  congr 1
  refine List.filter_congr fun ⟨source, f⟩ hf => ?_
  rw [Function.comp_apply, decide_eq_decide]
  rcases source_cases h hf with ⟨rfl, before, g, hg⟩ | ⟨q, hd, ch, rfl, hh, hch, hserved, hqueued⟩
  · refine iff_of_false ?_ (fun heq => nomatch heq)
    rintro ⟨-, hcmd | hcmd⟩
    · exact (answer_rest hg).1.1 hcmd
    · exact (answer_rest hg).1.2 hcmd
  · obtain ⟨syn', hsyn', hid⟩ := hserved.opened
    have hfor := hserved.sends.sent.isFor hqueued
    obtain ⟨g, hg, hcmd, -⟩ := (h.session.demuxed.opened q).mp (by rw [hch]; rfl)
    obtain rfl := Option.some.inj (hsyn'.symm.trans hg)
    constructor
    · intro hmine
      exact congrArg some (honce q syn' hsyn' hcmd (hid.trans (hfor.1.symm.trans hmine.1)))
    · intro heq
      obtain rfl := Option.some.inj heq
      obtain rfl := Option.some.inj (hsyn'.symm.trans hsyn)
      exact ⟨hfor.1.trans hid.symm, hfor.2⟩

/-- The client reads back what the writer task has written. -/
theorem framesOf_wire {t : Mux} (h : Inv md5Hex padding input t)
    (hshort : padding.raw.length < 65536) :
    framesOf (writerOutput t.wire) = t.wire := by
  refine (framesOf_writerOutput_iff _).mpr fun f hf => ?_
  have hmem : f ∈ t.queued.map Prod.snd := by
    rw [h.wire]
    exact List.mem_append_left _ hf
  obtain ⟨⟨source, f⟩, hqueued, rfl⟩ := List.mem_map.mp hmem
  rcases source_cases h hqueued with ⟨-, before, g, hg⟩ | ⟨q, hd, ch, -, -, -, hserved, hf⟩
  · exact (answer_rest hg).2 hshort
  · have hfor := hserved.sends.sent.isFor hf
    refine (hserved.writes.queued f hf).length_lt fun hcmd => ?_
    rcases hfor.2 with heq | heq
    · exact absurd (heq.symm.trans hcmd) (by decide)
    · exact absurd (heq.symm.trans hcmd) (by decide)

end Mux

/-- **Downlink.**  In every run of a connection, the data frames that the client reads with the
id of a stream, which it has opened once, are what the target of that stream sent, in order
and without what others sent; a FIN is behind all of it, and nothing is behind a FIN. -/
theorem run_downlink {es : List MuxEvent} {t : Mux} (hshort : padding.raw.length < 65536)
    (h : run Mux.step (Mux.init padding input) es = some t) {p : Nat} {syn : Frame}
    (hsyn : t.session.handled[p]? = some syn) (hopen : OpenedAt t.session.handled p)
    (honce : ∀ q syn', t.session.handled[q]? = some syn' → syn'.cmd = cmdSyn →
      syn'.streamId = syn.streamId → q = p) :
    ∃ chunks, chunks.flatten <+: (t.record p).fromTarget ∧
      ((framesOf (writerOutput t.wire)).filter (Frame.IsFor syn.streamId) =
          pushes syn.streamId chunks ∨
        ((framesOf (writerOutput t.wire)).filter (Frame.IsFor syn.streamId) =
            pushes syn.streamId chunks ++ [⟨cmdFin, syn.streamId, []⟩] ∧
          chunks.flatten = (t.record p).fromTarget)) := by
  have hinv := @Mux.inv_of_run (fun _ => "") _ _ _ _ h
  have hch := (hinv.session.demuxed.opened p).mpr hopen
  have hh := hinv.tasks p
  rw [hch, Option.isSome_iff_exists] at hh
  rw [Option.isSome_iff_exists] at hch
  obtain ⟨hd, hh⟩ := hh
  obtain ⟨ch, hch⟩ := hch
  have hserved := hinv.served hh hch
  obtain ⟨syn', hsyn', hid⟩ := hserved.opened
  obtain rfl := Option.some.inj (hsyn'.symm.trans hsyn)
  have hpre : t.wire.filter (Frame.IsFor syn'.streamId) <+: hd.relay.queued := by
    rw [← hserved.queued, ← Mux.filter_isFor hinv hsyn honce, hinv.wire]
    exact (List.prefix_append _ _).filter _
  rw [Mux.framesOf_wire hinv hshort]
  obtain ⟨chunks, hchunks, hqueued | ⟨hqueued, hall⟩⟩ := hserved.sends.sent.cases
  · rw [hqueued, ← hid, pushes, List.prefix_map_iff] at hpre
    obtain ⟨front, hfront, heq⟩ := hpre
    exact ⟨front, hfront.flatten.trans hchunks, .inl heq⟩
  · rw [hqueued, ← hid, List.prefix_concat_iff] at hpre
    rcases hpre with heq | hpre
    · exact ⟨chunks, hchunks, .inr ⟨heq, hall⟩⟩
    · rw [pushes, List.prefix_map_iff] at hpre
      obtain ⟨front, hfront, heq⟩ := hpre
      exact ⟨front, hfront.flatten.trans hchunks, .inl heq⟩

/-- `hi` for the client. -/
theorem run_downlink_hi : ∃ t, run Mux.step (Mux.init ⟨[], ""⟩ dialStream)
    (dialRun ++ [.stream 1 (.relay (.downRead (some [104, 105]))),
      .stream 1 (.relay (.locked .down)), .stream 1 (.relay .downSent), .write]) = some t ∧
      ∃ chunks, chunks.flatten <+: [104, 105] ∧
        ((framesOf (writerOutput t.wire)).filter (Frame.IsFor 1) = pushes 1 chunks ∨
          ((framesOf (writerOutput t.wire)).filter (Frame.IsFor 1) =
              pushes 1 chunks ++ [⟨cmdFin, 1, []⟩] ∧ chunks.flatten = [104, 105])) := by
  have hrun : (run Mux.step (Mux.init ⟨[], ""⟩ dialStream)
      (dialRun ++ [.stream 1 (.relay (.downRead (some [104, 105]))),
        .stream 1 (.relay (.locked .down)), .stream 1 (.relay .downSent), .write])).map (fun t =>
      ((t.record 1).fromTarget, t.session.handled)) =
        some ([104, 105],
          [⟨4, 0, []⟩, ⟨1, 1, []⟩, ⟨2, 1, [1, 127, 0, 0, 1, 0, 80, 9]⟩]) := by
    decide +kernel
  obtain ⟨t, ht, hfields⟩ := Option.map_eq_some_iff.mp hrun
  simp only [Prod.mk.injEq] at hfields
  obtain ⟨hfrom, hhandled⟩ := hfields
  refine ⟨t, ht, ?_⟩
  have hopen : OpenedAt t.session.handled 1 := by
    rw [hhandled]
    exact ⟨_, rfl, rfl, ⟨4, 0, []⟩, List.mem_singleton_self _, rfl⟩
  have honce : ∀ q (syn' : Frame), t.session.handled[q]? = some syn' → syn'.cmd = cmdSyn →
      syn'.streamId = 1 → q = 1 := by
    intro q syn' hsyn' hcmd _
    rw [hhandled] at hsyn'
    rcases q with _ | _ | _ | q
    · cases hsyn'
      exact absurd hcmd (by decide)
    · rfl
    · cases hsyn'
      exact absurd hcmd (by decide)
    · cases hsyn'
  have hdown := @run_downlink ⟨[], ""⟩ dialStream _ t (by decide) ht 1 ⟨1, 1, []⟩
    (by rw [hhandled]; rfl) hopen honce
  rwa [hfrom] at hdown

end Ruproxy.AnyTls
