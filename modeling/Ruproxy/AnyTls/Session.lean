/-
  AnyTls/Session.lean --- the read loop of `run_server_session`.

  The loop takes one frame after the other from the connection and sends the data
  of PSH frames into the channels of the streams; it waits where a channel is
  full.  The other ends of the channels are in the `StreamConn`s, whose tasks read
  from them and drop them at any time.

  A stream instance is named by how many frames were handled before its SYN.
  `handled`, `sent` and `droppedAt` are not in the source: the frames the loop is
  done with, what was sent into a channel, and when its receiver was dropped.
  Waiting for room in the write channel is not a step of its own.
-/
import Ruproxy.AnyTls.Stream
import Ruproxy.Foundation.Table
import Ruproxy.Foundation.Text

set_option autoImplicit false

namespace Ruproxy.AnyTls

open Ruproxy.Foundation

/-! ## Frames -/

/-- `CMD_WASTE`. -/
def cmdWaste : UInt8 := 0
/-- `CMD_SYN`. -/
def cmdSyn : UInt8 := 1
/-- `CMD_SETTINGS`. -/
def cmdSettings : UInt8 := 4
/-- `CMD_ALERT`. -/
def cmdAlert : UInt8 := 5
/-- `CMD_UPDATE_PADDING`. -/
def cmdUpdatePadding : UInt8 := 6
/-- `CMD_SYNACK`. -/
def cmdSynack : UInt8 := 7
/-- `CMD_HEART_REQUEST`. -/
def cmdHeartRequest : UInt8 := 8
/-- `CMD_HEART_RESPONSE`. -/
def cmdHeartResponse : UInt8 := 9
/-- `CMD_SERVER_SETTINGS`. -/
def cmdServerSettings : UInt8 := 10

/-- `HEADER_SIZE`. -/
def headerSize : Nat := 7

/-- The two `read_exact` calls for a frame, `none` where one of them fails. -/
def readFrame (input : Bytes) : Option (Frame × Bytes) :=
  match readExact headerSize input with
  | none => none
  | some (hdr, input) =>
      let cmd := hdr.getD 0 0
      let sid := u32OfBe (hdr.getD 1 0) (hdr.getD 2 0) (hdr.getD 3 0) (hdr.getD 4 0)
      let dlen := (u16OfBe (hdr.getD 5 0) (hdr.getD 6 0)).toNat
      (readExact dlen input).map fun r => (⟨cmd, sid, r.1⟩, r.2)

theorem length_lt_of_readFrame {input rest : Bytes} {f : Frame}
    (h : readFrame input = some (f, rest)) : rest.length < input.length := by
  unfold readFrame at h
  split at h
  · cases h
  · rename_i hdr input' hhdr
    obtain ⟨rfl, hlen⟩ := readExact_eq_some.mp hhdr
    obtain ⟨⟨data, rest'⟩, hdata, heq⟩ := Option.map_eq_some_iff.mp h
    obtain ⟨rfl, -⟩ := readExact_eq_some.mp hdata
    cases heq
    simp only [List.length_append, hlen, headerSize]
    omega

/-- The frames of a connection, up to a truncated one. -/
def framesOf (input : Bytes) : List Frame :=
  match _h : readFrame input with
  | none => []
  | some (f, rest) => f :: framesOf rest
termination_by input.length
decreasing_by exact length_lt_of_readFrame _h

/-- `parse_kv`. -/
def parseKv (data : Bytes) : Table String String :=
  match fromUtf8 data with
  | none => ∅
  | some s =>
      (linesOf s).foldl (fun map line =>
        match splitOnce '=' line with
        | some (k, v) => map.insert (trim k) (trim v)
        | none => map) ∅

/-- The fields of `PaddingScheme` that the session uses. -/
structure PaddingScheme where
  raw : Bytes
  md5Hex : String
  deriving DecidableEq

/-! ## The session -/

/-- The channel of a stream instance. -/
structure Channel where
  queue : List Bytes
  sent : List Bytes
  /-- how many frames had been handled when the receiver was dropped -/
  droppedAt : Option Nat
  deriving DecidableEq

/-- Where the read loop is. -/
inductive ReadLoop where
  /-- at the next frame -/
  | reading
  /-- in `tx.send` for a PSH frame -/
  | pushing (stream : Nat) (f : Frame)
  /-- in `tx.send` for a FIN frame -/
  | finishing (stream : Nat) (f : Frame)
  /-- after the loop, with the streams that were not told yet -/
  | draining (rest : List Nat)
  deriving DecidableEq

/-- The locals of `run_server_session`, its connection and the channels of its streams. -/
structure Session where
  padding : PaddingScheme
  input : Bytes
  streams : Table UInt32 Nat
  channels : Nat → Option Channel
  peerVersion : UInt8
  receivedSettings : Bool
  loop : ReadLoop
  /-- the writer task still has the receiver -/
  writerAlive : Bool
  /-- what the loop put on the write channel -/
  written : List Frame
  handled : List Frame

/-- What happens next. -/
inductive SessionEvent where
  /-- the loop reads a frame, or meets the end of the connection -/
  | read
  /-- the connection breaks -/
  | readError
  /-- a `tx.send` returns -/
  | send
  /-- the task of a stream takes a chunk -/
  | recv (stream : Nat)
  /-- the task of a stream drops its `StreamConn` -/
  | drop (stream : Nat)
  /-- the writer task breaks -/
  | writerBreaks
  deriving DecidableEq

namespace Session

/-- The start of the loop. -/
def init (padding : PaddingScheme) (input : Bytes) : Session where
  padding := padding
  input := input
  streams := ∅
  channels _ := none
  peerVersion := 1
  receivedSettings := false
  loop := .reading
  writerAlive := true
  written := []
  handled := []

/-- `write_tx.send`; it fails unnoticed when the writer task is gone. -/
def reply (s : Session) (f : Frame) : Session :=
  if s.writerAlive then { s with written := s.written ++ [f] } else s

/-- A reply, sent or not, changes nothing but what is written. -/
theorem ite_reply_eq (c : Prop) [Decidable c] (s : Session) (f : Frame) :
    ∃ w, (if c then s.reply f else s) = { s with written := w } := by
  unfold reply
  split
  · split
    · exact ⟨_, rfl⟩
    · exact ⟨s.written, rfl⟩
  · exact ⟨s.written, rfl⟩

theorem reply_eq (s : Session) (f : Frame) : ∃ w, s.reply f = { s with written := w } := by
  simpa using ite_reply_eq True s f

/-- The loop goes on with the next frame. -/
def next (s : Session) (f : Frame) : Session :=
  { s with loop := .reading, handled := s.handled ++ [f] }

section
variable (s : Session) (f : Frame)

@[simp] theorem next_input : (s.next f).input = s.input := rfl
@[simp] theorem next_streams : (s.next f).streams = s.streams := rfl
@[simp] theorem next_channels : (s.next f).channels = s.channels := rfl
@[simp] theorem next_receivedSettings : (s.next f).receivedSettings = s.receivedSettings := rfl
@[simp] theorem next_loop : (s.next f).loop = .reading := rfl
@[simp] theorem next_handled : (s.next f).handled = s.handled ++ [f] := rfl

end

/-- The loop ends, and `streams.drain` begins. -/
def close (s : Session) : Session :=
  { s with loop := .draining (s.streams.entries.map fun e => e.2), streams := ∅ }

/-- The arm of SETTINGS. -/
def settings (s : Session) (data : Bytes) : Session :=
  let settings := parseKv data
  let peerVersion := ((settings.lookup "v").bind parseU8).getD s.peerVersion
  let s := { s with receivedSettings := true, peerVersion := peerVersion }
  let clientMd5 := (settings.lookup "padding-md5").getD ""
  let s :=
    if clientMd5 ≠ s.padding.md5Hex then s.reply ⟨cmdUpdatePadding, 0, s.padding.raw⟩ else s
  if 2 ≤ peerVersion then s.reply ⟨cmdServerSettings, 0, asBytes "v=2"⟩ else s

theorem settings_eq (s : Session) (data : Bytes) : ∃ v w, s.settings data =
    { s with receivedSettings := true, peerVersion := v, written := w } := by
  unfold settings
  dsimp only
  generalize (((parseKv data).lookup "v").bind parseU8).getD s.peerVersion = v
  obtain ⟨w, hw⟩ := ite_reply_eq
    (((parseKv data).lookup "padding-md5").getD "" ≠ s.padding.md5Hex)
    { s with receivedSettings := true, peerVersion := v } ⟨cmdUpdatePadding, 0, s.padding.raw⟩
  rw [hw]
  obtain ⟨w', hw'⟩ := ite_reply_eq (2 ≤ v) _ _
  exact ⟨v, w', hw'⟩

/-- A new stream instance. -/
def openStream (s : Session) (sid : UInt32) : Session :=
  let s := { s with
    streams := s.streams.insert sid s.handled.length
    channels := Function.update s.channels s.handled.length (some ⟨[], [], none⟩) }
  if 2 ≤ s.peerVersion then s.reply ⟨cmdSynack, sid, []⟩ else s

theorem openStream_eq (s : Session) (sid : UInt32) : ∃ w, s.openStream sid =
    { s with
      streams := s.streams.insert sid s.handled.length
      channels := Function.update s.channels s.handled.length (some ⟨[], [], none⟩)
      written := w } := by
  obtain ⟨w, hw⟩ := ite_reply_eq (2 ≤ s.peerVersion) _ _
  exact ⟨w, hw⟩

/-- The `match` on the command, up to the `tx.send` of a PSH or FIN frame. -/
def dispatch (s : Session) (f : Frame) : Session :=
  if f.cmd = cmdWaste then s.next f
  else if f.cmd = cmdSettings then (s.settings f.data).next f
  else if f.cmd = cmdSyn then
    if s.receivedSettings then (s.openStream f.streamId).next f
    else
      let msg := asBytes "client did not send its settings before opening a stream"
      ((s.reply ⟨cmdAlert, 0, msg⟩).next f).close
  else if f.cmd = cmdPsh then
    match s.streams.lookup f.streamId with
    | some stream => { s with loop := .pushing stream f }
    | none => s.next f
  else if f.cmd = cmdFin then
    match s.streams.lookup f.streamId with
    | some stream =>
        { s with streams := s.streams.erase f.streamId, loop := .finishing stream f }
    | none => s.next f
  else if f.cmd = cmdHeartRequest then (s.reply ⟨cmdHeartResponse, f.streamId, []⟩).next f
  else if f.cmd = cmdHeartResponse then s.next f
  else if f.cmd = cmdAlert then (s.next f).close
  else s.next f

/-- `tx.send`: whether it succeeded, or `none` while the channel is full. -/
def trySend (s : Session) (stream : Nat) (data : Bytes) : Option (Bool × Session) :=
  match s.channels stream with
  | none => none
  | some ch =>
      if ch.droppedAt.isSome then some (false, s)
      else if ch.queue.length < streamCapacity then
        let ch := { ch with queue := ch.queue ++ [data], sent := ch.sent ++ [data] }
        some (true, { s with channels := Function.update s.channels stream (some ch) })
      else none

/-- A `tx.send` fails without a receiver, or puts the data into a channel that has one. -/
theorem trySend_cases {s s' : Session} {stream : Nat} {data : Bytes} {ok : Bool}
    (h : s.trySend stream data = some (ok, s')) :
    ∃ ch, s.channels stream = some ch ∧
      ((ok = false ∧ ch.droppedAt ≠ none ∧ s' = s) ∨
        (ok = true ∧ ch.droppedAt = none ∧ s' = { s with
          channels := Function.update s.channels stream
            (some { ch with queue := ch.queue ++ [data], sent := ch.sent ++ [data] }) })) := by
  unfold trySend at h
  cases hch : s.channels stream with
  | none => simp [hch] at h
  | some ch =>
    simp only [hch] at h
    refine ⟨ch, rfl, ?_⟩
    split at h
    · rename_i hgone
      cases h
      exact .inl ⟨rfl, Option.isSome_iff_ne_none.mp hgone, rfl⟩
    · rename_i hthere
      split at h
      · cases h
        exact .inr ⟨rfl, Option.not_isSome_iff_eq_none.mp hthere, rfl⟩
      · cases h

/-- One step; `none` where the event cannot happen. -/
def step (s : Session) : SessionEvent → Option Session
  | .read =>
      match s.loop with
      | .reading =>
          match readFrame s.input with
          | some (f, input) => some ({ s with input := input }.dispatch f)
          | none => some s.close
      | _ => none
  | .readError =>
      match s.loop with
      | .reading => some s.close
      | _ => none
  | .send =>
      match s.loop with
      | .pushing stream f =>
          match s.trySend stream f.data with
          | some (true, s) => some (s.next f)
          -- the receiver is gone
          | some (false, s) =>
              some ({ s with streams := s.streams.erase f.streamId }.next f)
          | none => none
      | .finishing stream f => (s.trySend stream []).map fun r => r.2.next f
      | .draining (stream :: rest) =>
          (s.trySend stream []).map fun r => { r.2 with loop := .draining rest }
      | _ => none
  | .recv stream =>
      match s.channels stream with
      | some ch =>
          match ch.queue with
          | _ :: queue =>
              if ch.droppedAt.isSome then none
              else
                let ch := { ch with queue := queue }
                some { s with channels := Function.update s.channels stream (some ch) }
          | [] => none
      | none => none
  | .drop stream =>
      match s.channels stream with
      | some ch =>
          if ch.droppedAt.isSome then none
          else
            let ch := { ch with queue := [], droppedAt := some s.handled.length }
            some { s with channels := Function.update s.channels stream (some ch) }
      | none => none
  | .writerBreaks => some { s with writerAlive := false }

/-- What a step does, by where the loop is. -/
inductive Moves (s : Session) : Session → Prop where
  | reads {f : Frame} {input : Bytes} (hloop : s.loop = .reading)
      (hread : readFrame s.input = some (f, input)) :
      Moves s ({ s with input := input }.dispatch f)
  | ends (hloop : s.loop = .reading) : Moves s s.close
  | pushes {stream : Nat} {f : Frame} {s' : Session} (hloop : s.loop = .pushing stream f)
      (hsend : s.trySend stream f.data = some (true, s')) : Moves s (s'.next f)
  | removes {stream : Nat} {f : Frame} {s' : Session} (hloop : s.loop = .pushing stream f)
      (hsend : s.trySend stream f.data = some (false, s')) :
      Moves s ({ s' with streams := s'.streams.erase f.streamId }.next f)
  | finishes {stream : Nat} {f : Frame} {ok : Bool} {s' : Session}
      (hloop : s.loop = .finishing stream f)
      (hsend : s.trySend stream [] = some (ok, s')) : Moves s (s'.next f)
  | drains {stream : Nat} {rest : List Nat} {ok : Bool} {s' : Session}
      (hloop : s.loop = .draining (stream :: rest))
      (hsend : s.trySend stream [] = some (ok, s')) :
      Moves s { s' with loop := .draining rest }
  | receives {stream : Nat} {ch : Channel} {queue : List Bytes}
      (hch : s.channels stream = some ch) (hthere : ch.droppedAt = none) :
      Moves s { s with
        channels := Function.update s.channels stream (some { ch with queue := queue }) }
  | drops {stream : Nat} {ch : Channel}
      (hch : s.channels stream = some ch) (hthere : ch.droppedAt = none) :
      Moves s { s with
        channels := Function.update s.channels stream
          (some { ch with queue := [], droppedAt := some s.handled.length }) }
  | breaks : Moves s { s with writerAlive := false }

theorem moves_of_step {s s' : Session} {e : SessionEvent} (h : s.step e = some s') :
    s.Moves s' := by
  cases e with
  | read =>
    simp only [step] at h
    split at h
    · rename_i hloop
      split at h
      · rename_i hread
        cases h
        exact .reads hloop hread
      · cases h
        exact .ends hloop
    · cases h
  | readError =>
    simp only [step] at h
    split at h
    · rename_i hloop
      cases h
      exact .ends hloop
    · cases h
  | send =>
    simp only [step] at h
    split at h
    · rename_i hloop
      split at h
      · rename_i hsend
        cases h
        exact .pushes hloop hsend
      · rename_i hsend
        cases h
        exact .removes hloop hsend
      · cases h
    · rename_i hloop
      obtain ⟨⟨ok, t⟩, hsend, rfl⟩ := Option.map_eq_some_iff.mp h
      exact .finishes hloop hsend
    · rename_i hloop
      obtain ⟨⟨ok, t⟩, hsend, rfl⟩ := Option.map_eq_some_iff.mp h
      exact .drains hloop hsend
    · cases h
  | recv stream =>
    simp only [step] at h
    split at h
    · rename_i hch
      split at h
      · split at h
        · cases h
        · rename_i hthere
          cases h
          exact .receives hch (Option.not_isSome_iff_eq_none.mp hthere)
      · cases h
    · cases h
  | drop stream =>
    simp only [step] at h
    split at h
    · rename_i hch
      split at h
      · cases h
      · rename_i hthere
        cases h
        exact .drops hch (Option.not_isSome_iff_eq_none.mp hthere)
    · cases h
  | writerBreaks =>
    cases h
    exact .breaks

end Session

end Ruproxy.AnyTls
