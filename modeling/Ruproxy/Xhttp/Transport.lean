/-
  Xhttp/Transport.lean --- the downlink of a session, and the ends of its channels.

  Beside the session table stand here the queue of the downlink channel of every
  session, whether the body of the answer to its GET still takes from it, and what
  the stream of the session has buffered.  A channel is closed for its receiver when
  no sender is left.  The session record keeps a sender of either channel; the stream
  has one of the downlink, and a POST one of the upload channel.
  `upEnded` is not in the source: it tells the sessions for which a stream-up POST has
  come to the end of its body.
-/
import Ruproxy.Xhttp.Reader

set_option autoImplicit false

namespace Ruproxy.Xhttp

open Ruproxy.Foundation

/-! ## The downlink -/

/-- The capacity of a downlink channel. -/
def downCapacity : Nat := 64

/-- The downlink channel as its receiver sees it: what is queued, and whether all senders
are gone. -/
structure DownChannel where
  queue : List Bytes
  closed : Bool
  deriving DecidableEq

/-- `ResponseBody`. -/
inductive ResponseBody where
  | empty
  | stream (rx : DownChannel)
  deriving DecidableEq

/-- What `poll_frame` returns: `ready` has the next frame, or `none` at the end. -/
inductive PollFrame where
  | pending
  | ready (frame : Option Bytes)
  deriving DecidableEq

/-- `ResponseBody::poll_frame`. -/
def ResponseBody.pollFrame : ResponseBody → PollFrame × ResponseBody
  | .empty => (.ready none, .empty)
  | .stream rx =>
      match rx.queue with
      | data :: queue => (.ready (some data), .stream { rx with queue := queue })
      | [] => if rx.closed then (.ready none, .stream rx) else (.pending, .stream rx)

/-- What waits for the body. -/
def ResponseBody.queue : ResponseBody → List Bytes
  | .empty => []
  | .stream rx => rx.queue

/-- What `poll_write` returns; `ready` has the number of bytes that were taken. -/
inductive PollWrite where
  | pending
  | ready (n : Nat)
  | brokenPipe (text : String)
  deriving DecidableEq

/-- `XhttpStream::poll_write` onto a downlink channel, whose receiver may be gone. -/
def pollWrite (queue : List Bytes) (receiver : Bool) (buf : Bytes) : PollWrite × List Bytes :=
  if receiver = false then (.brokenPipe "xhttp downlink closed", queue)
  else if queue.length < downCapacity then (.ready buf.length, queue ++ [buf])
  else (.pending, queue)

/-! ## Who holds a sender -/

/-- The session whose `up_tx` a request has cloned. -/
def Request.upTx : Request → Option SessionRef
  | .collecting _ g _ | .sending _ g _ _ | .streamReading g | .streamSending g _ => some g
  | _ => none

namespace Server

/-- Someone holds an `Arc` of the session; a GET handler does so until it answers. -/
def recordHeld (s : Server) (g : SessionRef) (x : Session) : Bool :=
  s.referenced g x || x.upRx = .withGet

/-- A sender of the downlink channel is alive: in the record, or in the stream. -/
def downSender (s : Server) (g : SessionRef) (x : Session) : Bool :=
  s.recordHeld g x || (x.upRx = .withGet || x.upRx = .queued || x.upRx = .held)

/-- A sender of the upload channel is alive: in the record, or with a POST. -/
def upSender (s : Server) (g : SessionRef) (x : Session) : Bool :=
  s.recordHeld g x || s.requests.entries.any fun e => e.2.upTx = some g

end Server

/-! ## The transport -/

/-- What the stream of a session holds beside its channels. -/
structure ReadState where
  pktQueue : PktQueue
  streamBuf : Bytes
  eof : Bool
  deriving DecidableEq

/-- The stream with its upload channel. -/
def ReadState.stream (r : ReadState) (up : UploadChannel) : XhttpStream where
  upRx := up
  pktQueue := r.pktQueue
  streamBuf := r.streamBuf
  eof := r.eof

/-- What a stream holds beside its channels. -/
def XhttpStream.readState (s : XhttpStream) : ReadState where
  pktQueue := s.pktQueue
  streamBuf := s.streamBuf
  eof := s.eof

/-- The session table with the downlinks and the streams. -/
structure Transport where
  server : Server
  /-- what is queued in the downlink channel -/
  down : SessionRef → List Bytes
  /-- the GET was answered, and the body of the answer is not dropped -/
  body : SessionRef → Bool
  reads : SessionRef → ReadState
  upEnded : SessionRef → Bool

/-- What happens next. -/
inductive TransportEvent where
  | server (e : Event)
  /-- the consumer of a stream writes -/
  | write (g : SessionRef) (buf : Bytes)
  /-- the consumer of a stream polls it with a buffer with room for `remaining` bytes -/
  | read (g : SessionRef) (remaining : Nat)
  /-- hyper polls the body of the answer to a GET -/
  | pollFrame (g : SessionRef)
  /-- hyper drops that body -/
  | dropBody (g : SessionRef)

namespace Transport

/-- `XhttpServer::new`. -/
def init : Transport where
  server := .init
  down _ := []
  body _ := false
  reads _ := (XhttpStream.new { queue := [], closed := false }).readState
  upEnded _ := false

/-- The stream of a session. -/
def stream (w : Transport) (g : SessionRef) (x : Session) : XhttpStream :=
  (w.reads g).stream { queue := x.up, closed := !w.server.upSender g x }

/-- The body of the answer to the GET of a session. -/
def responseBody (w : Transport) (g : SessionRef) (x : Session) : ResponseBody :=
  .stream { queue := w.down g, closed := !w.server.downSender g x }

/-- The sessions with an ended stream-up POST, after one has read a frame or the end. -/
def endedBy (w : Transport) (t : TaskId) (data : Option Bytes) : SessionRef → Bool :=
  match w.server.requests.lookup t, data with
  | some (.streamReading g), none => Function.update w.upEnded g true
  | _, _ => w.upEnded

/-- One step of the transport; `none` where the event cannot happen. -/
def step (w : Transport) : TransportEvent → Option Transport
  | .server e =>
      match e with
      | .consume _ => none
      | .ready g => (w.server.step e).map fun s =>
          { w with server := s, body := Function.update w.body g true }
      | .frame t data => (w.server.step e).map fun s =>
          { w with server := s, upEnded := w.endedBy t data }
      | _ => (w.server.step e).map fun s => { w with server := s }
  | .write g buf =>
      match w.server.sessions g with
      | some x =>
          if x.upRx = .held then
            some { w with down :=
              Function.update w.down g (pollWrite (w.down g) (w.body g) buf).2 }
          else none
      | none => none
  | .read g remaining =>
      match w.server.sessions g with
      | some x =>
          if x.upRx = .held then
            let (_, r) := (w.stream g x).pollRead remaining
            some { w with
              server := w.server.setSession g { x with up := r.upRx.queue }
              reads := Function.update w.reads g r.readState }
          else none
      | none => none
  | .pollFrame g =>
      match w.server.sessions g with
      | some x =>
          if w.body g then
            some { w with down :=
              Function.update w.down g (w.responseBody g x).pollFrame.2.queue }
          else none
      | none => none
  | .dropBody g =>
      if w.body g then
        some { w with
          body := Function.update w.body g false
          down := Function.update w.down g [] }
      else none

end Transport

end Ruproxy.Xhttp
