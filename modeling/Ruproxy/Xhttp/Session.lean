/-
  Xhttp/Session.lean --- the session table of `common/transport/xhttp.rs`.

  GET and POST handlers, the TTL task of every session and the consumers of the
  streams interleave freely.  A task moves from one `await` to the next: what
  `get_or_create_session` does under the map lock and what a handler does under a
  session lock has no `await` in it and is one step, possible while the lock is
  free.  Only the expiry of a session waits (for room in the upload channel) while
  it holds locks.  It takes both and tries to send without giving way, since no
  one else holds a session lock across an `await`; that is one step as well.

  A session is known by the number of its creation, which stands for the `Arc`.
  `answers` is not in the source: it records, for every packet-up POST that was
  answered 200, where the packet was put and which streams were held then.  The
  order and the capacity of the queue of ready streams, `stream-one` requests
  (which have no session) and the downlink data are left out.
-/
import Ruproxy.Foundation.Bytes
import Ruproxy.Foundation.Table
import Ruproxy.Foundation.Transition

set_option autoImplicit false

namespace Ruproxy.Xhttp

open Ruproxy.Foundation

/-- `UploadPacket`. -/
inductive UploadPacket where
  | chunk (data : Bytes)
  | packet (seq : UInt64) (data : Bytes)
  | eof
  deriving DecidableEq

/-- The capacity of an upload channel. -/
def upCapacity : Nat := 64

/-- A session object, by the order of creation. -/
abbrev SessionRef : Type := Nat

/-- A request that is being served. -/
abbrev TaskId : Type := Nat

/-- Where the receiver of an upload channel is. -/
inductive Receiver where
  /-- in `Session::up_rx` -/
  | inSession
  /-- in the stream of a GET handler that waits in `ready_tx.send` -/
  | withGet
  /-- in the stream that waits for `accept` -/
  | queued
  /-- in the stream its consumer holds -/
  | held
  /-- dropped -/
  | dropped
  deriving DecidableEq

/-- The TTL task of a session. -/
inductive TtlTask where
  /-- `timeout(30 s, get_arrived.notified())` -/
  | waitingGet (deadline : Nat)
  /-- timed out, waits for the map -/
  | expired
  /-- holds the map and the session it removed, waits for room for `Eof` -/
  | sendingEof (target : SessionRef)
  /-- `sleep(300 s)` after the GET -/
  | lingering (deadline : Nat)
  /-- slept, waits for the map -/
  | removing
  | done
  deriving DecidableEq

/-- `Session` with its upload channel, and the TTL task that was spawned for it. -/
structure Session where
  sid : String
  /-- the mutex is held across an `await` -/
  locked : Bool
  up : List UploadPacket
  upRx : Receiver
  /-- `down_rx` is `None` -/
  downTaken : Bool
  /-- the permit of `get_arrived` -/
  getArrived : Bool
  ttl : TtlTask
  deriving DecidableEq

/-- What a POST uploads: a stream, or one packet with its parsed sequence number. -/
inductive Upload where
  | streamUp
  | packetUp (seq : Option UInt64)
  deriving DecidableEq

/-- A request that is being served, by the `await` it is at.  A GET that waits in
`ready_tx.send` only owns its stream and is told by `Receiver.withGet`. -/
inductive Request where
  | getLookup (sid : String)
  | getLocking (g : SessionRef)
  | postLookup (sid : String) (upload : Upload)
  | postLocking (sid : String) (g : SessionRef) (upload : Upload)
  /-- `body.collect` of a packet-up POST -/
  | collecting (sid : String) (g : SessionRef) (seq : UInt64)
  /-- `up_tx.send` of a packet-up POST -/
  | sending (sid : String) (g : SessionRef) (seq : UInt64) (data : Bytes)
  /-- the task of a stream-up POST at `body.frame` -/
  | streamReading (g : SessionRef)
  /-- the task of a stream-up POST at `up_tx.send` -/
  | streamSending (g : SessionRef) (data : Bytes)
  deriving DecidableEq

/-- A packet-up POST that was answered 200: its session id, the session whose channel
took the packet, and the streams of that session id that were held. -/
structure Answer where
  sid : String
  put : Option SessionRef
  held : List SessionRef
  deriving DecidableEq

/-- `ServerInner` and the tasks that work on it. -/
structure Server where
  map : Table String SessionRef
  /-- the session whose TTL task holds the lock of `sessions` across an `await` -/
  mapHolder : Option SessionRef
  sessions : SessionRef → Option Session
  nextSession : Nat
  requests : Table TaskId Request
  now : Nat
  answers : List Answer

/-- What happens next. -/
inductive Event where
  | get (t : TaskId) (sid : String)
  | post (t : TaskId) (sid : String) (upload : Upload)
  /-- a handler gets the map and finds or creates its session -/
  | lookup (t : TaskId)
  /-- a handler gets the lock of its session -/
  | lock (t : TaskId)
  /-- the body of a packet-up POST was collected, or failed -/
  | collected (t : TaskId) (body : Option Bytes)
  /-- a waiting `up_tx.send` returns -/
  | send (t : TaskId)
  /-- a stream-up POST reads a frame, or the end or an error -/
  | frame (t : TaskId) (data : Option Bytes)
  /-- the connection of a request breaks and its handler is dropped -/
  | cancel (t : TaskId)
  /-- the ready queue takes the stream of a GET, which is answered 200 -/
  | ready (g : SessionRef)
  | accept (g : SessionRef)
  /-- the consumer of a stream receives an item -/
  | consume (g : SessionRef)
  /-- the consumer of a stream drops it, or the handler that built it is dropped -/
  | dropStream (g : SessionRef)
  /-- a TTL task learns that the GET arrived -/
  | notified (g : SessionRef)
  /-- a TTL task times out -/
  | expire (g : SessionRef)
  /-- a TTL task wakes from its sleep -/
  | lingerEnd (g : SessionRef)
  /-- a TTL task gets the map and removes its session id -/
  | takeMap (g : SessionRef)
  /-- the waiting `Eof` of a TTL task is sent -/
  | eofSent (g : SessionRef)
  | wait (ms : Nat)

/-- The limit a session waits for its GET, in milliseconds. -/
def getTimeout : Nat := 30 * 1000
/-- The time a session stays after its GET, in milliseconds. -/
def lingerTime : Nat := 300 * 1000

namespace Server

/-- `XhttpServer::new`. -/
def init : Server where
  map := ∅
  mapHolder := none
  sessions _ := none
  nextSession := 0
  requests := ∅
  now := 0
  answers := []

/-- A request goes on. -/
def setRequest (s : Server) (t : TaskId) (r : Request) : Server :=
  { s with requests := s.requests.insert t r }

/-- A request ends. -/
def endRequest (s : Server) (t : TaskId) : Server :=
  { s with requests := s.requests.erase t }

/-- A session changes. -/
def setSession (s : Server) (g : SessionRef) (x : Session) : Server :=
  { s with sessions := Function.update s.sessions g (some x) }

/-- `get_or_create_session` under the map lock. -/
def getOrCreateSession (s : Server) (sid : String) : Server × SessionRef :=
  match s.map.lookup sid with
  | some g => (s, g)
  | none =>
      let g := s.nextSession
      let x : Session :=
        { sid := sid, locked := false, up := [], upRx := .inSession, downTaken := false,
          getArrived := false, ttl := .waitingGet (s.now + getTimeout) }
      ({ s with
          map := s.map.insert sid g
          sessions := Function.update s.sessions g (some x)
          nextSession := g + 1 }, g)

/-- Someone holds an `Arc` of the session: the map, a handler that is about to lock it,
or the TTL task that removed it. -/
def referenced (s : Server) (g : SessionRef) (x : Session) : Bool :=
  s.map.lookup x.sid = some g ||
  s.requests.entries.any (fun e => match e.2 with
    | .getLocking g' | .postLocking _ g' _ => g' = g
    | _ => false) ||
  match s.mapHolder.bind s.sessions with
  | some y => y.ttl = .sendingEof g
  | none => false

/-- The upload channel is closed: its receiver was dropped, on its own or with the
session. -/
def closed (s : Server) (g : SessionRef) (x : Session) : Bool :=
  x.upRx = .dropped || (x.upRx = .inSession && !s.referenced g x)

/-- The sessions of a session id whose stream its consumer holds. -/
def heldStreams (s : Server) (sid : String) : List SessionRef :=
  (List.range s.nextSession).filter fun g =>
    match s.sessions g with
    | some x => x.sid = sid && x.upRx = .held
    | none => false

/-- A packet-up POST is answered 200. -/
def answer (s : Server) (t : TaskId) (sid : String) (put : Option SessionRef) : Server :=
  { s.endRequest t with
    answers := s.answers ++ [{ sid := sid, put := put, held := s.heldStreams sid }] }

/-- `handle_get` under the session lock; a second GET is answered 409. -/
def serveGet (s : Server) (t : TaskId) (g : SessionRef) (x : Session) : Server :=
  match x.upRx with
  | .inSession =>
      if x.downTaken then (s.setSession g { x with upRx := .dropped }).endRequest t
      else
        (s.setSession g
          { x with upRx := .withGet, downTaken := true, getArrived := true }).endRequest t
  | _ => s.endRequest t

/-- `handle_post` with the sender of its session. -/
def servePost (s : Server) (t : TaskId) (sid : String) (g : SessionRef) : Upload → Server
  | .streamUp => s.setRequest t (.streamReading g)
  | .packetUp (some seq) => s.setRequest t (.collecting sid g seq)
  -- an invalid sequence number is answered 400
  | .packetUp none => s.endRequest t

/-- The TTL task of session `k` is over and gives the map back. -/
def ttlDone (s : Server) (k : SessionRef) : Server :=
  match s.sessions k with
  | some x => { s.setSession k { x with ttl := .done } with mapHolder := none }
  | none => s

/-- The expiry of session `k`, from the map lock to the first attempt to send `Eof`. -/
def expireSession (s : Server) (k : SessionRef) (x : Session) : Option Server :=
  let s' := { s with map := s.map.erase x.sid }
  match s.map.lookup x.sid with
  | none => some (s'.ttlDone k)
  | some g =>
      match s.sessions g with
      | none => none
      | some y =>
          if y.upRx = .dropped then some (s'.ttlDone k)
          else if y.up.length < upCapacity then
            some ((s'.setSession g { y with up := y.up ++ [.eof] }).ttlDone k)
          else
            let s' := s'.setSession g { y with locked := true }
            match s'.sessions k with
            | some x =>
                some { s'.setSession k { x with ttl := .sendingEof g } with
                  mapHolder := some k }
            | none => none

/-- One step of the server; `none` where the event cannot happen. -/
def step (s : Server) : Event → Option Server
  | .get t sid =>
      if (s.requests.lookup t).isSome then none else some (s.setRequest t (.getLookup sid))
  | .post t sid upload =>
      if (s.requests.lookup t).isSome then none
      else some (s.setRequest t (.postLookup sid upload))
  | .lookup t =>
      if s.mapHolder ≠ none then none
      else
        match s.requests.lookup t with
        | some (.getLookup sid) =>
            let (s, g) := s.getOrCreateSession sid
            some (s.setRequest t (.getLocking g))
        | some (.postLookup sid upload) =>
            let (s, g) := s.getOrCreateSession sid
            some (s.setRequest t (.postLocking sid g upload))
        | _ => none
  | .lock t =>
      match s.requests.lookup t with
      | some (.getLocking g) =>
          match s.sessions g with
          | some x => if x.locked then none else some (s.serveGet t g x)
          | none => none
      | some (.postLocking sid g upload) =>
          match s.sessions g with
          | some x => if x.locked then none else some (s.servePost t sid g upload)
          | none => none
      | _ => none
  | .collected t body =>
      match s.requests.lookup t with
      | some (.collecting sid g seq) =>
          match body with
          | some data => some (s.setRequest t (.sending sid g seq data))
          | none => some (s.answer t sid none)
      | _ => none
  | .send t =>
      match s.requests.lookup t with
      | some (.sending sid g seq data) =>
          match s.sessions g with
          | some x =>
              if s.closed g x then some (s.answer t sid none)
              else if x.up.length < upCapacity then
                some ((s.setSession g { x with up := x.up ++ [.packet seq data] }).answer t sid
                  (some g))
              else none
          | none => none
      | some (.streamSending g data) =>
          match s.sessions g with
          | some x =>
              if s.closed g x then some (s.endRequest t)
              else if x.up.length < upCapacity then
                some ((s.setSession g { x with up := x.up ++ [.chunk data] }).setRequest t
                  (.streamReading g))
              else none
          | none => none
      | _ => none
  | .frame t data =>
      match s.requests.lookup t with
      | some (.streamReading g) =>
          match data with
          | some data => some (s.setRequest t (.streamSending g data))
          | none => some (s.endRequest t)
      | _ => none
  | .cancel t =>
      match s.requests.lookup t with
      -- the task of a stream-up POST was spawned and is not dropped
      | some (.streamReading _) | some (.streamSending _ _) => none
      | some _ => some (s.endRequest t)
      | none => none
  | .ready g =>
      match s.sessions g with
      | some x =>
          if x.upRx = .withGet then some (s.setSession g { x with upRx := .queued }) else none
      | none => none
  | .accept g =>
      match s.sessions g with
      | some x => if x.upRx = .queued then some (s.setSession g { x with upRx := .held }) else none
      | none => none
  | .consume g =>
      match s.sessions g with
      | some x =>
          match x.upRx, x.up with
          | .held, _ :: up => some (s.setSession g { x with up := up })
          | _, _ => none
      | none => none
  | .dropStream g =>
      match s.sessions g with
      | some x =>
          if x.upRx = .held ∨ x.upRx = .withGet then
            some (s.setSession g { x with upRx := .dropped })
          else none
      | none => none
  | .notified g =>
      match s.sessions g with
      | some x =>
          match x.ttl with
          | .waitingGet _ =>
              if x.getArrived then
                some (s.setSession g
                  { x with getArrived := false, ttl := .lingering (s.now + lingerTime) })
              else none
          | _ => none
      | none => none
  | .expire g =>
      match s.sessions g with
      | some x =>
          match x.ttl with
          | .waitingGet deadline =>
              -- `timeout` polls the notification before the clock
              if deadline ≤ s.now ∧ x.getArrived = false then
                some (s.setSession g { x with ttl := .expired })
              else none
          | _ => none
      | none => none
  | .lingerEnd g =>
      match s.sessions g with
      | some x =>
          match x.ttl with
          | .lingering deadline =>
              if deadline ≤ s.now then some (s.setSession g { x with ttl := .removing }) else none
          | _ => none
      | none => none
  | .takeMap k =>
      if s.mapHolder ≠ none then none
      else
        match s.sessions k with
        | some x =>
            match x.ttl with
            | .expired => s.expireSession k x
            | .removing => some ({ s with map := s.map.erase x.sid }.ttlDone k)
            | _ => none
        | none => none
  | .eofSent k =>
      match s.sessions k with
      | some x =>
          match x.ttl with
          | .sendingEof g =>
              match s.sessions g with
              | some y =>
                  if y.upRx = .dropped then
                    some ((s.setSession g { y with locked := false }).ttlDone k)
                  else if y.up.length < upCapacity then
                    some ((s.setSession g
                      { y with up := y.up ++ [.eof], locked := false }).ttlDone k)
                  else none
              | none => none
          | _ => none
      | none => none
  | .wait ms => some { s with now := s.now + ms }

end Server

end Ruproxy.Xhttp
