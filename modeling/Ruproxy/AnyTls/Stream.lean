/-
  AnyTls/Stream.lean --- `StreamConn` of `anytls/session.rs` and the relay of
  `handle_stream` in `anytls/server.rs`.

  `tokio::join!` runs the two halves of a relay as one task, so a half moves from
  one `await` to the next in one step.  Both use the stream behind a mutex, which
  is fair: it is the queue of those that hold or want it, and its head holds it.
  The session loop delivers chunks at one end of the stream; all streams of a
  session share the channel to its writer task.

  The relay starts with the stream as the address and the connect have left it.
  `queued` is not in the source: it records the frames the stream has put on the
  write channel.
-/
import Ruproxy.Foundation.Bytes
import Ruproxy.Foundation.Transition

set_option autoImplicit false

namespace Ruproxy.AnyTls

open Ruproxy.Foundation

/-- `CMD_PSH`. -/
def cmdPsh : UInt8 := 2
/-- `CMD_FIN`. -/
def cmdFin : UInt8 := 3

/-- What a stream sends to the writer task of its session. -/
structure Frame where
  cmd : UInt8
  streamId : UInt32
  data : Bytes
  deriving DecidableEq

/-- The capacity of the channel of a stream. -/
def streamCapacity : Nat := 64
/-- The capacity of the write channel of a session. -/
def writeCapacity : Nat := 256
/-- The size of the buffers of `handle_stream`. -/
def bufferSize : Nat := 32 * 1024

/-! ## The stream -/

/-- The reading side of `StreamConn`. -/
structure StreamConn where
  rx : List Bytes
  /-- the session loop still has the sender of `rx` -/
  rxOpen : Bool
  buf : Bytes
  deriving DecidableEq

namespace StreamConn

/-- `StreamConn::read` into `len` bytes: what it returns, or `none` while it waits in
`rx.recv`. -/
def read (s : StreamConn) (len : Nat) : Option (Bytes × StreamConn) :=
  if s.buf ≠ [] then some (s.buf.take len, { s with buf := s.buf.drop len })
  else
    match s.rx with
    | [] => if s.rxOpen then none else some ([], s)
    -- an empty chunk is the end of the stream
    | [] :: rx => some ([], { s with rx := rx })
    | data :: rx => some (data.take len, { s with rx := rx, buf := data.drop len })

/-- A `read` waits exactly on an open stream with nothing queued. -/
theorem read_eq_none_iff (s : StreamConn) (len : Nat) :
    s.read len = none ↔ s.buf = [] ∧ s.rx = [] ∧ s.rxOpen = true := by
  unfold read
  by_cases hbuf : s.buf = []
  · rw [if_neg (not_not.mpr hbuf)]
    split <;> simp [*]
  · simp [hbuf]

end StreamConn

/-! ## The relay -/

/-- The two futures of the `join!`. -/
inductive Half where
  | up
  | down
  deriving DecidableEq

/-- The uplink, by the `await` it is at. -/
inductive Uplink where
  | locking
  /-- `s.read`, with the lock -/
  | reading
  /-- `out_w.write_all` -/
  | writing (data : Bytes)
  /-- `out_w.shutdown` -/
  | closing
  | done
  deriving DecidableEq

/-- The downlink, by the `await` it is at. -/
inductive Downlink where
  /-- `out_r.read` -/
  | reading
  | locking (data : Bytes)
  /-- `s.write`, with the lock -/
  | sending (data : Bytes)
  | finLocking
  /-- `s.close`, with the lock -/
  | finSending
  | done
  deriving DecidableEq

/-- The bytes of the upstream server that the downlink has not passed on. -/
def Downlink.holding : Downlink → Option Bytes
  | .locking data | .sending data => some data
  | _ => none

/-- A running `handle_stream`, with the write channel of its session. -/
structure Relay where
  streamId : UInt32
  conn : StreamConn
  /-- the mutex around the stream; its head holds it -/
  lockQueue : List Half
  uplink : Uplink
  downlink : Downlink
  writeChannel : List Frame
  /-- the writer task still has the receiver -/
  writerAlive : Bool
  queued : List Frame

/-- What happens next. -/
inductive Event where
  /-- the session loop reads a PSH frame of the stream -/
  | push (data : Bytes)
  /-- the session loop reads a FIN frame of the stream, or ends -/
  | fin
  /-- the session loop reads another SYN for the stream id -/
  | replaced
  /-- a half is given the lock it waits for -/
  | locked (h : Half)
  /-- the `read` of the uplink returns -/
  | upRead
  /-- the upstream server took the bytes, or the connection broke -/
  | upWritten (ok : Bool)
  | upShutdown
  /-- the upstream server sent bytes, or its end or an error -/
  | downRead (data : Option Bytes)
  /-- the `send` of the downlink returns -/
  | downSent
  /-- another stream, or the session loop, queues a frame -/
  | otherFrame (f : Frame)
  /-- the writer task takes a frame -/
  | write
  /-- the writer task breaks -/
  | writerBreaks

namespace Relay

/-- The start of the `join!`: the uplink takes the lock, the downlink reads. -/
def start (streamId : UInt32) (conn : StreamConn) (writeChannel : List Frame)
    (writerAlive : Bool) : Relay where
  streamId := streamId
  conn := conn
  lockQueue := [.up]
  uplink := .locking
  downlink := .reading
  writeChannel := writeChannel
  writerAlive := writerAlive
  queued := []

/-- The stream puts a frame on the write channel. -/
def send (s : Relay) (f : Frame) : Relay :=
  { s with writeChannel := s.writeChannel ++ [f], queued := s.queued ++ [f] }

/-- One step; `none` where the event cannot happen. -/
def step (s : Relay) : Event → Option Relay
  | .push data =>
      if s.conn.rxOpen ∧ s.conn.rx.length < streamCapacity then
        some { s with conn := { s.conn with rx := s.conn.rx ++ [data] } }
      else none
  | .fin =>
      if s.conn.rxOpen ∧ s.conn.rx.length < streamCapacity then
        some { s with conn := { s.conn with rx := s.conn.rx ++ [[]], rxOpen := false } }
      else none
  | .replaced => some { s with conn := { s.conn with rxOpen := false } }
  | .locked .up =>
      if s.uplink = .locking ∧ s.lockQueue.head? = some .up then
        some { s with uplink := .reading }
      else none
  | .locked .down =>
      if s.lockQueue.head? = some .down then
        match s.downlink with
        | .locking data => some { s with downlink := .sending data }
        | .finLocking => some { s with downlink := .finSending }
        | _ => none
      else none
  | .upRead =>
      match s.uplink with
      | .reading =>
          match s.conn.read bufferSize with
          | none => none
          | some ([], conn) =>
              some { s with conn := conn, lockQueue := s.lockQueue.tail, uplink := .closing }
          | some (data, conn) =>
              some { s with conn := conn, lockQueue := s.lockQueue.tail, uplink := .writing data }
      | _ => none
  | .upWritten ok =>
      match s.uplink with
      | .writing _ =>
          if ok then some { s with lockQueue := s.lockQueue ++ [.up], uplink := .locking }
          else some { s with uplink := .closing }
      | _ => none
  | .upShutdown => if s.uplink = .closing then some { s with uplink := .done } else none
  | .downRead data =>
      match s.downlink with
      | .reading =>
          match data with
          | some (b :: bs) =>
              if (b :: bs).length ≤ bufferSize then
                some { s with
                  lockQueue := s.lockQueue ++ [.down]
                  downlink := .locking (b :: bs) }
              else none
          | _ => some { s with lockQueue := s.lockQueue ++ [.down], downlink := .finLocking }
      | _ => none
  | .downSent =>
      match s.downlink with
      | .sending data =>
          if s.writerAlive = false then
            -- the lock is given back and wanted again for `close`
            some { s with lockQueue := s.lockQueue.tail ++ [.down], downlink := .finLocking }
          else if s.writeChannel.length < writeCapacity then
            some { s.send ⟨cmdPsh, s.streamId, data⟩ with
              lockQueue := s.lockQueue.tail
              downlink := .reading }
          else none
      | .finSending =>
          if s.writerAlive = false then
            some { s with lockQueue := s.lockQueue.tail, downlink := .done }
          else if s.writeChannel.length < writeCapacity then
            some { s.send ⟨cmdFin, s.streamId, []⟩ with
              lockQueue := s.lockQueue.tail
              downlink := .done }
          else none
      | _ => none
  | .otherFrame f =>
      if s.writerAlive ∧ s.writeChannel.length < writeCapacity then
        some { s with writeChannel := s.writeChannel ++ [f] }
      else none
  | .write =>
      match s.writeChannel with
      | _ :: fs => if s.writerAlive then some { s with writeChannel := fs } else none
      | [] => none
  | .writerBreaks => some { s with writerAlive := false }

end Relay

end Ruproxy.AnyTls
