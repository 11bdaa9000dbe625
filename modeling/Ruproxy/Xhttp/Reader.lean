/-
  Xhttp/Reader.lean --- the read side of `XhttpStream`.

  `poll_read` takes bytes from what an earlier call left over, from the packet
  that is next in sequence, or from the upload channel; packets that come early
  wait in a heap.  The heap of the standard library gives an entry with the least
  number; it is a list in ascending order here.  The write side is left out.
-/
import Mathlib.Data.List.Sort
import Ruproxy.Foundation.Transition
import Ruproxy.Xhttp.Session

set_option autoImplicit false

namespace Ruproxy.Xhttp

open Ruproxy.Foundation

/-- `PktEntry`. -/
structure PktEntry where
  seq : UInt64
  data : Bytes
  deriving DecidableEq

/-- `BinaryHeap<Reverse<PktEntry>>`, the entry on top first. -/
abbrev PktHeap : Type := List PktEntry

/-- `BinaryHeap::push`. -/
def PktHeap.push (heap : PktHeap) (e : PktEntry) : PktHeap :=
  heap.orderedInsert (fun a b => a.seq ≤ b.seq) e

/-- `PktQueue`. -/
structure PktQueue where
  heap : PktHeap
  nextSeq : UInt64
  leftover : Bytes
  deriving DecidableEq

/-- The upload channel as its receiver sees it: what is queued, and whether all senders
are gone. -/
structure UploadChannel where
  queue : List UploadPacket
  closed : Bool
  deriving DecidableEq

/-- `XhttpStream`. -/
structure XhttpStream where
  upRx : UploadChannel
  pktQueue : PktQueue
  streamBuf : Bytes
  eof : Bool
  deriving DecidableEq

/-- What `poll_read` returns; `ready` has the bytes put into the buffer. -/
inductive PollRead where
  | pending
  | ready (data : Bytes)
  deriving DecidableEq

namespace XhttpStream

/-- `XhttpStream::new`. -/
def new (upRx : UploadChannel) : XhttpStream where
  upRx := upRx
  pktQueue := { heap := [], nextSeq := 0, leftover := [] }
  streamBuf := []
  eof := false

/-- A turn of the loop of `poll_read` that returns before it polls the channel, with the
bytes for a buffer with room for `remaining` bytes. -/
def readBuffered (s : XhttpStream) (remaining : Nat) : Option (PollRead × XhttpStream) :=
  let q := s.pktQueue
  if q.leftover ≠ [] then
    some (.ready (q.leftover.take remaining),
      { s with pktQueue := { q with leftover := q.leftover.drop remaining } })
  else if s.streamBuf ≠ [] then
    some (.ready (s.streamBuf.take remaining),
      { s with streamBuf := s.streamBuf.drop remaining })
  else
    match q.heap with
    | top :: heap =>
        if top.seq = q.nextSeq then
          some (.ready (top.data.take remaining), { s with pktQueue :=
            { heap := heap, nextSeq := q.nextSeq + 1,
              leftover := q.leftover ++ top.data.drop remaining } })
        else if s.eof then some (.ready [], s)
        else none
    | [] => if s.eof then some (.ready [], s) else none

/-- `up_rx.poll_recv` took a packet. -/
def dequeued (s : XhttpStream) (queue : List UploadPacket) : XhttpStream :=
  { s with upRx := { s.upRx with queue := queue } }

/-- The loop of `poll_read`; the list is what is queued in the channel of the stream. -/
def pollLoop (remaining : Nat) : List UploadPacket → XhttpStream → PollRead × XhttpStream
  | [], s =>
      match s.readBuffered remaining with
      | some r => r
      | none => if s.upRx.closed then (.ready [], { s with eof := true }) else (.pending, s)
  | pkt :: queue, s =>
      match s.readBuffered remaining with
      | some r => r
      | none =>
          let s := s.dequeued queue
          match pkt with
          | .chunk data =>
              (.ready (data.take remaining),
                { s with streamBuf := s.streamBuf ++ data.drop remaining })
          | .packet seq data =>
              pollLoop remaining queue { s with pktQueue :=
                { s.pktQueue with heap := s.pktQueue.heap.push ⟨seq, data⟩ } }
          | .eof => (.ready [], { s with eof := true })

/-- `XhttpStream::poll_read` into a buffer with room for `remaining` bytes. -/
def pollRead (s : XhttpStream) (remaining : Nat) : PollRead × XhttpStream :=
  pollLoop remaining s.upRx.queue s

end XhttpStream

/-! ## A stream and its senders -/

/-- What happens to a stream next. -/
inductive StreamEvent where
  /-- a sender puts a packet into the channel -/
  | arrive (pkt : UploadPacket)
  /-- the last sender goes away -/
  | hangUp
  /-- the consumer polls with a buffer with room for `remaining` bytes -/
  | read (remaining : Nat)
  deriving DecidableEq

/-- A stream and all bytes its consumer was given. -/
structure Upstream where
  stream : XhttpStream
  returned : Bytes
  deriving DecidableEq

namespace Upstream

/-- A fresh stream. -/
def init : Upstream := { stream := .new { queue := [], closed := false }, returned := [] }

/-- One step; nothing arrives after the last sender went away. -/
def step (u : Upstream) : StreamEvent → Option Upstream
  | .arrive pkt =>
      if u.stream.upRx.closed then none
      else
        some { u with stream :=
          { u.stream with upRx := { u.stream.upRx with queue := u.stream.upRx.queue ++ [pkt] } } }
  | .hangUp =>
      some { u with stream :=
        { u.stream with upRx := { u.stream.upRx with closed := true } } }
  | .read remaining =>
      match u.stream.pollRead remaining with
      | (.pending, s) => some { u with stream := s }
      | (.ready data, s) => some { stream := s, returned := u.returned ++ data }

end Upstream

end Ruproxy.Xhttp
