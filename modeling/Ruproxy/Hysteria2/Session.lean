/-
  Hysteria2/Session.lean --- `handle_udp_session`, the two tasks of a UDP session.

  The main loop relays the frames that the datagram loop sends into the channel of
  the session; the task it spawns sends what comes back on the socket to the client.
  Each waits under a timer of its own, which starts anew with each turn of its loop.

  Time is counted in milliseconds from when the session was spawned.  A timer that has
  run out may be noticed late, but not early.  `forwarded` and `relayed` are not in the
  source: what was handed to the socket, and to the QUIC connection.
-/
import Ruproxy.Foundation.Transition
import Ruproxy.Hysteria2.Reassembly

set_option autoImplicit false

namespace Ruproxy.Hysteria2

open Ruproxy.Foundation

/-- `UDP_IDLE_TIMEOUT`, in milliseconds. -/
def udpIdleTimeout : Nat := 60 * 1000
/-- The capacity of the channel of a session. -/
def sessionCapacity : Nat := 256

/-- Where `handle_udp_session` is. -/
inductive SessionMain where
  /-- in `UdpSocket::bind` -/
  | binding
  /-- in `relay_frame` for the first frame -/
  | relayingFirst
  /-- in `rx.recv`, until the deadline -/
  | waiting (deadline : Nat)
  /-- in `relay_frame` for a frame of the channel -/
  | relaying
  /-- it has returned, and its receiver is gone -/
  | returned
  deriving DecidableEq

/-- Where `recv_task` is. -/
inductive ReceiveTask where
  | unspawned
  /-- in `sock_recv.recv_from`, until the deadline -/
  | waiting (deadline : Nat)
  | ended
  deriving DecidableEq

/-- The locals of `handle_udp_session` and of its receive task. -/
structure UdpSession where
  sessionId : UInt32
  firstFrame : UdpFrame
  now : Nat
  main : SessionMain
  receive : ReceiveTask
  /-- what is in `rx` -/
  queue : List UdpFrame
  fragTable : Table UInt16 FragBuffer
  packetIdCounter : UInt16
  forwarded : List Datagram
  relayed : List Bytes

/-- What happens next to a session. -/
inductive SessionEvent where
  /-- time passes -/
  | elapse (ms : Nat)
  /-- the datagram loop sends a frame into the channel -/
  | deliver (frame : UdpFrame)
  | bound
  | bindError
  /-- `relay_frame` returns -/
  | forwarded
  /-- `rx.recv` returns a frame -/
  | recv
  /-- `rx.recv` returns `None` -/
  | closed
  /-- the timer of the main loop -/
  | idle
  /-- a datagram from a remote host, sent to the client -/
  | reply (src : SocketAddr) (data : Bytes)
  /-- a datagram from a remote host, of which only some frames are sent to the client -/
  | replyError (src : SocketAddr) (data : Bytes) (sent : Nat)
  /-- `recv_from` fails -/
  | recvError
  /-- the timer of the receive task -/
  | receiveIdle

/-- How long it takes. -/
def SessionEvent.ms : SessionEvent → Nat
  | .elapse ms => ms
  | _ => 0

/-- What ends the receive task alone: an error, or its timer. -/
def SessionEvent.EndsReceive : SessionEvent → Prop
  | .replyError .. | .recvError | .receiveIdle => True
  | _ => False

namespace UdpSession

/-- A spawned `handle_udp_session`. -/
def init (sessionId : UInt32) (firstFrame : UdpFrame) : UdpSession where
  sessionId := sessionId
  firstFrame := firstFrame
  now := 0
  main := .binding
  receive := .unspawned
  queue := []
  fragTable := ∅
  packetIdCounter := 0
  forwarded := []
  relayed := []

/-- `relay_frame`, up to the end of its `send_to`. -/
def relay (s : UdpSession) (frame : UdpFrame) : UdpSession :=
  let r := relayFrame s.fragTable frame
  { s with fragTable := r.1, forwarded := s.forwarded ++ r.2.toList }

/-- The end of `handle_udp_session`, with `recv_task.abort`. -/
def finish (s : UdpSession) : UdpSession :=
  { s with main := .returned, receive := .ended, queue := [] }

/-- The frames that the receive task makes of a datagram. -/
def replyFrames (s : UdpSession) (src : SocketAddr) (data : Bytes) : List Bytes :=
  buildUdpFrames s.sessionId s.packetIdCounter src (data.take udpMaxPkt)

/-- One step; `none` where the event cannot happen. -/
def step (s : UdpSession) : SessionEvent → Option UdpSession
  | .elapse ms => some { s with now := s.now + ms }
  | .deliver frame =>
      if s.main ≠ .returned ∧ s.queue.length < sessionCapacity then
        some { s with queue := s.queue ++ [frame] }
      else none
  | .bound =>
      match s.main with
      | .binding => some { s.relay s.firstFrame with main := .relayingFirst }
      | _ => none
  | .bindError =>
      match s.main with
      | .binding => some s.finish
      | _ => none
  | .forwarded =>
      match s.main with
      | .relayingFirst =>
          some { s with
            main := .waiting (s.now + udpIdleTimeout)
            receive := .waiting (s.now + udpIdleTimeout) }
      | .relaying => some { s with main := .waiting (s.now + udpIdleTimeout) }
      | _ => none
  | .recv =>
      match s.main, s.queue with
      | .waiting _, frame :: queue =>
          some { s.relay frame with main := .relaying, queue := queue }
      | _, _ => none
  | .closed =>
      match s.main, s.queue with
      | .waiting _, [] => some s.finish
      | _, _ => none
  | .idle =>
      match s.main, s.queue with
      | .waiting deadline, [] => if deadline ≤ s.now then some s.finish else none
      | _, _ => none
  | .reply src data =>
      match s.receive with
      | .waiting _ =>
          some { s with
            receive := .waiting (s.now + udpIdleTimeout)
            packetIdCounter := s.packetIdCounter + 1
            relayed := s.relayed ++ s.replyFrames src data }
      | _ => none
  | .replyError src data sent =>
      match s.receive with
      | .waiting _ =>
          if sent < (s.replyFrames src data).length then
            some { s with
              receive := .ended
              packetIdCounter := s.packetIdCounter + 1
              relayed := s.relayed ++ (s.replyFrames src data).take sent }
          else none
      | _ => none
  | .recvError =>
      match s.receive with
      | .waiting _ => some { s with receive := .ended }
      | _ => none
  | .receiveIdle =>
      match s.receive with
      | .waiting deadline => if deadline ≤ s.now then some { s with receive := .ended } else none
      | _ => none

/-- What a step does to the two tasks. -/
inductive Effect (s : UdpSession) : SessionEvent → SessionMain → ReceiveTask → Prop where
  | elapses {ms : Nat} : Effect s (.elapse ms) s.main s.receive
  | delivers {frame : UdpFrame} : Effect s (.deliver frame) s.main s.receive
  | binds (hmain : s.main = .binding) : Effect s .bound .relayingFirst s.receive
  | spawns (hmain : s.main = .relayingFirst) :
      Effect s .forwarded (.waiting (s.now + udpIdleTimeout)) (.waiting (s.now + udpIdleTimeout))
  | turns (hmain : s.main = .relaying) :
      Effect s .forwarded (.waiting (s.now + udpIdleTimeout)) s.receive
  | takes {deadline : Nat} (hmain : s.main = .waiting deadline) :
      Effect s .recv .relaying s.receive
  | relays {src : SocketAddr} {data : Bytes} :
      Effect s (.reply src data) s.main (.waiting (s.now + udpIdleTimeout))
  | ends {e : SessionEvent} (hends : e.EndsReceive) : Effect s e s.main .ended
  | returns {e : SessionEvent} (hends : ¬ e.EndsReceive) : Effect s e .returned .ended

theorem effect_of_step {s s' : UdpSession} {e : SessionEvent} (h : s.step e = some s') :
    Effect s e s'.main s'.receive ∧ s'.sessionId = s.sessionId ∧ s'.now = s.now + e.ms := by
  cases e with
  | elapse ms =>
    cases h
    exact ⟨.elapses, rfl, rfl⟩
  | deliver frame =>
    simp only [step] at h
    split at h
    · cases h
      exact ⟨.delivers, rfl, rfl⟩
    · cases h
  | bound =>
    simp only [step] at h
    split at h
    · rename_i hmain
      cases h
      exact ⟨.binds hmain, rfl, rfl⟩
    · cases h
  | forwarded =>
    simp only [step] at h
    split at h
    · rename_i hmain
      cases h
      exact ⟨.spawns hmain, rfl, rfl⟩
    · rename_i hmain
      cases h
      exact ⟨.turns hmain, rfl, rfl⟩
    · cases h
  | recv =>
    simp only [step] at h
    split at h
    · rename_i hmain _
      cases h
      exact ⟨.takes hmain, rfl, rfl⟩
    · cases h
  | bindError | closed =>
    simp only [step] at h
    split at h
    · cases h
      exact ⟨.returns id, rfl, rfl⟩
    · cases h
  | idle =>
    simp only [step] at h
    split at h
    · split at h
      · cases h
        exact ⟨.returns id, rfl, rfl⟩
      · cases h
    · cases h
  | reply src data =>
    simp only [step] at h
    split at h
    · cases h
      exact ⟨.relays, rfl, rfl⟩
    · cases h
  | recvError =>
    simp only [step] at h
    split at h
    · cases h
      exact ⟨.ends trivial, rfl, rfl⟩
    · cases h
  | replyError src data sent | receiveIdle =>
    simp only [step] at h
    split at h
    · split at h
      · cases h
        exact ⟨.ends trivial, rfl, rfl⟩
      · cases h
    · cases h

end UdpSession

end Ruproxy.Hysteria2
