/-
  Hysteria2/SessionTable.lean --- `datagram_loop` and the sessions it spawns.

  The loop looks the session of a frame up in the session map and sends the frame into
  its channel, or makes a new session.  An entry is removed in two places, by id alone:
  by the loop when the channel turns out to be closed, and by the task of a session
  after `handle_udp_session` has returned.

  Sessions are numbered in the order in which they were spawned; the map leads from ids
  to numbers.  `removals` is not in the source: it records which session removed the
  entry of which.
-/
import Ruproxy.Hysteria2.Session

set_option autoImplicit false

namespace Ruproxy.Hysteria2

open Ruproxy.Foundation

/-- The task of a session. -/
structure SessionTask where
  session : UdpSession
  /-- it has removed its id -/
  cleaned : Bool

/-- Where `datagram_loop` is. -/
inductive DatagramLoop where
  /-- in `read_datagram` -/
  | reading
  /-- in `tx.send`, with the channel of a session -/
  | sending (task : Nat) (frame : UdpFrame)
  /-- before the removal of an id whose channel is closed -/
  | removing (sessionId : UInt32)
  /-- before the insertion of a new session -/
  | inserting (frame : UdpFrame)
  | ended
  deriving DecidableEq

/-- The datagram loop of a connection and the tasks of its sessions. -/
structure Sessions where
  sessionMap : Table UInt32 Nat
  tasks : List SessionTask
  loop : DatagramLoop
  removals : List (Nat × Nat)

/-- What happens next on the connection. -/
inductive ConnectionEvent where
  /-- `read_datagram` returns, and the session is looked up -/
  | datagram (data : Bytes)
  /-- `read_datagram` fails -/
  | disconnect
  /-- `tx.send` returns -/
  | send
  | remove
  | insert
  /-- a step of a session -/
  | session (task : Nat) (e : SessionEvent)
  /-- a session removes its id -/
  | cleanup (task : Nat)
  /-- time passes -/
  | elapse (ms : Nat)

/-- The task of a session is still in `handle_udp_session`, where it takes frames. -/
def SessionTask.Accepting (t : SessionTask) : Prop := t.session.main ≠ .returned

/-- It has returned from there, and its removal is ahead. -/
def SessionTask.Finished (t : SessionTask) : Prop :=
  t.session.main = .returned ∧ t.cleaned = false

instance (t : SessionTask) : Decidable t.Accepting := inferInstanceAs (Decidable (¬ _))
instance (t : SessionTask) : Decidable t.Finished := inferInstanceAs (Decidable (_ ∧ _))

namespace Sessions

/-- The start of the loop. -/
def init : Sessions where
  sessionMap := ∅
  tasks := []
  loop := .reading
  removals := []

/-- A sender of the channel of a session is left. -/
def hasSender (s : Sessions) (task : Nat) : Bool :=
  (s.sessionMap.entries.any fun e => e.2 = task) ||
    match s.loop with
    | .sending task' _ => task' = task
    | _ => false

/-- The events of a session that are its own: the others come from the loop and the clock,
and a channel is closed when no sender is left. -/
def mayStep (s : Sessions) (task : Nat) : SessionEvent → Bool
  | .elapse _ | .deliver _ => false
  | .closed => !s.hasSender task
  | _ => true

/-- A session takes a step. -/
def stepSession (s : Sessions) (task : Nat) (e : SessionEvent) : Option Sessions :=
  s.tasks[task]?.bind fun t => (t.session.step e).map fun session =>
    { s with tasks := s.tasks.set task { t with session := session } }

/-- One step; `none` where the event cannot happen. -/
def step (s : Sessions) : ConnectionEvent → Option Sessions
  | .datagram data =>
      match s.loop with
      | .reading =>
          match parseUdpFrame data with
          | .error _ => some s
          | .ok frame =>
              match s.sessionMap.lookup frame.sessionId with
              | some task => some { s with loop := .sending task frame }
              | none => some { s with loop := .inserting frame }
      | _ => none
  | .disconnect =>
      match s.loop with
      | .reading => some { s with loop := .ended }
      | _ => none
  | .send =>
      match s.loop with
      | .sending task frame =>
          match s.tasks[task]? with
          | some t =>
              -- the receiver is gone
              if t.session.main = .returned then
                some { s with loop := .removing frame.sessionId }
              else (s.stepSession task (.deliver frame)).map fun s => { s with loop := .reading }
          | none => none
      | _ => none
  | .remove =>
      match s.loop with
      | .removing sessionId =>
          some { s with sessionMap := s.sessionMap.erase sessionId, loop := .reading }
      | _ => none
  | .insert =>
      match s.loop with
      | .inserting frame =>
          some { s with
            sessionMap := s.sessionMap.insert frame.sessionId s.tasks.length
            tasks := s.tasks ++ [⟨.init frame.sessionId frame, false⟩]
            loop := .reading }
      | _ => none
  | .session task e => if s.mayStep task e then s.stepSession task e else none
  | .cleanup task =>
      match s.tasks[task]? with
      | some t =>
          if t.Finished then
            let victim := s.sessionMap.lookup t.session.sessionId
            some { s with
              sessionMap := s.sessionMap.erase t.session.sessionId
              tasks := s.tasks.set task { t with cleaned := true }
              removals := s.removals ++ victim.toList.map fun v => (task, v) }
          else none
      | none => none
  | .elapse ms =>
      some { s with tasks := s.tasks.map fun t =>
        { t with session := { t.session with now := t.session.now + ms } } }

end Sessions

end Ruproxy.Hysteria2
