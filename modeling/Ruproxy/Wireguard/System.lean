/-
  Wireguard/System.lean --- the actor, its channel and the relay tasks.

  All senders of `actor_tx` (the packet forwarder, the ticker, the relay tasks)
  and the actor interleave freely, the actor after every task of a turn; the channel
  is first in, first out and holds 2048 messages.  A panic ends the actor's task.
-/
import Ruproxy.Foundation.Transition
import Ruproxy.Wireguard.Actor

set_option autoImplicit false

namespace Ruproxy.Wireguard

open Ruproxy.Foundation

/-- The capacity of the channel `spawn_stack` creates. -/
def inboxCapacity : Nat := 2048

/-- The most a TCP relay reads at once. -/
def relayChunk : Nat := 16 * 1024

/-- The size of the buffer a UDP relay receives replies in. -/
def replyBuf : Nat := 65535

/-- A peer's stack: the actor and what is left of its turn, the messages in its channel,
the clock in milliseconds, and whether the actor's task panicked. -/
structure System where
  actor : Actor
  todo : List Task
  inbox : List Msg
  now : Nat
  crashed : Bool

/-- What happens next. -/
inductive Event where
  /-- the forwarder sends a decrypted packet -/
  | packet (pkt : Bytes)
  /-- the ticker sends a tick -/
  | tick
  /-- the actor takes the first message of its channel -/
  | handle (env : Env)
  /-- the actor does the next task of its turn -/
  | proceed
  /-- the connection of a TCP relay is made or refused -/
  | connect (flow : FlowId) (ok : Bool)
  /-- the `fwd` task of a TCP relay reads a chunk and sends it to the actor -/
  | remoteData (flow : FlowId) (data : Bytes)
  /-- the `fwd` task of a TCP relay meets the end of the stream -/
  | remoteEof (flow : FlowId)
  /-- the `bwd` task of a TCP relay receives the next chunk -/
  | takeChunk (flow : FlowId)
  /-- it writes so many bytes to the connection -/
  | writeRemote (flow : FlowId) (size : Nat)
  /-- its write fails -/
  | writeFails (flow : FlowId)
  /-- a UDP relay takes the next datagram; `sent` tells whether it could send it -/
  | udpSend (flow : FlowId) (sent : Bool)
  /-- a UDP relay receives a reply and sends it to the actor -/
  | udpReply (flow : FlowId) (data : Bytes)
  /-- no reply came within a second -/
  | udpTimeout (flow : FlowId)
  /-- time passes -/
  | wait (ms : Nat)

/-- The actor moves, and not another task. -/
def Event.byActor : Event → Bool
  | .handle _ | .proceed => true
  | _ => false

namespace System

/-- The state `spawn_stack` leaves. -/
def init : System := { actor := .init, todo := [], inbox := [], now := 0, crashed := false }

/-- `actor_tx.send`, when the channel has room. -/
def send (s : System) (m : Msg) : Option System :=
  if s.inbox.length < inboxCapacity then some { s with inbox := s.inbox ++ [m] } else none

/-- A TCP relay goes on as `r`. -/
def setTcpRelay (s : System) (flow : FlowId) (r : TcpRelay) : System :=
  { s with actor :=
      { s.actor with tcpRelays := Function.update s.actor.tcpRelays flow (some r) } }

/-- A UDP relay goes on as `r`. -/
def setUdpRelay (s : System) (flow : FlowId) (r : UdpRelay) : System :=
  { s with actor :=
      { s.actor with udpRelays := Function.update s.actor.udpRelays flow (some r) } }

/-- The actor is done with its turn and takes a message from its channel. -/
def handle (s : System) (env : Env) : Option System :=
  match s.todo, s.inbox with
  | [], m :: inbox =>
      -- `SocketSet::add` returns a slot that is not in use
      if s.actor.sockets env.slot ≠ none then none
      else
        match s.actor.handle env s.now m with
        | some actor => some { s with actor := actor, todo := m.tasks, inbox := inbox }
        | none => some { s with inbox := inbox, crashed := true }
  | _, _ => none

/-- The actor does the next task of its turn; `none` while a `send` in it waits. -/
def proceed (s : System) : Option System :=
  match s.todo with
  | [] => none
  | task :: todo =>
      if s.actor.ready task then
        match s.actor.perform s.now task with
        | some actor => some { s with actor := actor, todo := s.actor.rest task ++ todo }
        | none => some { s with crashed := true }
      else none

/-- One step of the system; `none` where the event cannot happen. -/
def step (s : System) : Event → Option System
  | .wait ms => some { s with now := s.now + ms }
  | .packet pkt => s.send (.inbound pkt)
  | .tick => s.send .tick
  | .handle env => if s.crashed then none else s.handle env
  | .proceed => if s.crashed then none else s.proceed
  | .connect flow ok =>
      match s.actor.tcpRelays flow with
      | some r =>
          if r.connection = .connecting then
            some (s.setTcpRelay flow
              { r with connection := if ok then .open true else .failed })
          else none
      | none => none
  | .remoteData flow data =>
      match s.actor.tcpRelays flow with
      | some r =>
          if r.connection = .open true ∧ 0 < data.length ∧ data.length ≤ relayChunk then
            s.send (.tcpData flow r.handle data)
          else none
      | none => none
  | .remoteEof flow =>
      match s.actor.tcpRelays flow with
      | some r =>
          if r.connection = .open true then
            some (s.setTcpRelay flow { r with connection := .open false })
          else none
      | none => none
  | .takeChunk flow =>
      match s.actor.tcpRelays flow with
      | some r =>
          match r.connection, r.writer, r.outbound with
          | .open _, .receiving, data :: outbound =>
              some (s.setTcpRelay flow { r with writer := .writing data, outbound := outbound })
          | _, _, _ => none
      | none => none
  | .writeRemote flow size =>
      match s.actor.tcpRelays flow with
      | some r =>
          match r.writer with
          | .writing rest =>
              if 0 < size ∧ size < rest.length then
                some (s.setTcpRelay flow { r with writer := .writing (rest.drop size) })
              else if size = rest.length then
                some (s.setTcpRelay flow { r with writer := .receiving })
              else none
          | _ => none
      | none => none
  | .writeFails flow =>
      match s.actor.tcpRelays flow with
      | some r =>
          match r.writer with
          | .writing _ =>
              some (s.setTcpRelay flow { r with writer := .failed, outbound := [] })
          | _ => none
      | none => none
  | .udpSend flow sent =>
      match s.actor.udpRelays flow with
      | some r =>
          match r.waiting, r.outbound with
          | false, _ :: outbound =>
              some (s.setUdpRelay flow { r with outbound := outbound, waiting := sent })
          | _, _ => none
      | none => none
  | .udpReply flow data =>
      match s.actor.udpRelays flow with
      | some r =>
          if r.waiting ∧ data.length ≤ replyBuf then
            (s.setUdpRelay flow { r with waiting := false }).send (.udpReply flow r.handle data)
          else none
      | none => none
  | .udpTimeout flow =>
      match s.actor.udpRelays flow with
      | some r => if r.waiting then some (s.setUdpRelay flow { r with waiting := false }) else none
      | none => none

/-! ## The other tasks -/

/-- What a task beside the actor does: time passes, a message is sent, or a relay goes on. -/
inductive Outside (s : System) (e : Event) : System → Prop where
  | wait {ms : Nat} : e = .wait ms → Outside s e { s with now := s.now + ms }
  | packet {pkt : Bytes} {s' : System} : e = .packet pkt → s.send (.inbound pkt) = some s' →
      Outside s e s'
  | tick {s' : System} : s.send .tick = some s' → Outside s e s'
  | tcpRelay {flow : FlowId} {r r' : TcpRelay} : s.actor.tcpRelays flow = some r →
      r'.handle = r.handle → Outside s e (s.setTcpRelay flow r')
  | tcpData {flow : FlowId} {r : TcpRelay} {data : Bytes} {s' : System} :
      s.actor.tcpRelays flow = some r → 0 < data.length →
      s.send (.tcpData flow r.handle data) = some s' → Outside s e s'
  | udpRelay {flow : FlowId} {r r' : UdpRelay} : s.actor.udpRelays flow = some r →
      r'.handle = r.handle → Outside s e (s.setUdpRelay flow r')
  | udpReply {flow : FlowId} {r r' : UdpRelay} {data : Bytes} {s' : System} :
      s.actor.udpRelays flow = some r → r'.handle = r.handle →
      (s.setUdpRelay flow r').send (.udpReply flow r.handle data) = some s' → Outside s e s'

/-- Every event of which the actor has no part is one of these. -/
theorem outside_of_step {s s' : System} {e : Event} (he : e.byActor = false)
    (h : s.step e = some s') : s.Outside e s' := by
  cases e with
  | handle env | proceed => cases he
  | wait ms =>
    obtain rfl := Option.some.inj h
    exact .wait rfl
  | packet pkt => exact .packet rfl h
  | tick => exact .tick h
  | connect flow ok | remoteEof flow =>
    simp only [step] at h
    split at h
    case h_2 => cases h
    rename_i r hr
    split at h
    case isFalse => cases h
    obtain rfl := Option.some.inj h
    exact .tcpRelay hr rfl
  | remoteData flow data =>
    simp only [step] at h
    split at h
    case h_2 => cases h
    rename_i r hr
    split at h
    case isFalse => cases h
    rename_i hdata
    exact .tcpData hr hdata.2.1 h
  | takeChunk flow | writeFails flow =>
    simp only [step] at h
    split at h
    case h_2 => cases h
    rename_i r hr
    split at h
    case h_2 => cases h
    obtain rfl := Option.some.inj h
    exact .tcpRelay hr rfl
  | writeRemote flow size =>
    simp only [step] at h
    split at h
    case h_2 => cases h
    rename_i r hr
    split at h
    case h_2 => cases h
    split at h
    · obtain rfl := Option.some.inj h
      exact .tcpRelay hr rfl
    split at h
    · obtain rfl := Option.some.inj h
      exact .tcpRelay hr rfl
    · cases h
  | udpSend flow sent =>
    simp only [step] at h
    split at h
    case h_2 => cases h
    rename_i r hr
    split at h
    case h_2 => cases h
    obtain rfl := Option.some.inj h
    exact .udpRelay hr rfl
  | udpReply flow data =>
    simp only [step] at h
    split at h
    case h_2 => cases h
    rename_i r hr
    split at h
    case isFalse => cases h
    refine .udpReply hr ?_ h
    rfl
  | udpTimeout flow =>
    simp only [step] at h
    split at h
    case h_2 => cases h
    rename_i r hr
    split at h
    case isFalse => cases h
    obtain rfl := Option.some.inj h
    exact .udpRelay hr rfl

/-! ## The actor -/

section Actor

variable {s s' : System}

/-- The actor takes a message, or panics over it. -/
theorem handle_eq_some {env : Env} (h : s.handle env = some s') :
    ∃ m inbox, s.todo = [] ∧ s.inbox = m :: inbox ∧ s.actor.sockets env.slot = none ∧
      ((s.actor.handle env s.now m = none ∧ s' = { s with inbox := inbox, crashed := true }) ∨
        ∃ a', s.actor.handle env s.now m = some a' ∧
          s' = { s with actor := a', todo := m.tasks, inbox := inbox }) := by
  unfold handle at h
  split at h
  · rename_i m inbox htodo hinbox
    split at h
    · cases h
    rename_i hslot
    refine ⟨m, inbox, htodo, hinbox, by simpa using hslot, ?_⟩
    split at h
    · rename_i a' ha
      cases h
      exact .inr ⟨a', ha, rfl⟩
    · rename_i ha
      cases h
      exact .inl ⟨ha, rfl⟩
  · cases h

/-- The actor does a task, or panics in it. -/
theorem proceed_eq_some (h : s.proceed = some s') :
    ∃ task todo, s.todo = task :: todo ∧
      ((s.actor.perform s.now task = none ∧ s' = { s with crashed := true }) ∨
        ∃ a', s.actor.perform s.now task = some a' ∧
          s' = { s with actor := a', todo := s.actor.rest task ++ todo }) := by
  unfold proceed at h
  split at h
  · cases h
  rename_i task todo htodo
  split at h
  · refine ⟨task, todo, htodo, ?_⟩
    split at h
    · rename_i a' ha
      cases h
      exact .inr ⟨a', ha, rfl⟩
    · rename_i ha
      cases h
      exact .inl ⟨ha, rfl⟩
  · cases h

/-- Who moves in a step. -/
theorem step_mover {e : Event} (h : s.step e = some s') :
    (∃ env, e = .handle env ∧ s.crashed = false ∧ s.handle env = some s') ∨
      (e = .proceed ∧ s.crashed = false ∧ s.proceed = some s') ∨
        (e.byActor = false ∧ s.Outside e s') := by
  cases e with
  | handle env =>
    simp only [step] at h
    split at h
    · cases h
    · exact .inl ⟨env, rfl, by simpa using ‹¬ s.crashed = true›, h⟩
  | proceed =>
    simp only [step] at h
    split at h
    · cases h
    · exact .inr (.inl ⟨rfl, by simpa using ‹¬ s.crashed = true›, h⟩)
  | _ => exact .inr (.inr ⟨rfl, outside_of_step rfl h⟩)

end Actor

end System

end Ruproxy.Wireguard
