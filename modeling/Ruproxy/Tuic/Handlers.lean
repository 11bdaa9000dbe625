/-
  Tuic/Handlers.lean --- what the handlers leave alone.

  A step adds to the log and never takes from it.  All handlers but two leave the
  UDP sessions as they are: a packet at the lock of the table may add one, and a
  Dissociate command closes one.
-/
import Ruproxy.Tuic.Connection

set_option autoImplicit false

namespace Ruproxy.Tuic

open Ruproxy.Foundation

namespace Connection

/-- The log goes on, and the sessions and their table are left alone. -/
structure Keeps (s s' : Connection) : Prop where
  log : s.log <+: s'.log
  udpSessions : s'.udpSessions = s.udpSessions
  sessions : s'.sessions = s.sessions
  nextSession : s'.nextSession = s.nextSession

@[simp] theorem setTask_log (s : Connection) (t : TaskId) (task : Task) :
    (s.setTask t task).log = s.log := rfl

@[simp] theorem endTask_log (s : Connection) (t : TaskId) : (s.endTask t).log = s.log := rfl

@[simp] theorem setSession_log (s : Connection) (g : SessionId) (x : UdpSession) :
    (s.setSession g x).log = s.log := rfl

@[simp] theorem record_log (s : Connection) (a : Action) : (s.record a).log = s.log ++ [a] := rfl

theorem keeps_setTask (s : Connection) (t : TaskId) (task : Task) :
    s.Keeps (s.setTask t task) := ⟨List.prefix_rfl, rfl, rfl, rfl⟩

theorem keeps_endTask (s : Connection) (t : TaskId) : s.Keeps (s.endTask t) :=
  ⟨List.prefix_rfl, rfl, rfl, rfl⟩

theorem keeps_record (s : Connection) (a : Action) : s.Keeps (s.record a) :=
  ⟨List.prefix_append .., rfl, rfl, rfl⟩

theorem keeps_setRelay (s : Connection) (r : RelayId) (task : RelayTask) :
    s.Keeps (s.setRelay r task) := ⟨List.prefix_rfl, rfl, rfl, rfl⟩

theorem Keeps.trans {s s₁ s' : Connection} (h₁ : s.Keeps s₁) (h₂ : s₁.Keeps s') :
    s.Keeps s' where
  log := h₁.log.trans h₂.log
  udpSessions := h₂.udpSessions.trans h₁.udpSessions
  sessions := h₂.sessions.trans h₁.sessions
  nextSession := h₂.nextSession.trans h₁.nextSession

/-! ## One lemma for each handler -/

theorem handleUni_keeps (s : Connection) (t : TaskId) (recv : Bytes) :
    s.Keeps (s.handleUni t recv) := by
  unfold handleUni
  repeat' split
  all_goals first
    | apply keeps_setTask
    | apply keeps_endTask

theorem handleBi_keeps (s : Connection) (t : TaskId) (recv : Bytes) :
    s.Keeps (s.handleBi t recv) := by
  unfold handleBi
  repeat' split
  all_goals first
    | apply keeps_setTask
    | apply keeps_endTask

theorem handleDatagram_keeps (s : Connection) (t : TaskId) (dg : Bytes) :
    s.Keeps (s.handleDatagram t dg) := by
  unfold handleDatagram
  repeat' split
  all_goals first
    | apply keeps_setTask
    | apply keeps_endTask

theorem pass_keeps (s : Connection) (t : TaskId) (k : Gated) : s.Keeps (s.pass t k) := by
  unfold pass
  dsimp only
  repeat' split
  all_goals first
    | apply keeps_setTask
    | apply keeps_endTask

theorem handleAuthenticate_keeps (c : Config) (s : Connection) (t : TaskId)
    (auth : AuthInfo) : s.Keeps (handleAuthenticate c s t auth) := by
  have hrecord := s.keeps_record (.authenticate auth.uuid auth.token)
  unfold handleAuthenticate
  dsimp only
  split
  · exact s.keeps_endTask t
  · repeat' split
    all_goals first
      | exact hrecord.trans (keeps_setTask ..)
      | exact (hrecord.trans (keeps_record ..)).trans (keeps_endTask ..)

theorem dialNext_keeps (s : Connection) (t : TaskId) (addrs : List SocketAddr) :
    s.Keeps (s.dialNext t addrs) := by
  cases addrs with
  | nil => exact s.keeps_endTask t
  | cons addr addrs => exact (s.keeps_record _).trans (keeps_setTask ..)

theorem handleConnect_keeps (s : Connection) (t : TaskId) (addr : Address) :
    s.Keeps (s.handleConnect t addr) := by
  cases addr with
  | none => exact s.keeps_endTask t
  | socket addr => exact s.dialNext_keeps t [addr]
  | domain name port => exact (s.keeps_record _).trans (keeps_setTask ..)

theorem handlePacketData_keeps (s : Connection) (t : TaskId) (info : PacketInfo)
    (payload : Bytes) (mode : UdpMode) :
    s.Keeps (s.handlePacketData t info payload mode) := by
  have hmode : s.Keeps { s with udpMode := some (s.udpMode.getD mode) } :=
    ⟨List.prefix_rfl, rfl, rfl, rfl⟩
  unfold handlePacketData
  dsimp only
  split
  · exact hmode.trans (keeps_endTask ..)
  · split
    · exact hmode.trans (keeps_endTask ..)
    · exact hmode.trans (keeps_setTask ..)
    · exact (hmode.trans (keeps_record ..)).trans (keeps_setTask ..)

theorem packetSend_keeps (s : Connection) (t : TaskId) (g : SessionId) (payload : Bytes)
    (target : SocketAddr) : s.Keeps (s.packetSend t g payload target) := by
  unfold packetSend
  split
  · split
    · exact (s.keeps_record _).trans (keeps_endTask ..)
    · exact s.keeps_endTask t
  · exact s.keeps_endTask t

theorem relayUdpToClient_keeps (s : Connection) (r : RelayId) (task : RelayTask)
    (sent : Bool) : s.Keeps (s.relayUdpToClient r task sent) := by
  have hended := s.keeps_setRelay r { task with stage := .ended }
  unfold relayUdpToClient
  split
  · cases sent
    · exact hended
    · exact hended.trans (keeps_record ..)
  · cases sent
    · exact hended
    · exact hended.trans (keeps_record ..)
  · exact s.keeps_setRelay r _

/-- A handler other than that of a Dissociate command. -/
theorem advance_keeps {c : Config} {s s' : Connection} {t : TaskId} {task : Task}
    (htask : ∀ assocId, task ≠ .dissociate assocId) (h : advance c s t task = some s') :
    s.Keeps s' := by
  cases task with
  | dissociate assocId => exact absurd rfl (htask assocId)
  | gate g k =>
    simp only [advance] at h
    split at h
    · cases h
      exact s.keeps_setTask t _
    · cases h
      exact s.keeps_setTask t _
    · cases h
  | connectResolving | connecting | packetResolving | packetSession => cases h
  | uni recv =>
    cases h
    exact s.handleUni_keeps t recv
  | bi recv =>
    cases h
    exact s.handleBi_keeps t recv
  | datagram dg =>
    cases h
    exact s.handleDatagram_keeps t dg
  | authenticate auth =>
    cases h
    exact handleAuthenticate_keeps c s t auth
  | passed k =>
    cases h
    exact s.pass_keeps t k
  | connect addr =>
    cases h
    exact s.handleConnect_keeps t addr
  | packet info payload mode =>
    cases h
    exact s.handlePacketData_keeps t info payload mode
  | packetSend g payload target =>
    cases h
    exact s.packetSend_keeps t g payload target
  | setUuid | setFlag | setNotify =>
    cases h
    exact ⟨List.prefix_rfl, rfl, rfl, rfl⟩

/-! ## The log only grows -/

theorem handleDissociate_log (s : Connection) (t : TaskId) (assocId : UInt16) :
    (s.handleDissociate t assocId).log = s.log := by
  unfold handleDissociate
  dsimp only
  repeat' split
  all_goals rfl

theorem packetSession_log (c : Config) (s : Connection) (t : TaskId) (assocId : UInt16)
    (payload : Bytes) (target : SocketAddr) (sockets : Bool) :
    s.log <+: (packetSession c s t assocId payload target sockets).log := by
  unfold packetSession
  split
  · simp
  · split
    · simp [newUdpSession]
    · simp

theorem step_log {c : Config} {s s' : Connection} {e : Event} (h : step c s e = some s') :
    s.log <+: s'.log := by
  cases e with
  | acceptUni | acceptBi | readDatagram =>
    simp only [step, spawn] at h
    split at h
    · cases h
    · cases h
      exact List.prefix_rfl
  | advance t =>
    simp only [step] at h
    split at h
    case h_2 => cases h
    rename_i task _
    by_cases htask : ∀ assocId, task ≠ .dissociate assocId
    · exact (advance_keeps htask h).log
    · obtain ⟨assocId, rfl⟩ := not_forall_not.mp htask
      cases h
      rw [handleDissociate_log]
  | resolved t addrs =>
    simp only [step] at h
    split at h
    · cases h
      exact (s.dialNext_keeps t _).log
    · split at h <;>
      · cases h
        exact List.prefix_rfl
    · cases h
  | connected t ok =>
    simp only [step] at h
    split at h
    · cases h
      cases ok
      · exact (s.dialNext_keeps t _).log
      · exact List.prefix_rfl
    · cases h
  | session t sockets =>
    simp only [step] at h
    split at h
    · cases h
      exact packetSession_log ..
    · cases h
  | relay r sent =>
    simp only [step] at h
    repeat' split at h
    all_goals first
      | contradiction
      | cases h
        exact (relayUdpToClient_keeps ..).log
  | wait ms =>
    cases h
    exact List.prefix_rfl
  | opened | written | broken | timeout | reply | recvError | tick | closed | watchdog =>
    simp only [step] at h
    repeat' split at h
    all_goals first
      | contradiction
      | cases h
        first
          | exact List.prefix_rfl
          | exact List.prefix_append ..

end Connection

end Ruproxy.Tuic
