/-
  Tuic/Auth.lean --- nothing leaves the server before the client is authenticated.

  Three handlers have a gate of their own.  The invariant speaks of all of them at
  once: as long as no valid Authenticate command was processed, the flag is not
  set, no one was notified, and no handler is past its gate.
-/
import Ruproxy.Tuic.Handlers

set_option autoImplicit false

namespace Ruproxy.Tuic

open Ruproxy.Foundation
open Ruproxy.Foundation.Transition

/-! ## The property -/

/-- An outbound TCP dial, a name resolution, the creation of a UDP session, a UDP send. -/
def Action.outbound : Action → Bool
  | .resolve _ _ | .dial _ | .newUdpSession _ | .udpSend _ _ _ => true
  | _ => false

/-- An Authenticate command was processed whose uuid is in the user table and whose token
is the keying material exported for that uuid and password. -/
def Authorized (c : Config) (log : List Action) : Prop :=
  ∃ uuid token password, Action.authenticate uuid token ∈ log ∧
    c.users.lookup uuid = some password ∧
    c.exportKeyingMaterial uuid (asBytes password) = some token

/-- Every outbound action comes after such a command. -/
def GatedLog (c : Config) (log : List Action) : Prop :=
  ∀ pre a post, log = pre ++ a :: post → a.outbound = true → Authorized c pre

theorem Authorized.mono {c : Config} {log log' : List Action} (h : Authorized c log)
    (hpre : log <+: log') : Authorized c log' := by
  obtain ⟨uuid, token, password, hmem, huser, htoken⟩ := h
  exact ⟨uuid, token, password, hpre.subset hmem, huser, htoken⟩

/-- Once authorized, anything may follow. -/
theorem GatedLog.extend {c : Config} {log log' : List Action} (h : GatedLog c log)
    (hauth : Authorized c log) (hpre : log <+: log') : GatedLog c log' := by
  intro pre a post heq hout
  by_cases hlen : log.length ≤ pre.length
  · have hleft : pre <+: log' := ⟨a :: post, heq.symm⟩
    exact hauth.mono (List.prefix_of_prefix_length_le hpre hleft hlen)
  · have hleft : pre ++ [a] <+: log' := ⟨post, by simp [heq]⟩
    obtain ⟨post', hpost'⟩ := List.prefix_of_prefix_length_le hleft hpre (by simp; omega)
    exact h pre a post' (by rw [← hpost']; simp) hout

theorem gatedLog_of_silent {c : Config} {log : List Action}
    (h : ∀ a ∈ log, a.outbound = false) : GatedLog c log := by
  intro pre a post heq hout
  rw [h a (by rw [heq]; simp)] at hout
  cases hout

/-! ## The closed gate -/

/-- A handler that is past its gate, or about to open it. -/
def Task.cleared : Task → Bool
  | .uni _ | .bi _ | .datagram _ | .authenticate _ | .dissociate _ | .gate _ _ => false
  | _ => true

namespace Connection

/-- No one is past the gate, and nothing opens it. -/
structure Locked (s : Connection) : Prop where
  flag : s.auth.isAuthenticated = false
  notified : s.auth.notified = 0
  tasks : ∀ t task, s.tasks.lookup t = some task → task.cleared = false
  silent : ∀ a ∈ s.log, a.outbound = false

theorem locked_new : new.Locked where
  flag := rfl
  notified := rfl
  tasks _ _ h := nomatch h
  silent _ h := nomatch h

/-- A handler goes on in front of its gate. -/
theorem Locked.setTask {s : Connection} (hs : s.Locked) (t : TaskId) {task : Task}
    (htask : task.cleared = false) : (s.setTask t task).Locked where
  flag := hs.flag
  notified := hs.notified
  tasks t' task' h := by
    by_cases heq : t' = t
    · subst heq
      rw [Connection.setTask, AList.lookup_insert] at h
      obtain rfl := Option.some.inj h
      exact htask
    · rw [Connection.setTask, AList.lookup_insert_ne heq] at h
      exact hs.tasks t' task' h
  silent := hs.silent

theorem Locked.endTask {s : Connection} (hs : s.Locked) (t : TaskId) :
    (s.endTask t).Locked where
  flag := hs.flag
  notified := hs.notified
  tasks t' task' h := by
    by_cases heq : t' = t
    · subst heq
      rw [Connection.endTask, AList.lookup_erase] at h
      cases h
    · rw [Connection.endTask, AList.lookup_erase_ne heq] at h
      exact hs.tasks t' task' h
  silent := hs.silent

theorem Locked.record {s : Connection} (hs : s.Locked) {a : Action}
    (ha : a.outbound = false) : (s.record a).Locked where
  flag := hs.flag
  notified := hs.notified
  tasks := hs.tasks
  silent b hb := by
    rcases List.mem_append.mp hb with hb | hb
    · exact hs.silent b hb
    · rw [List.mem_singleton.mp hb]
      exact ha

/-- The sessions, their table and the clock play no part. -/
theorem Locked.of_eq {s s' : Connection} (hs : s.Locked) (hauth : s'.auth = s.auth)
    (htasks : s'.tasks = s.tasks) (hlog : s'.log = s.log) : s'.Locked where
  flag := hauth ▸ hs.flag
  notified := hauth ▸ hs.notified
  tasks := htasks ▸ hs.tasks
  silent := hlog ▸ hs.silent

theorem Locked.handleUni {s : Connection} (hs : s.Locked) (t : TaskId) (recv : Bytes) :
    (s.handleUni t recv).Locked := by
  unfold Connection.handleUni
  repeat' split
  all_goals first
    | exact hs.endTask t
    | exact hs.setTask t rfl

theorem Locked.handleBi {s : Connection} (hs : s.Locked) (t : TaskId) (recv : Bytes) :
    (s.handleBi t recv).Locked := by
  unfold Connection.handleBi
  repeat' split
  all_goals first
    | exact hs.endTask t
    | exact hs.setTask t rfl

theorem Locked.handleDatagram {s : Connection} (hs : s.Locked) (t : TaskId) (dg : Bytes) :
    (s.handleDatagram t dg).Locked := by
  unfold Connection.handleDatagram
  repeat' split
  all_goals first
    | exact hs.endTask t
    | exact hs.setTask t rfl

theorem Locked.handleDissociate {s : Connection} (hs : s.Locked) (t : TaskId)
    (assocId : UInt16) : (s.handleDissociate t assocId).Locked := by
  unfold Connection.handleDissociate
  dsimp only
  repeat' split
  all_goals exact (hs.of_eq (by rfl) (by rfl) (by rfl)).endTask t

theorem Locked.relayUdpToClient {s : Connection} (hs : s.Locked) (r : RelayId)
    (task : RelayTask) (sent : Bool) : (s.relayUdpToClient r task sent).Locked := by
  have hrelay : ∀ task, (s.setRelay r task).Locked := fun _ => hs.of_eq rfl rfl rfl
  unfold Connection.relayUdpToClient
  dsimp only
  repeat' split
  all_goals first
    | exact hrelay _
    | exact (hrelay _).record rfl

/-- A gate that nothing opens lets no one pass. -/
theorem Locked.gate_next {s : Connection} (hs : s.Locked) (g : Gate) :
    g.next s.auth ≠ some .pass := by
  cases g <;> simp [Gate.next, hs.flag, hs.notified]

/-- An Authenticate command is valid, or it changes nothing at the gate. -/
theorem Locked.handleAuthenticate {c : Config} {s : Connection} (hs : s.Locked) (t : TaskId)
    (auth : AuthInfo) :
    (∀ a ∈ (handleAuthenticate c s t auth).log, a.outbound = false) ∧
      (Authorized c (handleAuthenticate c s t auth).log ∨
        (handleAuthenticate c s t auth).Locked) := by
  have hrecord : (s.record (.authenticate auth.uuid auth.token)).Locked := hs.record rfl
  have hrefused := (hrecord.record (a := .close "auth failed") rfl).endTask t
  unfold Connection.handleAuthenticate
  rw [hs.flag, if_neg Bool.false_ne_true]
  dsimp only
  split
  · rename_i password huser
    split
    · rename_i hvalid
      refine ⟨hrecord.silent, .inl ?_⟩
      unfold validateToken at hvalid
      split at hvalid
      case h_2 => cases hvalid
      rename_i expected hexport
      obtain rfl : expected = auth.token := of_decide_eq_true hvalid
      exact ⟨auth.uuid, auth.token, password, by simp, huser, hexport⟩
    · exact ⟨hrefused.silent, .inr hrefused⟩
  · rw [if_neg Bool.false_ne_true]
    exact ⟨hrefused.silent, .inr hrefused⟩

/-- **One step behind the closed gate** is not seen outside, and opens the gate only by a
valid Authenticate command. -/
theorem Locked.step {c : Config} {s s' : Connection} {e : Event} (hs : s.Locked)
    (h : step c s e = some s') :
    (∀ a ∈ s'.log, a.outbound = false) ∧ (Authorized c s'.log ∨ s'.Locked) := by
  have hstay : ∀ {s₁ : Connection}, s₁.Locked →
      (∀ a ∈ s₁.log, a.outbound = false) ∧ (Authorized c s₁.log ∨ s₁.Locked) :=
    fun hs₁ => ⟨hs₁.silent, .inr hs₁⟩
  cases e with
  | acceptUni | acceptBi | readDatagram =>
    simp only [Connection.step, spawn] at h
    split at h
    · cases h
    · obtain rfl := Option.some.inj h
      exact hstay (hs.setTask _ rfl)
  | advance t =>
    simp only [Connection.step] at h
    split at h
    case h_2 => cases h
    rename_i task htask
    have hcleared := hs.tasks t task htask
    cases task with
    | uni recv =>
      obtain rfl := Option.some.inj h
      exact hstay (hs.handleUni t recv)
    | bi recv =>
      obtain rfl := Option.some.inj h
      exact hstay (hs.handleBi t recv)
    | datagram dg =>
      obtain rfl := Option.some.inj h
      exact hstay (hs.handleDatagram t dg)
    | authenticate auth =>
      obtain rfl := Option.some.inj h
      exact hs.handleAuthenticate t auth
    | dissociate assocId =>
      obtain rfl := Option.some.inj h
      exact hstay (hs.handleDissociate t assocId)
    | gate g k =>
      simp only [advance] at h
      split at h
      · rename_i hpass
        exact absurd hpass (hs.gate_next g)
      · obtain rfl := Option.some.inj h
        exact hstay (hs.setTask t rfl)
      · cases h
    | _ => cases hcleared
  | resolved t | connected t | session t =>
    -- handlers that wait here are past the gate
    simp only [Connection.step] at h
    split at h
    all_goals first
      | contradiction
      | exact absurd (hs.tasks t _ ‹_›) (by simp [Task.cleared])
  | relay r sent =>
    simp only [Connection.step] at h
    repeat' split at h
    all_goals first
      | contradiction
      | obtain rfl := Option.some.inj h
        exact hstay (hs.relayUdpToClient ..)
  | opened | written | reply | recvError | tick | closed =>
    simp only [Connection.step] at h
    repeat' split at h
    all_goals first
      | contradiction
      | obtain rfl := Option.some.inj h
        first
          | exact hstay (hs.of_eq rfl rfl rfl)
          | exact hstay (Locked.record (hs.of_eq (by rfl) (by rfl) (by rfl)) rfl)
  | broken | timeout =>
    simp only [Connection.step] at h
    repeat' split at h
    all_goals first
      | contradiction
      | obtain rfl := Option.some.inj h
        exact hstay (hs.endTask _)
  | watchdog =>
    simp only [Connection.step] at h
    split at h
    · obtain rfl := Option.some.inj h
      exact hstay hs
    · obtain rfl := Option.some.inj h
      exact hstay (hs.record rfl)
  | wait ms =>
    obtain rfl := Option.some.inj h
    exact hstay (hs.of_eq rfl rfl rfl)

/-! ## Every run -/

/-- The log is in order, and the gate is closed until a valid command was processed. -/
structure GateInv (c : Config) (s : Connection) : Prop where
  gated : GatedLog c s.log
  closed : Authorized c s.log ∨ s.Locked

theorem gateInv_new (c : Config) : GateInv c new where
  gated := gatedLog_of_silent locked_new.silent
  closed := .inr locked_new

theorem step_gateInv {c : Config} {s s' : Connection} {e : Event} (hinv : GateInv c s)
    (_ : True) (h : Connection.step c s e = some s') : GateInv c s' := by
  rcases hinv.closed with hauth | hlocked
  · exact ⟨hinv.gated.extend hauth (step_log h), .inl (hauth.mono (step_log h))⟩
  · obtain ⟨hsilent, hclosed⟩ := hlocked.step h
    exact ⟨gatedLog_of_silent hsilent, hclosed⟩

/-- **The authentication gate.**  In every run of a connection, every outbound action
comes after an Authenticate command with a uuid of the user table and the token exported
for it. -/
theorem gatedLog_of_run (c : Config) (es : List Event) (s : Connection)
    (h : run (Connection.step c) new es = some s) : GatedLog c s.log := by
  have hreach : Reachable (Connection.step c) new s := ⟨es, h⟩
  exact (hreach.invariant step_gateInv (gateInv_new c)).gated

end Connection

/-! ## Instances -/

/-- A user with the uuid 0, 1, .., 15 and the password `pw`, and an exporter that gives
32 bytes made of its label and its context. -/
def sampleConfig : Config where
  users := (∅ : Table Uuid String).insert ((List.range 16).map UInt8.ofNat) "pw"
  udpTimeout := 30 * 1000
  udpRelayIpv6 := false
  maxUdpPacketSize := 65535
  exportKeyingMaterial label context :=
    some ((label ++ context ++ List.replicate 32 0).take 32)

/-- The user authenticates. -/
def authenticateRun : List Event :=
  [.acceptUni 0 ([5, 0] ++ (List.range 16).map UInt8.ofNat ++ (List.range 16).map UInt8.ofNat ++
      asBytes "pw" ++ List.replicate 14 0),
    .advance 0, .advance 0, .advance 0, .advance 0, .advance 0]

/-- A packet under association id 7 for port 53 of `192.0.2.1`. -/
def samplePacket : Bytes := [5, 2, 0, 7, 0, 1, 1, 0, 0, 2, 1, 192, 0, 2, 1, 0, 53, 104, 105]

/-- A datagram that comes before the client has authenticated, and waits. -/
def earlyRun : List Event :=
  [.readDatagram 1 samplePacket, .advance 1, .advance 1, .advance 1, .advance 1, .advance 1] ++
    authenticateRun ++ [.advance 1, .advance 1, .advance 1, .session 1 true, .advance 1]

/-- It is sent once the client has. -/
theorem gatedLog_of_run_earlyRun :
    ∃ s, run (Connection.step sampleConfig) .new earlyRun = some s ∧
      .udpSend 0 [104, 105] ⟨.v4 (.new 192 0 2 1), 53⟩ ∈ s.log ∧ GatedLog sampleConfig s.log := by
  have hend : ((run (Connection.step sampleConfig) .new earlyRun).map fun s =>
      decide (.udpSend 0 [104, 105] ⟨.v4 (.new 192 0 2 1), 53⟩ ∈ s.log)) = some true := by
    decide +kernel
  obtain ⟨s, hrun, hs⟩ := Option.map_eq_some_iff.mp hend
  exact ⟨s, hrun, of_decide_eq_true hs, Connection.gatedLog_of_run sampleConfig earlyRun s hrun⟩

end Ruproxy.Tuic
