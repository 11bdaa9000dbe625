/-
  Tuic/RelayTasks.lean --- the tasks that relay the replies.

  A listener spawns a task for each datagram that its session receives.  The tasks go on in
  any order, and each may fail on its own.  `step_relays` says what a step does to them, and
  `step_unmoded` that a connection has a mode before it has a session.
-/
import Ruproxy.Tuic.Accounts

set_option autoImplicit false

namespace Ruproxy.Tuic

open Ruproxy.Foundation
open Ruproxy.Foundation.Transition

/-! ## Replies and their tasks -/

/-- A datagram that a session receives, with the packet id of its relay. -/
structure Reply where
  session : SessionId
  pktId : UInt16
  pkt : Bytes
  addr : SocketAddr

/-- The datagrams that the sessions receive. -/
def replies (es : List Event) : List Reply :=
  es.filterMap fun
    | .reply g pktId pkt addr => some ⟨g, pktId, pkt, addr⟩
    | _ => none

/-- The packet with which a reply of the association goes to the client. -/
def Reply.info (r : Reply) (assocId : UInt16) (payload : Bytes) : PacketInfo :=
  ⟨assocId, r.pktId, 1, 0, UInt16.ofNat payload.length, .socket (unmap r.addr)⟩

/-- What goes to the client, in a datagram or on a stream. -/
structure Sending where
  mode : UdpMode
  bytes : Bytes
  deriving DecidableEq

/-- What a relay has sent, in a log. -/
def sendings (r : RelayId) (log : List Action) : List Sending :=
  log.filterMap fun
    | .relay r' mode bytes => if r' = r then some ⟨mode, bytes⟩ else none
    | _ => none

/-- What a step makes of a relay at a connection of the mode: where the relay is then, and
what it sends. -/
inductive RelayTask.Goes (mode : Option UdpMode) (task : RelayTask) :
    RelayStage → List Sending → Prop where
  | opens (hmode : mode = some .quic) (h : task.stage = .spawned) : Goes mode task .opening []
  | writes (h : task.stage = .opening) : Goes mode task .writing []
  | fails (h : task.stage = .spawned ∨ task.stage = .opening) : Goes mode task .ended []
  | datagram (hmode : mode ≠ some .quic) (h : task.stage = .spawned) :
      Goes mode task .ended [⟨.native, task.bytes⟩]
  | stream (h : task.stage = .writing) (n : Nat) :
      Goes mode task .ended [⟨.quic, task.bytes.take n⟩]

/-- The network takes what a relay sends. -/
def Delivers (s : Connection) : Event → Prop
  | .relay _ sent => sent = true
  | .opened _ ok => ok = true
  | .written r n => ∀ task ∈ s.relayTasks[r]?, task.bytes.length ≤ n
  | _ => True

instance (s : Connection) (e : Event) : Decidable (Delivers s e) := by
  unfold Delivers
  split <;> infer_instance

theorem RelayTask.Goes.ne_ended {mode : Option UdpMode} {task : RelayTask} {stage : RelayStage}
    {sent : List Sending} (h : task.Goes mode stage sent) : task.stage ≠ .ended := by
  cases h with
  | fails h => rcases h with h | h <;> rw [h] <;> exact nofun
  | opens _ h | writes h | datagram _ h | stream h => rw [h]; exact nofun

theorem replies_concat (es : List Event) (e : Event) :
    replies (es ++ [e]) = replies es ++ replies [e] := List.filterMap_append

theorem sendings_append (r : RelayId) (log log' : List Action) :
    sendings r (log ++ log') = sendings r log ++ sendings r log' := List.filterMap_append

/-- What a relay sends is its own. -/
theorem sendings_sent (r r' : RelayId) (sent : List Sending) :
    sendings r (sent.map fun x => .relay r' x.mode x.bytes) = if r' = r then sent else [] := by
  rw [sendings, List.filterMap_map]
  split
  · rename_i heq
    simp [heq]
  · rename_i hne
    simp [hne]

namespace Connection

/-! ## Steps -/

/-- Nothing is relayed, and the mode stays. -/
structure Quiet (s s' : Connection) : Prop where
  sendings : ∀ r, sendings r s'.log = sendings r s.log
  relayTasks : s'.relayTasks = s.relayTasks
  udpMode : s'.udpMode = s.udpMode

theorem quiet_setTask (s : Connection) (t : TaskId) (task : Task) : s.Quiet (s.setTask t task) :=
  ⟨fun _ => rfl, rfl, rfl⟩

theorem quiet_endTask (s : Connection) (t : TaskId) : s.Quiet (s.endTask t) :=
  ⟨fun _ => rfl, rfl, rfl⟩

theorem quiet_record (s : Connection) {a : Action}
    (ha : ∀ r, Ruproxy.Tuic.sendings r [a] = []) : s.Quiet (s.record a) :=
  ⟨fun r => by rw [record_log, sendings_append, ha, List.append_nil], rfl, rfl⟩

theorem Quiet.trans {s s₁ s' : Connection} (h : s.Quiet s₁) (h' : s₁.Quiet s') : s.Quiet s' :=
  ⟨fun r => (h'.sendings r).trans (h.sendings r), h'.relayTasks.trans h.relayTasks,
    h'.udpMode.trans h.udpMode⟩

theorem quiet_dialNext (s : Connection) (t : TaskId) (addrs : List SocketAddr) :
    s.Quiet (s.dialNext t addrs) := by
  cases addrs with
  | nil => exact s.quiet_endTask t
  | cons addr addrs => exact (s.quiet_record fun _ => rfl).trans (quiet_setTask ..)

theorem quiet_packetSession (c : Config) (s : Connection) (t : TaskId) (assocId : UInt16)
    (payload : Bytes) (target : SocketAddr) (sockets : Bool) :
    s.Quiet (packetSession c s t assocId payload target sockets) := by
  unfold packetSession
  split
  · exact quiet_setTask ..
  · split
    · exact (s.quiet_record fun _ => rfl).trans ⟨fun _ => rfl, rfl, rfl⟩
    · exact s.quiet_endTask t

/-- A handler is quiet, but for the first packet, which sets the mode. -/
theorem advance_quiet {c : Config} {s s' : Connection} {t : TaskId} {task : Task}
    (h : advance c s t task = some s') :
    s.Quiet s' ∨ ∃ info payload mode, task = .packet info payload mode ∧
      { s with udpMode := some (s.udpMode.getD mode) }.Quiet s' := by
  cases task with
  | gate g k =>
    simp only [advance] at h
    split at h
    · cases h
      exact .inl (quiet_setTask ..)
    · cases h
      exact .inl (quiet_setTask ..)
    · cases h
  | connectResolving | connecting | packetResolving | packetSession => cases h
  | setUuid | setFlag | setNotify =>
    cases h
    exact .inl ⟨fun _ => rfl, rfl, rfl⟩
  | uni recv =>
    cases h
    unfold handleUni
    repeat' split
    all_goals exact .inl ⟨fun _ => rfl, rfl, rfl⟩
  | bi recv =>
    cases h
    unfold handleBi
    repeat' split
    all_goals exact .inl ⟨fun _ => rfl, rfl, rfl⟩
  | datagram dg =>
    cases h
    unfold handleDatagram
    repeat' split
    all_goals exact .inl ⟨fun _ => rfl, rfl, rfl⟩
  | authenticate auth =>
    cases h
    have hrecord := s.quiet_record (a := .authenticate auth.uuid auth.token) fun _ => rfl
    rcases handleAuthenticate_cases c s t auth with heq | heq | heq <;> rw [heq]
    · exact .inl (s.quiet_endTask t)
    · exact .inl (hrecord.trans (quiet_setTask ..))
    · exact .inl ((hrecord.trans (quiet_record _ fun _ => rfl)).trans (quiet_endTask ..))
  | dissociate assocId =>
    cases h
    unfold handleDissociate
    dsimp only
    repeat' split
    all_goals exact .inl ⟨fun _ => rfl, rfl, rfl⟩
  | passed k =>
    cases h
    unfold pass
    dsimp only
    repeat' split
    all_goals exact .inl ⟨fun _ => rfl, rfl, rfl⟩
  | connect addr =>
    cases h
    cases addr with
    | none => exact .inl (s.quiet_endTask t)
    | socket addr => exact .inl (s.quiet_dialNext t [addr])
    | domain name port => exact .inl ((s.quiet_record fun _ => rfl).trans (quiet_setTask ..))
  | packet info payload mode =>
    cases h
    refine .inr ⟨info, payload, mode, rfl, ?_⟩
    unfold handlePacketData
    dsimp only
    split
    · exact quiet_endTask ..
    · split
      · exact quiet_endTask ..
      · exact quiet_setTask ..
      · exact (quiet_record _ fun _ => rfl).trans (quiet_setTask ..)
  | packetSend g payload target =>
    cases h
    unfold packetSend
    repeat' split
    · exact .inl ((s.quiet_record fun _ => rfl).trans (quiet_endTask ..))
    · exact .inl (s.quiet_endTask t)
    · exact .inl (s.quiet_endTask t)

/-- What a step does to the relays and to the mode of a connection. -/
inductive Relays (c : Config) (s s' : Connection) (e : Event) : Prop where
  | quiet (hreplies : replies [e] = []) (h : s.Quiet s')
  /-- a packet is handled, and the first one sets the mode -/
  | packet (t : TaskId) (info : PacketInfo) (payload : Bytes) (mode : UdpMode)
      (he : e = .advance t) (ht : s.tasks.lookup t = some (.packet info payload mode))
      (h : { s with udpMode := some (s.udpMode.getD mode) }.Quiet s')
  /-- a session receives a datagram -/
  | reply (r : Reply) (x : UdpSession) (hreplies : replies [e] = [r])
      (hx : s.sessions r.session = some x) (hmode : s'.udpMode = s.udpMode)
      (hlog : s'.log = s.log)
      (htasks : s'.relayTasks = s.relayTasks ++
        [⟨(r.info x.assocId (r.pkt.take c.maxUdpPacketSize)).toBytes,
          r.pkt.take c.maxUdpPacketSize, .spawned⟩])
  /-- a relay goes on -/
  | goes (r : RelayId) (task : RelayTask) (stage : RelayStage) (sent : List Sending)
      (hreplies : replies [e] = []) (htask : s.relayTasks[r]? = some task)
      (hgoes : task.Goes s.udpMode stage sent) (hmode : s'.udpMode = s.udpMode)
      (htasks : s'.relayTasks = s.relayTasks.set r { task with stage := stage })
      (hlog : s'.log = s.log ++ sent.map fun x => .relay r x.mode x.bytes)
      (hwhole : Delivers s e → stage = .ended → ∃ mode, sent = [⟨mode, task.bytes⟩])

theorem relayUdpToClient_relays (c : Config) (s : Connection) {r : RelayId} {task : RelayTask}
    (htask : s.relayTasks[r]? = some task) (hstage : task.stage = .spawned) (sent : Bool) :
    Relays c s (s.relayUdpToClient r task sent) (.relay r sent) := by
  -- a connection without a mode sends datagrams, too
  have hnative : s.udpMode ≠ some .quic → s.relayUdpToClient r task sent =
      (if sent then (s.setRelay r { task with stage := .ended }).record
        (.relay r .native task.bytes) else s.setRelay r { task with stage := .ended }) →
      Relays c s (s.relayUdpToClient r task sent) (.relay r sent) := by
    intro hmode heq
    rw [heq]
    cases sent with
    | true =>
      exact .goes r task .ended [⟨.native, task.bytes⟩] rfl htask (.datagram hmode hstage) rfl rfl
        rfl fun _ _ => ⟨.native, rfl⟩
    | false =>
      exact .goes r task .ended [] rfl htask (.fails (.inl hstage)) rfl rfl
        (List.append_nil _).symm fun hsent => absurd hsent Bool.false_ne_true
  cases hmode : s.udpMode with
  | none => exact hnative (by rw [hmode]; exact nofun) (by unfold relayUdpToClient; rw [hmode])
  | some mode =>
    cases mode with
    | native =>
      exact hnative (by rw [hmode]; exact nofun) (by unfold relayUdpToClient; rw [hmode])
    | quic =>
      have heq : s.relayUdpToClient r task sent = s.setRelay r { task with stage := .opening } := by
        unfold relayUdpToClient
        rw [hmode]
      rw [heq]
      exact .goes r task .opening [] rfl htask (.opens hmode hstage) rfl rfl
        (List.append_nil _).symm fun _ h => nomatch h

/-- **One step.**  Every datagram that a session receives gets a task, and a relay that goes on
sends its own bytes. -/
theorem step_relays {c : Config} {s s' : Connection} {e : Event} (h : step c s e = some s') :
    Relays c s s' e := by
  cases e with
  | acceptUni | acceptBi | readDatagram =>
    simp only [step, spawn] at h
    split at h
    · cases h
    · cases h
      exact .quiet rfl (quiet_setTask ..)
  | advance t =>
    simp only [step] at h
    split at h
    case h_2 => cases h
    rename_i task ht
    rcases advance_quiet h with hquiet | ⟨info, payload, mode, rfl, hquiet⟩
    · exact .quiet rfl hquiet
    · exact .packet t info payload mode rfl ht hquiet
  | resolved t addrs =>
    simp only [step] at h
    split at h
    · cases h
      exact .quiet rfl (quiet_dialNext ..)
    · split at h
      · cases h
        exact .quiet rfl (quiet_setTask ..)
      · cases h
        exact .quiet rfl (quiet_endTask ..)
    · cases h
  | connected t ok =>
    simp only [step] at h
    split at h
    · cases h
      cases ok
      · exact .quiet rfl (quiet_dialNext ..)
      · exact .quiet rfl (quiet_endTask ..)
    · cases h
  | session t sockets =>
    simp only [step] at h
    split at h
    · cases h
      exact .quiet rfl (quiet_packetSession ..)
    · cases h
  | reply g pktId pkt addr =>
    simp only [step] at h
    split at h
    · rename_i x hx
      split at h
      · cases h
        refine .reply ⟨g, pktId, pkt, addr⟩ x rfl hx rfl rfl ?_
        rw [buildPacketHeader_eq]
        rfl
      · cases h
    · cases h
  | relay r sent =>
    simp only [step] at h
    split at h
    case h_2 => cases h
    rename_i task htask
    split at h
    · rename_i hstage
      cases h
      exact relayUdpToClient_relays c s htask hstage sent
    · cases h
  | opened r ok =>
    simp only [step] at h
    split at h
    case h_2 => cases h
    rename_i task htask
    split at h
    · rename_i hstage
      cases h
      cases ok with
      | true =>
        exact .goes r task .writing [] rfl htask (.writes hstage) rfl rfl
          (List.append_nil _).symm fun _ hended => by cases hended
      | false =>
        exact .goes r task .ended [] rfl htask (.fails (.inr hstage)) rfl rfl
          (List.append_nil _).symm fun hok => absurd hok Bool.false_ne_true
    · cases h
  | written r n =>
    simp only [step] at h
    split at h
    case h_2 => cases h
    rename_i task htask
    split at h
    · rename_i hstage
      cases h
      refine .goes r task .ended [⟨.quic, task.bytes.take n⟩] rfl htask (.stream hstage n) rfl rfl
        rfl fun hall _ => ⟨.quic, ?_⟩
      rw [List.take_of_length_le (hall task htask)]
    · cases h
  | recvError | tick | closed | broken | timeout =>
    simp only [step] at h
    repeat' split at h
    all_goals first
      | contradiction
      | cases h
        exact .quiet rfl ⟨fun _ => rfl, rfl, rfl⟩
  | watchdog =>
    simp only [step] at h
    split at h
    · cases h
      exact .quiet rfl ⟨fun _ => rfl, rfl, rfl⟩
    · cases h
      exact .quiet rfl (quiet_record _ fun _ => rfl)
  | wait ms =>
    cases h
    exact .quiet rfl ⟨fun _ => rfl, rfl, rfl⟩

/-! ## The mode -/

end Connection

/-- The handler of a packet, behind the choice of the mode. -/
def Task.sends : Task → Bool
  | .packetResolving _ _ | .packetSession _ _ _ | .packetSend _ _ _ => true
  | _ => false

namespace Connection

/-- No packet was handled yet: there is no mode and no session. -/
structure Unmoded (s : Connection) : Prop where
  udpMode : s.udpMode = none
  tasks : ∀ t task, s.tasks.lookup t = some task → task.sends = false
  sessions : ∀ g, s.sessions g = none
  relayTasks : s.relayTasks = []

theorem unmoded_new : new.Unmoded where
  udpMode := rfl
  tasks _ _ h := nomatch h
  sessions _ := rfl
  relayTasks := rfl

theorem Unmoded.setTask {s : Connection} (hs : s.Unmoded) (t : TaskId) {task : Task}
    (htask : task.sends = false) : (s.setTask t task).Unmoded where
  udpMode := hs.udpMode
  tasks t' task' h := by
    by_cases heq : t' = t
    · subst heq
      rw [Connection.setTask, AList.lookup_insert] at h
      obtain rfl := Option.some.inj h
      exact htask
    · rw [Connection.setTask, AList.lookup_insert_ne heq] at h
      exact hs.tasks t' task' h
  sessions := hs.sessions
  relayTasks := hs.relayTasks

theorem Unmoded.endTask {s : Connection} (hs : s.Unmoded) (t : TaskId) :
    (s.endTask t).Unmoded where
  udpMode := hs.udpMode
  tasks t' task' h := by
    by_cases heq : t' = t
    · subst heq
      rw [Connection.endTask, AList.lookup_erase] at h
      cases h
    · rw [Connection.endTask, AList.lookup_erase_ne heq] at h
      exact hs.tasks t' task' h
  sessions := hs.sessions
  relayTasks := hs.relayTasks

/-- The log and the clock play no part. -/
theorem Unmoded.of_eq {s s' : Connection} (hs : s.Unmoded) (hmode : s'.udpMode = s.udpMode)
    (htasks : s'.tasks = s.tasks) (hsessions : s'.sessions = s.sessions)
    (hrelays : s'.relayTasks = s.relayTasks) : s'.Unmoded :=
  ⟨hmode ▸ hs.udpMode, htasks ▸ hs.tasks, hsessions ▸ hs.sessions, hrelays ▸ hs.relayTasks⟩

theorem Unmoded.record {s : Connection} (hs : s.Unmoded) (a : Action) : (s.record a).Unmoded :=
  hs.of_eq rfl rfl rfl rfl

theorem Unmoded.dialNext {s : Connection} (hs : s.Unmoded) (t : TaskId)
    (addrs : List SocketAddr) : (s.dialNext t addrs).Unmoded := by
  cases addrs with
  | nil => exact hs.endTask t
  | cons addr addrs => exact (hs.record _).setTask t rfl

theorem Unmoded.advance {c : Config} {s s' : Connection} {t : TaskId} {task : Task}
    (hs : s.Unmoded) (ht : s.tasks.lookup t = some task) (h : advance c s t task = some s') :
    s'.Unmoded ∨ s'.udpMode ≠ none := by
  have hsends := hs.tasks t task ht
  cases task with
  | packetResolving | packetSession | packetSend => cases hsends
  | connectResolving | connecting => cases h
  | gate g k =>
    simp only [Connection.advance] at h
    split at h
    · cases h
      exact .inl (hs.setTask t rfl)
    · cases h
      exact .inl (hs.setTask t rfl)
    · cases h
  | setUuid uuid =>
    cases h
    exact .inl (@Unmoded.setTask { s with auth := { s.auth with uuid := some uuid } }
      (hs.of_eq rfl rfl rfl rfl) t _ rfl)
  | setFlag =>
    cases h
    exact .inl (@Unmoded.setTask { s with auth := { s.auth with isAuthenticated := true } }
      (hs.of_eq rfl rfl rfl rfl) t _ rfl)
  | setNotify =>
    cases h
    exact .inl (@Unmoded.endTask
      { s with auth := { s.auth with notified := s.auth.notified + 1 } } (hs.of_eq rfl rfl rfl rfl) t)
  | uni recv =>
    cases h
    rcases s.handleUni_cases t recv with ⟨info, rest, -, -, heq⟩ |
      ⟨-, ⟨auth, -, heq⟩ | ⟨assocId, heq⟩ | heq⟩ <;> rw [heq]
    · exact .inl (hs.setTask t rfl)
    · exact .inl (hs.setTask t rfl)
    · exact .inl (hs.setTask t rfl)
    · exact .inl (hs.endTask t)
  | bi recv =>
    cases h
    rcases s.handleBi_cases t recv with ⟨ver, cmd, rest, -, heq⟩ | ⟨-, heq⟩ <;> rw [heq]
    · exact .inl (hs.setTask t rfl)
    · exact .inl (hs.endTask t)
  | datagram dg =>
    cases h
    rcases s.handleDatagram_cases t dg with heq | ⟨-, heq⟩ <;> rw [heq]
    · exact .inl (hs.setTask t rfl)
    · exact .inl (hs.endTask t)
  | authenticate auth =>
    cases h
    rcases handleAuthenticate_cases c s t auth with heq | heq | heq <;> rw [heq]
    · exact .inl (hs.endTask t)
    · exact .inl ((hs.record _).setTask t rfl)
    · exact .inl (((hs.record _).record _).endTask t)
  | dissociate assocId =>
    cases h
    unfold handleDissociate
    split
    · rename_i g hlookup
      dsimp only
      rw [hs.sessions g]
      exact .inl (@Unmoded.endTask { s with udpSessions := s.udpSessions.erase assocId }
        (hs.of_eq rfl rfl rfl rfl) t)
    · exact .inl (hs.endTask t)
  | passed k =>
    cases h
    unfold pass
    dsimp only
    repeat' split
    all_goals first
      | exact .inl (hs.setTask t rfl)
      | exact .inl (hs.endTask t)
  | connect addr =>
    cases h
    cases addr with
    | none => exact .inl (hs.endTask t)
    | socket addr => exact .inl (hs.dialNext t [addr])
    | domain name port => exact .inl ((hs.record _).setTask t rfl)
  | packet info payload mode =>
    cases h
    refine .inr ?_
    unfold handlePacketData
    dsimp only
    repeat' split
    all_goals exact Option.some_ne_none _

theorem step_unmoded {c : Config} {s s' : Connection} {e : Event}
    (hinv : s.Unmoded ∨ s.udpMode ≠ none) (_ : True) (h : step c s e = some s') :
    s'.Unmoded ∨ s'.udpMode ≠ none := by
  rcases hinv with hs | hmode
  · cases e with
    | acceptUni | acceptBi | readDatagram =>
      simp only [step, spawn] at h
      split at h
      · cases h
      · cases h
        exact .inl (hs.setTask _ rfl)
    | advance t =>
      simp only [step] at h
      split at h
      · exact hs.advance ‹_› h
      · cases h
    | resolved t addrs =>
      simp only [step] at h
      split at h
      · cases h
        exact .inl (hs.dialNext t _)
      · exact absurd (hs.tasks t _ ‹_›) (by simp [Task.sends])
      · cases h
    | connected t ok =>
      simp only [step] at h
      split at h
      · cases h
        cases ok
        · exact .inl (hs.dialNext t _)
        · exact .inl (hs.endTask t)
      · cases h
    | session t sockets =>
      simp only [step] at h
      split at h
      · exact absurd (hs.tasks t _ ‹_›) (by simp [Task.sends])
      · cases h
    | reply g | recvError g | tick g | closed g =>
      simp only [step, hs.sessions g] at h
      cases h
    | relay r | opened r | written r =>
      simp only [step, hs.relayTasks] at h
      cases h
    | broken t | timeout t =>
      simp only [step] at h
      repeat' split at h
      all_goals first
        | contradiction
        | cases h
          exact .inl (hs.endTask t)
    | watchdog =>
      simp only [step] at h
      split at h
      · cases h
        exact .inl hs
      · cases h
        exact .inl (hs.record _)
    | wait ms =>
      cases h
      exact .inl (hs.of_eq rfl rfl rfl rfl)
  · refine .inr ?_
    cases step_relays h with
    | quiet _ hquiet => rwa [hquiet.udpMode]
    | packet t info payload mode _ _ hquiet =>
      rw [hquiet.udpMode]
      exact Option.some_ne_none _
    | reply r x _ _ hkept => rwa [hkept]
    | goes r task stage sent _ _ _ hkept => rwa [hkept]

end Connection

end Ruproxy.Tuic
