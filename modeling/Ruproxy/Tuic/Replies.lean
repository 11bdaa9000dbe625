/-
  Tuic/Replies.lean --- from the sockets of the sessions back to the client.

  Every datagram that a session receives gets a relay of its own.  The relays run in any order
  and may fail; a relay sends once at most, in the mode of the first packet of the client, which
  stays that of the connection.  A client that parses as the server does finds the payload, the
  association id of the session and the address of the sender.
-/
import Ruproxy.Tuic.RelayTasks

set_option autoImplicit false

namespace Ruproxy.Tuic

open Ruproxy.Foundation
open Ruproxy.Foundation.Transition

/-! ## The property -/

/-- The relay has what the session received, under its association id. -/
structure RelayTask.For (c : Config) (s : Connection) (r : Reply) (task : RelayTask) : Prop where
  payload : task.payload = r.pkt.take c.maxUdpPacketSize
  header : ∃ assocId, s.SessionOf r.session assocId ∧
    task.header = (r.info assocId task.payload).toBytes

/-- What a relay has sent at a connection of the mode: nothing before its end, and then its
packet once at most, in a datagram or as far as a stream took it. -/
inductive RelayTask.Sent (mode : Option UdpMode) (task : RelayTask) : List Sending → Prop where
  | nothing : Sent mode task []
  | datagram (hmode : mode = some .native) (h : task.stage = .ended) :
      Sent mode task [⟨.native, task.bytes⟩]
  | stream (hmode : mode = some .quic) (h : task.stage = .ended) (n : Nat) :
      Sent mode task [⟨.quic, task.bytes.take n⟩]

/-- The client reads it: a datagram always, a stream when the length fits its field. -/
theorem RelayTask.For.carries {c : Config} {s : Connection} {r : Reply} {task : RelayTask}
    (h : task.For c s r) :
    ∃ assocId, s.SessionOf r.session assocId ∧ ∀ t,
      (Event.readDatagram t task.bytes).Carries (r.info assocId task.payload) task.payload ∧
      (task.payload.length < 65536 →
        (Event.acceptUni t task.bytes).Carries (r.info assocId task.payload) task.payload) := by
  obtain ⟨assocId, hsession, hheader⟩ := h.header
  have hbytes : (r.info assocId task.payload).toBytes ++ task.payload = task.bytes := by
    rw [RelayTask.bytes, hheader]
  refine ⟨assocId, hsession, fun t => ⟨⟨trivial, hbytes⟩, fun hlen => ⟨trivial, ?_, ?_⟩⟩⟩
  · show task.payload.length = (UInt16.ofNat task.payload.length).toNat
    rw [UInt16.toNat_ofNat']
    exact (Nat.mod_eq_of_lt hlen).symm
  · rw [hbytes]

theorem RelayTask.For.mono {c : Config} {s s' : Connection} {r : Reply} {task : RelayTask}
    (h : task.For c s r) (hgrows : s.Grows s') : task.For c s' r where
  payload := h.payload
  header := by
    obtain ⟨assocId, hsession, hheader⟩ := h.header
    exact ⟨assocId, hgrows _ _ hsession, hheader⟩

/-- A relay that has not ended has sent nothing. -/
theorem RelayTask.Sent.eq_nil {mode : Option UdpMode} {task : RelayTask} {sent : List Sending}
    (h : task.Sent mode sent) (hstage : task.stage ≠ .ended) : sent = [] := by
  cases h with
  | nothing => rfl
  | datagram _ h | stream _ h => exact absurd h hstage

/-- The mode stays once there is one. -/
theorem RelayTask.Sent.mono {mode mode' : Option UdpMode} {task : RelayTask}
    {sent : List Sending} (h : task.Sent mode sent)
    (hmode : ∀ m, mode = some m → mode' = some m) : task.Sent mode' sent := by
  cases h with
  | nothing => exact .nothing
  | datagram hm h => exact .datagram (hmode _ hm) h
  | stream hm h n => exact .stream (hmode _ hm) h n

/-- Replacing the partner of an element by one that the element is related to, too. -/
theorem forall₂_set {α β : Type} {R : α → β → Prop} {l : List α} {l' : List β}
    (h : List.Forall₂ R l l') {i : Nat} {b b' : β} (hb : l'[i]? = some b)
    (hR : ∀ a, R a b → R a b') : List.Forall₂ R l (l'.set i b') := by
  induction h generalizing i with
  | nil => cases hb
  | cons hab hrest ih =>
    cases i with
    | zero =>
      obtain rfl := Option.some.inj hb
      exact .cons (hR _ hab) hrest
    | succ i => exact .cons hab (ih hb)

namespace Connection

/-! ## Every run -/

/-- The relays so far, and where the mode comes from. -/
structure RepliesInv (c : Config) (es : List Event) (s : Connection) : Prop where
  run : Transition.run (step c) new es = some s
  tasks : List.Forall₂ (fun r task => task.For c s r) (replies es) s.relayTasks
  moded : s.relayTasks ≠ [] → s.udpMode ≠ none
  quic : ∀ task ∈ s.relayTasks, task.stage = .opening ∨ task.stage = .writing →
    s.udpMode = some .quic
  sent : ∀ (r : RelayId) (task : RelayTask), s.relayTasks[r]? = some task →
    task.Sent s.udpMode (sendings r s.log)
  unsent : ∀ r, s.relayTasks.length ≤ r → sendings r s.log = []
  whole : Every (step c) Delivers new es → ∀ (r : RelayId) (task : RelayTask),
    s.relayTasks[r]? = some task → task.stage = .ended → ∃ mode, sendings r s.log = [⟨mode, task.bytes⟩]
  mode : ∀ mode, s.udpMode = some mode →
    ∃ e ∈ es, e.mode = some mode ∧ ∃ info payload, e.Carries info payload

namespace RepliesInv

variable {c : Config} {es : List Event} {s s' : Connection} {e : Event}

theorem start (c : Config) : RepliesInv c [] new where
  run := rfl
  tasks := .nil
  moded h := absurd rfl h
  quic _ h := nomatch h
  sent _ _ h := nomatch h
  unsent _ _ := rfl
  whole _ _ _ h := nomatch h
  mode _ h := nomatch h

theorem run_concat (h : RepliesInv c es s) (hstep : Connection.step c s e = some s') :
    Transition.run (Connection.step c) new (es ++ [e]) = some s' := by
  obtain ⟨l, hl⟩ := exists_history h.run
  exact hl.run_concat hstep

theorem grows (h : RepliesInv c es s) (hstep : Connection.step c s e = some s') :
    s.Grows s' := by
  obtain ⟨l, hl⟩ := exists_history h.run
  exact step_grows hl.sessions hstep

theorem every (h : RepliesInv c es s)
    (hev : Every (Connection.step c) Delivers new (es ++ [e])) :
    Every (Connection.step c) Delivers new es ∧ Delivers s e := by
  obtain ⟨hes, hlast⟩ := every_append.mp hev
  exact ⟨hes, (hlast s h.run).1⟩

/-- The mode has a packet that it comes from. -/
theorem mode_concat (h : RepliesInv c es s) (hmode : s'.udpMode = s.udpMode) (mode : UdpMode)
    (hown : s'.udpMode = some mode) :
    ∃ e' ∈ es ++ [e], e'.mode = some mode ∧ ∃ info payload, e'.Carries info payload := by
  obtain ⟨e', he', hcarries⟩ := h.mode mode (hmode ▸ hown)
  exact ⟨e', List.mem_append_left _ he', hcarries⟩

/-- A step that relays nothing, and keeps the mode if there is one. -/
theorem quiet (h : RepliesInv c es s) (hstep : Connection.step c s e = some s')
    (hreplies : replies [e] = []) (htasks : s'.relayTasks = s.relayTasks)
    (hlog : ∀ r, sendings r s'.log = sendings r s.log)
    (hkept : ∀ mode, s.udpMode = some mode → s'.udpMode = some mode)
    (hmode : ∀ mode, s'.udpMode = some mode →
      ∃ e' ∈ es ++ [e], e'.mode = some mode ∧ ∃ info payload, e'.Carries info payload) :
    RepliesInv c (es ++ [e]) s' where
  run := h.run_concat hstep
  tasks := by
    rw [replies_concat, hreplies, List.append_nil, htasks]
    exact h.tasks.imp fun _ _ hfor => hfor.mono (h.grows hstep)
  moded hne := by
    obtain ⟨mode, hown⟩ := Option.ne_none_iff_exists'.mp (h.moded (htasks ▸ hne))
    rw [hkept mode hown]
    exact Option.some_ne_none _
  quic task htask hstage := hkept _ (h.quic task (htasks ▸ htask) hstage)
  sent r task htask := by
    rw [hlog]
    exact (h.sent r task (htasks ▸ htask)).mono hkept
  unsent r hr := (hlog r).trans (h.unsent r (htasks ▸ hr))
  whole hev r task htask hstage := by
    rw [hlog]
    exact h.whole (h.every hev).1 r task (htasks ▸ htask) hstage
  mode := hmode

/-- A session receives a datagram: its task is the next one. -/
theorem reply (h : RepliesInv c es s) (hstep : Connection.step c s e = some s') {r : Reply}
    {x : UdpSession} (hreplies : replies [e] = [r]) (hx : s.sessions r.session = some x)
    (hkept : s'.udpMode = s.udpMode) (hlog : s'.log = s.log)
    (htasks : s'.relayTasks = s.relayTasks ++
      [⟨(r.info x.assocId (r.pkt.take c.maxUdpPacketSize)).toBytes,
        r.pkt.take c.maxUdpPacketSize, .spawned⟩]) : RepliesInv c (es ++ [e]) s' := by
  -- the new task has sent nothing
  have hold : ∀ i task, s'.relayTasks[i]? = some task →
      s.relayTasks[i]? = some task ∨ task.stage = .spawned ∧ s.relayTasks.length ≤ i := by
    intro i task htask
    rw [htasks] at htask
    by_cases hlt : i < s.relayTasks.length
    · rw [List.getElem?_append_left hlt] at htask
      exact .inl htask
    · rw [List.getElem?_append_right (Nat.le_of_not_lt hlt), List.getElem?_singleton] at htask
      obtain ⟨-, hlast⟩ := Option.ite_none_right_eq_some.mp htask
      obtain rfl := Option.some.inj hlast
      exact .inr ⟨rfl, Nat.le_of_not_lt hlt⟩
  refine ⟨h.run_concat hstep, ?_, fun _ => ?_, fun task htask hstage => ?_,
    fun i task htask => ?_, fun i hi => ?_, fun hev i task htask hstage => ?_,
    fun mode hmode => h.mode_concat hkept mode hmode⟩
  · rw [replies_concat, hreplies, htasks]
    refine List.rel_append (h.tasks.imp fun _ _ hfor => hfor.mono (h.grows hstep))
      (.cons ⟨rfl, x.assocId, h.grows hstep _ _ ⟨x, hx, rfl⟩, rfl⟩ .nil)
  · have hreach : Reachable (Connection.step c) new s := ⟨es, h.run⟩
    rw [hkept]
    refine (hreach.invariant step_unmoded (.inl unmoded_new)).resolve_left fun hs => ?_
    rw [hs.sessions] at hx
    cases hx
  · obtain ⟨i, hi⟩ := List.mem_iff_getElem?.mp htask
    rw [hkept]
    rcases hold i task hi with hi | ⟨hspawned, -⟩
    · exact h.quic task (List.mem_of_getElem? hi) hstage
    · rw [hspawned] at hstage
      rcases hstage with hstage | hstage <;> cases hstage
  · rw [hlog, hkept]
    rcases hold i task htask with hi | ⟨-, hle⟩
    · exact h.sent i task hi
    · rw [h.unsent i hle]
      exact .nothing
  · rw [hlog]
    refine h.unsent i (Nat.le_trans ?_ hi)
    rw [htasks, List.length_append]
    exact Nat.le_add_right _ _
  · rw [hlog]
    rcases hold i task htask with hi | ⟨hspawned, -⟩
    · exact h.whole (h.every hev).1 i task hi hstage
    · rw [hspawned] at hstage
      cases hstage

/-- A relay goes on: it is the only one that is concerned. -/
theorem goes (h : RepliesInv c es s) (hstep : Connection.step c s e = some s') {r : RelayId}
    {task : RelayTask} {stage : RelayStage} {sent : List Sending} (hreplies : replies [e] = [])
    (htask : s.relayTasks[r]? = some task) (hgoes : task.Goes s.udpMode stage sent)
    (hkept : s'.udpMode = s.udpMode)
    (htasks : s'.relayTasks = s.relayTasks.set r { task with stage := stage })
    (hlog : s'.log = s.log ++ sent.map fun x => .relay r x.mode x.bytes)
    (hwhole : Delivers s e → stage = .ended → ∃ mode, sent = [⟨mode, task.bytes⟩]) :
    RepliesInv c (es ++ [e]) s' := by
  have hlt : r < s.relayTasks.length := (List.getElem?_eq_some_iff.mp htask).1
  have hmoded : s.udpMode ≠ none := h.moded (List.ne_nil_of_mem (List.mem_of_getElem? htask))
  have hown : sendings r s'.log = sent := by
    rw [hlog, sendings_append, sendings_sent, if_pos rfl,
      (h.sent r task htask).eq_nil hgoes.ne_ended, List.nil_append]
  have hother : ∀ i, i ≠ r → sendings i s'.log = sendings i s.log := by
    intro i hne
    rw [hlog, sendings_append, sendings_sent, if_neg hne.symm, List.append_nil]
  have hget : ∀ i task', s'.relayTasks[i]? = some task' →
      i = r ∧ task' = { task with stage := stage } ∨ i ≠ r ∧ s.relayTasks[i]? = some task' := by
    intro i task' hi
    rw [htasks] at hi
    by_cases heq : i = r
    · subst heq
      rw [List.getElem?_set_self hlt] at hi
      exact .inl ⟨rfl, (Option.some.inj hi).symm⟩
    · rw [List.getElem?_set_ne (Ne.symm heq)] at hi
      exact .inr ⟨heq, hi⟩
  refine ⟨h.run_concat hstep, ?_, fun _ => hkept ▸ hmoded, fun task' htask' hstage => ?_,
    fun i task' hi => ?_, fun i hi => ?_, fun hev i task' hi hstage => ?_,
    fun mode hmode => h.mode_concat hkept mode hmode⟩
  · rw [replies_concat, hreplies, List.append_nil, htasks]
    exact forall₂_set (h.tasks.imp fun _ _ hfor => hfor.mono (h.grows hstep)) htask
      fun _ hfor => ⟨hfor.payload, hfor.header⟩
  · rw [hkept]
    obtain ⟨i, hi⟩ := List.mem_iff_getElem?.mp htask'
    rcases hget i task' hi with ⟨-, rfl⟩ | ⟨-, hi⟩
    · cases hgoes with
      | opens hmode _ => exact hmode
      | writes hopening => exact h.quic task (List.mem_of_getElem? htask) (.inl hopening)
      | fails | datagram | stream => rcases hstage with hstage | hstage <;> cases hstage
    · exact h.quic task' (List.mem_of_getElem? hi) hstage
  · rw [hkept]
    rcases hget i task' hi with ⟨rfl, rfl⟩ | ⟨hne, hi⟩
    · rw [hown]
      cases hgoes with
      | opens | writes | fails => exact .nothing
      | datagram hmode _ =>
        obtain ⟨mode, hmode'⟩ := Option.ne_none_iff_exists'.mp hmoded
        cases mode with
        | native => exact .datagram hmode' rfl
        | quic => exact absurd hmode' hmode
      | stream hwriting n =>
        exact .stream (h.quic task (List.mem_of_getElem? htask) (.inr hwriting)) rfl n
    · rw [hother i hne]
      exact h.sent i task' hi
  · rw [htasks, List.length_set] at hi
    rw [hother i (Nat.ne_of_gt (Nat.lt_of_lt_of_le hlt hi))]
    exact h.unsent i hi
  · rcases hget i task' hi with ⟨rfl, rfl⟩ | ⟨hne, hi⟩
    · rw [hown]
      exact hwhole (h.every hev).2 hstage
    · rw [hother i hne]
      exact h.whole (h.every hev).1 i task' hi hstage

theorem step (h : RepliesInv c es s) (hstep : Connection.step c s e = some s') :
    RepliesInv c (es ++ [e]) s' := by
  cases step_relays hstep with
  | quiet hreplies hquiet =>
    exact h.quiet hstep hreplies hquiet.relayTasks hquiet.sendings
      (fun mode hmode => hquiet.udpMode.trans hmode) (h.mode_concat hquiet.udpMode)
  | packet t info payload mode he ht hquiet =>
    subst he
    refine h.quiet hstep rfl hquiet.relayTasks hquiet.sendings (fun mode' hmode => ?_)
      fun mode' hmode' => ?_
    · rw [hquiet.udpMode, hmode]
      rfl
    · cases hs : s.udpMode with
      | some old =>
        refine h.mode_concat ?_ mode' hmode'
        rw [hquiet.udpMode, hs]
        rfl
      | none =>
        -- the first packet that is handled brings the mode
        rw [hquiet.udpMode, hs] at hmode'
        obtain rfl := Option.some.inj hmode'
        obtain ⟨l, hl⟩ := exists_history h.run
        obtain ⟨i, hi⟩ := hl.exists_held ht
        obtain ⟨e', he', hcarries, hown, -⟩ := hl.working t _ i ht hi
        exact ⟨e', List.mem_append_left _ (List.mem_of_getElem? he'), hown, info, payload,
          hcarries⟩
  | reply r x hreplies hx hkept hlog htasks =>
    exact h.reply hstep hreplies hx hkept hlog htasks
  | goes r task stage sent hreplies htask hgoes hkept htasks hlog hwhole =>
    exact h.goes hstep hreplies htask hgoes hkept htasks hlog hwhole

end RepliesInv

/-! ## Sessions and packets -/

section

variable {s s' : Connection} {g : SessionId} {assocId : UInt16}

theorem SessionOf.of_eq (h : s'.SessionOf g assocId) (hsessions : s'.sessions = s.sessions) :
    s.SessionOf g assocId := by
  obtain ⟨x, hx, hassoc⟩ := h
  exact ⟨x, hsessions ▸ hx, hassoc⟩

/-- A session that changes keeps its association id. -/
theorem SessionOf.of_update (h : s'.SessionOf g assocId) {g' : SessionId} {x x' : UdpSession}
    (hx : s.sessions g' = some x) (hsessions : s'.sessions = Function.update s.sessions g' (some x'))
    (hassoc : x'.assocId = x.assocId) : s.SessionOf g assocId := by
  obtain ⟨y, hy, hyassoc⟩ := h
  rw [hsessions] at hy
  by_cases heq : g = g'
  · subst heq
    rw [Function.update_self] at hy
    obtain rfl := Option.some.inj hy
    exact ⟨x, hx, hassoc.symm.trans hyassoc⟩
  · rw [Function.update_of_ne heq] at hy
    exact ⟨y, hy, hyassoc⟩

theorem SessionOf.of_handleDissociate {t : TaskId} {assocId' : UInt16}
    (h : (s.handleDissociate t assocId').SessionOf g assocId) : s.SessionOf g assocId := by
  cases hlookup : s.udpSessions.lookup assocId' with
  | none => exact h.of_eq (by simp [handleDissociate, hlookup, endTask])
  | some g' =>
    cases hx : s.sessions g' with
    | none => exact h.of_eq (by simp [handleDissociate, hlookup, hx, endTask])
    | some x =>
      have hsessions : (s.handleDissociate t assocId').sessions =
          Function.update s.sessions g' (some { x with closed := true }) := by
        simp [handleDissociate, hlookup, hx, endTask, setSession]
      exact h.of_update hx hsessions rfl

/-- A packet opens the session of its own association id, and it records that. -/
theorem SessionOf.of_packetSession {c : Config} {t : TaskId} {assocId' : UInt16} {payload : Bytes}
    {target : SocketAddr} {sockets : Bool}
    (h : (packetSession c s t assocId' payload target sockets).SessionOf g assocId) :
    s.SessionOf g assocId ∨
      .newUdpSession assocId ∈ (packetSession c s t assocId' payload target sockets).log := by
  cases hlookup : s.udpSessions.lookup assocId' with
  | some g' => exact .inl (h.of_eq (by simp [packetSession, hlookup, setTask]))
  | none =>
    cases sockets with
    | false => exact .inl (h.of_eq (by simp [packetSession, hlookup, endTask]))
    | true =>
      obtain ⟨y, hy, rfl⟩ := h
      simp only [packetSession, hlookup, newUdpSession, if_true, setTask] at hy ⊢
      by_cases heq : g = s.nextSession
      · rw [heq, Function.update_self] at hy
        obtain rfl := Option.some.inj hy
        exact .inr (List.mem_append_right s.log (List.mem_singleton.mpr rfl))
      · rw [Function.update_of_ne heq] at hy
        exact .inl ⟨y, hy, rfl⟩

/-- A session is one that was there, or it has been opened. -/
theorem step_sessionOf {c : Config} {e : Event} (h : step c s e = some s')
    (hsession : s'.SessionOf g assocId) :
    s.SessionOf g assocId ∨ .newUdpSession assocId ∈ s'.log := by
  cases e with
  | acceptUni | acceptBi | readDatagram =>
    simp only [step, spawn] at h
    split at h
    · cases h
    · cases h
      exact .inl (hsession.of_eq rfl)
  | advance t =>
    simp only [step] at h
    split at h
    case h_2 => cases h
    rename_i task _
    by_cases htask : ∀ assocId, task ≠ .dissociate assocId
    · exact .inl (hsession.of_eq (advance_keeps htask h).sessions)
    · obtain ⟨assocId', rfl⟩ := not_forall_not.mp htask
      cases h
      exact .inl hsession.of_handleDissociate
  | resolved t addrs =>
    simp only [step] at h
    split at h
    · cases h
      exact .inl (hsession.of_eq (s.dialNext_keeps t _).sessions)
    · split at h <;>
      · cases h
        exact .inl (hsession.of_eq rfl)
    · cases h
  | connected t ok =>
    simp only [step] at h
    split at h
    · cases h
      cases ok
      · exact .inl (hsession.of_eq (s.dialNext_keeps t _).sessions)
      · exact .inl (hsession.of_eq rfl)
    · cases h
  | session t sockets =>
    simp only [step] at h
    split at h
    case h_2 => cases h
    cases h
    exact hsession.of_packetSession
  | reply g' | recvError g' | tick g' | closed g' =>
    simp only [step] at h
    split at h
    case h_2 => cases h
    rename_i x hx
    repeat' split at h
    all_goals first
      | contradiction
      | cases h
        exact .inl (hsession.of_update hx rfl rfl)
  | opened | written | broken | timeout | watchdog =>
    simp only [step] at h
    repeat' split at h
    all_goals first
      | contradiction
      | cases h
        exact .inl (hsession.of_eq rfl)
  | relay r sent =>
    simp only [step] at h
    repeat' split at h
    all_goals first
      | contradiction
      | cases h
        exact .inl (hsession.of_eq (relayUdpToClient_keeps ..).sessions)
  | wait ms =>
    cases h
    exact .inl (hsession.of_eq rfl)

end

/-- A session stands under the association id of a packet that came. -/
theorem exists_carries_of_sessionOf {c : Config} {es : List Event} {s : Connection}
    (h : run (step c) new es = some s) {g : SessionId} {assocId : UInt16}
    (hsession : s.SessionOf g assocId) :
    ∃ e ∈ es, ∃ info payload, e.Carries info payload ∧ info.fragTotal = 1 ∧
      info.assocId = assocId := by
  have hopened : Action.newUdpSession assocId ∈ s.log := by
    have hall : ∀ g assocId, s.SessionOf g assocId → Action.newUdpSession assocId ∈ s.log := by
      have hreach : Reachable (step c) new s := ⟨es, h⟩
      refine @Reachable.invariant _ _ _
        (fun s => ∀ g assocId, s.SessionOf g assocId → Action.newUdpSession assocId ∈ s.log)
        new s (fun hinv _ hstep g assocId hsession => ?_) ?_ hreach
      · rcases step_sessionOf hstep hsession with hold | hnew
        · exact (step_log hstep).subset (hinv g assocId hold)
        · exact hnew
      · rintro g assocId ⟨x, hx, -⟩
        cases hx
    exact hall g assocId hsession
  -- the entry stands in the script of a packet
  obtain ⟨l, hl⟩ := exists_history h
  rw [← hl.log, Ledger.mem_log_iff] at hopened
  obtain ⟨k, hk⟩ := hopened
  cases k with
  | none => exact (hl.own _ hk).elim
  | some i =>
    have hlt : i < es.length := by
      by_contra hge
      rw [hl.sound.entries_lt (Nat.le_of_not_lt hge)] at hk
      cases hk
    refine ⟨es[i], List.getElem_mem hlt, ?_⟩
    have hscript := hl.script (List.getElem?_eq_getElem hlt)
    generalize l.entriesOf (some i) = acts at hk hscript
    cases hscript with
    | silent => cases hk
    | authenticate auth _ refused hrefused =>
      rcases hrefused with rfl | rfl <;> simp at hk
    | connect addr answer dialed _ _ _ =>
      cases addr <;> simp [Address.lookups] at hk
    | packet info payload answer opened sent hcarries hfrag _ hopened hsent =>
      refine ⟨info, payload, hcarries, hfrag, ?_⟩
      have hmem : Action.newUdpSession assocId ∈ opened := by
        rcases List.mem_append.mp hk with hk | hk
        · cases hinfo : info.addr <;> simp [hinfo, Address.lookups] at hk
        · rcases List.mem_append.mp hk with hk | hk
          · exact hk
          · rcases hsent with rfl | ⟨g, target, -, -, rfl⟩ <;> simp at hk
      rcases hopened with rfl | rfl
      · cases hmem
      · exact (Action.newUdpSession.inj (List.mem_singleton.mp hmem)).symm

/-- **Replies.**  Every datagram that a session receives has a relay of its own, with its payload
and the association id of the session, which is that of a packet of the client.  A relay sends
nothing, or once, in the mode of the connection, which is that of a packet of the client; where
the network takes what is sent, every relay that has ended has sent its packet.  A client that
parses as the server does reads the payload behind the address of the sender. -/
theorem run_replies_relayed (c : Config) (es : List Event) (s : Connection)
    (h : run (step c) new es = some s) :
    List.Forall₂ (fun r task => task.For c s r) (replies es) s.relayTasks ∧
      (∀ (i : RelayId) (task : RelayTask), s.relayTasks[i]? = some task →
        task.Sent s.udpMode (sendings i s.log)) ∧
      (∀ i, s.relayTasks.length ≤ i → sendings i s.log = []) ∧
      (Every (step c) Delivers new es → ∀ (i : RelayId) (task : RelayTask),
        s.relayTasks[i]? = some task → task.stage = .ended → ∃ mode, sendings i s.log = [⟨mode, task.bytes⟩]) ∧
      (∀ (r : Reply) (task : RelayTask), task.For c s r → ∃ assocId, s.SessionOf r.session assocId ∧
        (∃ e ∈ es, ∃ info payload, e.Carries info payload ∧ info.fragTotal = 1 ∧
          info.assocId = assocId) ∧
        ∀ t, (Event.readDatagram t task.bytes).Carries (r.info assocId task.payload)
            task.payload ∧
          (task.payload.length < 65536 → (Event.acceptUni t task.bytes).Carries
            (r.info assocId task.payload) task.payload)) ∧
      ∀ mode, s.udpMode = some mode →
        ∃ e ∈ es, e.mode = some mode ∧ ∃ info payload, e.Carries info payload := by
  have hinv : RepliesInv c es s :=
    history_of_run (fun hinv hstep => hinv.step hstep) (RepliesInv.start c) h
  refine ⟨hinv.tasks, hinv.sent, hinv.unsent, hinv.whole, fun r task hfor => ?_, hinv.mode⟩
  obtain ⟨assocId, hsession, hreads⟩ := hfor.carries
  exact ⟨assocId, hsession, exists_carries_of_sessionOf h hsession, hreads⟩

/-- A second reply, which is relayed before the first one. -/
def overtakingRun : List Event :=
  replyRun ++ [.reply 0 10 [111, 107] ⟨.v4 (.new 192 0 2 1), 53⟩, .relay 1 true, .relay 0 true]

/-- Both come to the client. -/
theorem run_replies_relayed_overtakingRun :
    ∃ s, run (step sampleConfig) new overtakingRun = some s ∧
      s.relayTasks.map (·.payload) = [[104, 105], [111, 107]] ∧
      ∀ (i : RelayId) (task : RelayTask), s.relayTasks[i]? = some task →
        ∃ mode, sendings i s.log = [⟨mode, task.bytes⟩] := by
  have hend : (run (step sampleConfig) new overtakingRun).map
      (fun s => s.relayTasks.map fun task => (task.payload, task.stage)) =
        some [([104, 105], .ended), ([111, 107], .ended)] := by
    decide +kernel
  obtain ⟨s, hrun, hs⟩ := Option.map_eq_some_iff.mp hend
  obtain ⟨-, -, -, hwhole, -⟩ := run_replies_relayed sampleConfig overtakingRun s hrun
  refine ⟨s, hrun, ?_, fun i task htask => hwhole (by decide +kernel) i task htask ?_⟩
  · have hpayloads := congrArg (List.map Prod.fst) hs
    rwa [List.map_map] at hpayloads
  · have hmem := List.mem_map_of_mem (f := fun task : RelayTask => (task.payload, task.stage))
      (List.mem_of_getElem? htask)
    rw [hs] at hmem
    simp only [List.mem_cons, List.not_mem_nil, or_false, Prod.mk.injEq] at hmem
    rcases hmem with ⟨-, hstage⟩ | ⟨-, hstage⟩
    · exact hstage
    · exact hstage

end Connection

end Ruproxy.Tuic
