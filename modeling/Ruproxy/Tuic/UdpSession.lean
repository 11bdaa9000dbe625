/-
  Tuic/UdpSession.lean --- the sessions in `udp_sessions` and their listeners.

  A listener ends when its session is closed, which first takes it out of the
  table, and when nothing has come from the network for `udp_timeout`, which does
  not.  Later packets of the association then go out through a session that
  relays no reply.  The theorem says for every run when this does not happen.
-/
import Ruproxy.Tuic.Auth

set_option autoImplicit false

namespace Ruproxy.Tuic

open Ruproxy.Foundation
open Ruproxy.Foundation.Transition

/-! ## The property -/

namespace Connection

/-- The listener of the session is in its loop. -/
def Listens (s : Connection) (g : SessionId) : Prop :=
  ∃ x, s.sessions g = some x ∧ x.listener ≠ .ended

/-- Every session in the table has its listener. -/
def SessionsListen (s : Connection) : Prop :=
  ∀ assocId g, s.udpSessions.lookup assocId = some g → s.Listens g

/-- A listener is what it takes to relay a reply. -/
theorem reply_enabled_iff (c : Config) (s : Connection) (g : SessionId) (pktId : UInt16)
    (pkt : Bytes) (addr : SocketAddr) :
    (∃ s', step c s (.reply g pktId pkt addr) = some s') ↔ s.Listens g := by
  unfold Listens
  simp only [step]
  cases s.sessions g with
  | none => simp
  | some x => cases hx : x.listener <;> simp [hx]

end Connection

/-- No interval of a listener ticks while its session is in the table, and no session is
made with an interval of zero. -/
def ListenerStays (c : Config) (s : Connection) : Event → Prop
  | .tick g => ∀ assocId, s.udpSessions.lookup assocId ≠ some g
  | .session t true =>
      match s.tasks.lookup t with
      | some (.packetSession assocId _ _) =>
          s.udpSessions.lookup assocId = none → c.udpTimeout ≠ 0
      | _ => True
  | _ => True

theorem listenerStays_of_ne_tick {c : Config} {s : Connection} {e : Event}
    (hzero : c.udpTimeout ≠ 0) (he : ∀ g, e ≠ .tick g) : ListenerStays c s e := by
  unfold ListenerStays
  split
  · exact absurd rfl (he _)
  · split
    · exact fun _ => hzero
    · trivial
  · trivial

/-! ## What a step does to the sessions -/

namespace Connection

/-- What a step does to the sessions and their table. -/
inductive Touches (c : Config) (s s' : Connection) (e : Event) : Prop where
  | same (h : s.Keeps s') (hok : ListenerStays c s e)
  /-- a packet found no session -/
  | created (assocId : UInt16) (x : UdpSession) (hnone : s.udpSessions.lookup assocId = none)
      (hassoc : x.assocId = assocId) (hopen : x.closed = false)
      (hlistens : x.listener ≠ .ended ↔ ListenerStays c s e)
      (htable : s'.udpSessions = s.udpSessions.insert assocId s.nextSession)
      (hsessions : s'.sessions = Function.update s.sessions s.nextSession (some x))
      (hnext : s'.nextSession = s.nextSession + 1)
  | dissociated (assocId : UInt16) (g : SessionId) (x : UdpSession)
      (hlookup : s.udpSessions.lookup assocId = some g) (hx : s.sessions g = some x)
      (hok : ListenerStays c s e) (htable : s'.udpSessions = s.udpSessions.erase assocId)
      (hsessions : s'.sessions = Function.update s.sessions g (some { x with closed := true }))
      (hnext : s'.nextSession = s.nextSession)
  /-- something came from the network -/
  | refreshed (g : SessionId) (x : UdpSession) (l : Listener) (hx : s.sessions g = some x)
      (hl : l ≠ .ended) (hok : ListenerStays c s e) (htable : s'.udpSessions = s.udpSessions)
      (hsessions : s'.sessions = Function.update s.sessions g (some { x with listener := l }))
      (hnext : s'.nextSession = s.nextSession)
  | ticked (g : SessionId) (x : UdpSession) (hx : s.sessions g = some x) (he : e = .tick g)
      (htable : s'.udpSessions = s.udpSessions)
      (hsessions : s'.sessions =
        Function.update s.sessions g (some { x with listener := .ended }))
      (hnext : s'.nextSession = s.nextSession)
  | stopped (g : SessionId) (x : UdpSession) (hx : s.sessions g = some x)
      (hclosed : x.closed = true) (hok : ListenerStays c s e)
      (htable : s'.udpSessions = s.udpSessions)
      (hsessions : s'.sessions =
        Function.update s.sessions g (some { x with listener := .ended }))
      (hnext : s'.nextSession = s.nextSession)

/-- A session in the table was not closed, and stands under its own association id. -/
structure SessionInv (s : Connection) : Prop where
  fresh : ∀ g, s.nextSession ≤ g → s.sessions g = none
  stored : ∀ assocId g, s.udpSessions.lookup assocId = some g →
    ∃ x, s.sessions g = some x ∧ x.assocId = assocId ∧ x.closed = false

theorem sessionInv_new : new.SessionInv where
  fresh _ _ := rfl
  stored _ _ h := nomatch h

theorem handleDissociate_touches {c : Config} {s : Connection} (hinv : s.SessionInv)
    (t : TaskId) (assocId : UInt16) :
    Touches c s (s.handleDissociate t assocId) (.advance t) := by
  unfold handleDissociate
  split
  · rename_i g hlookup
    obtain ⟨x, hx, -, -⟩ := hinv.stored assocId g hlookup
    dsimp only
    rw [hx]
    exact .dissociated assocId g x hlookup hx trivial rfl rfl rfl
  · exact .same ⟨List.prefix_rfl, rfl, rfl, rfl⟩ trivial

theorem packetSession_touches {c : Config} {s : Connection} {t : TaskId} {assocId : UInt16}
    {payload : Bytes} {target : SocketAddr} {sockets : Bool}
    (htask : s.tasks.lookup t = some (.packetSession assocId payload target)) :
    Touches c s (packetSession c s t assocId payload target sockets) (.session t sockets) := by
  unfold packetSession
  split
  · rename_i g hlookup
    refine .same (keeps_setTask ..) ?_
    cases sockets with
    | false => trivial
    | true => simp [ListenerStays, htask, hlookup]
  · rename_i hnone
    cases sockets with
    | false => exact .same ⟨List.prefix_rfl, rfl, rfl, rfl⟩ trivial
    | true =>
      refine .created assocId _ hnone rfl rfl ?_ rfl rfl rfl
      by_cases hzero : c.udpTimeout = 0
      · simp [ListenerStays, htask, hnone, hzero]
      · simp [ListenerStays, htask, hnone, hzero]

theorem advance_touches {c : Config} {s s' : Connection} {t : TaskId} {task : Task}
    (hinv : s.SessionInv) (h : advance c s t task = some s') :
    Touches c s s' (.advance t) := by
  by_cases htask : ∀ assocId, task ≠ .dissociate assocId
  · exact .same (advance_keeps htask h) trivial
  · obtain ⟨assocId, rfl⟩ := not_forall_not.mp htask
    cases h
    exact handleDissociate_touches hinv t assocId

theorem step_touches {c : Config} {s s' : Connection} {e : Event} (hinv : s.SessionInv)
    (h : step c s e = some s') : Touches c s s' e := by
  cases e with
  | acceptUni | acceptBi | readDatagram =>
    simp only [step, spawn] at h
    split at h
    · cases h
    · obtain rfl := Option.some.inj h
      exact .same ⟨List.prefix_rfl, rfl, rfl, rfl⟩ trivial
  | advance t =>
    simp only [step] at h
    split at h
    · exact advance_touches hinv h
    · cases h
  | resolved t addrs =>
    simp only [step] at h
    split at h
    · obtain rfl := Option.some.inj h
      exact .same (dialNext_keeps ..) trivial
    · split at h <;>
      · obtain rfl := Option.some.inj h
        exact .same ⟨List.prefix_rfl, rfl, rfl, rfl⟩ trivial
    · cases h
  | connected t ok =>
    simp only [step] at h
    split at h
    · obtain rfl := Option.some.inj h
      cases ok
      · exact .same (dialNext_keeps ..) trivial
      · exact .same ⟨List.prefix_rfl, rfl, rfl, rfl⟩ trivial
    · cases h
  | session t sockets =>
    simp only [step] at h
    split at h
    · rename_i htask
      obtain rfl := Option.some.inj h
      exact packetSession_touches htask
    · cases h
  | reply g pktId pkt addr | recvError g =>
    simp only [step] at h
    split at h
    case h_2 => cases h
    rename_i x hx
    split at h
    · obtain rfl := Option.some.inj h
      exact .refreshed g x (.running (s.now + c.udpTimeout)) hx (by simp) trivial rfl rfl rfl
    · cases h
  | tick g =>
    simp only [step] at h
    split at h
    case h_2 => cases h
    rename_i x hx
    split at h
    · split at h
      · obtain rfl := Option.some.inj h
        exact .ticked g x hx rfl rfl rfl rfl
      · cases h
    · cases h
  | closed g =>
    simp only [step] at h
    split at h
    case h_2 => cases h
    rename_i x hx
    split at h
    · rename_i hcond
      obtain rfl := Option.some.inj h
      exact .stopped g x hx hcond.1 trivial rfl rfl rfl
    · cases h
  | relay r sent =>
    simp only [step] at h
    repeat' split at h
    all_goals first
      | contradiction
      | obtain rfl := Option.some.inj h
        exact .same (relayUdpToClient_keeps ..) trivial
  | wait ms =>
    obtain rfl := Option.some.inj h
    exact .same ⟨List.prefix_rfl, rfl, rfl, rfl⟩ trivial
  | opened r ok =>
    simp only [step] at h
    repeat' split at h
    all_goals first
      | contradiction
      | obtain rfl := Option.some.inj h
        exact .same (keeps_setRelay ..) trivial
  | written r n =>
    simp only [step] at h
    repeat' split at h
    all_goals first
      | contradiction
      | obtain rfl := Option.some.inj h
        exact .same ((keeps_setRelay ..).trans (keeps_record ..)) trivial
  | broken | timeout | watchdog =>
    simp only [step] at h
    repeat' split at h
    all_goals first
      | contradiction
      | obtain rfl := Option.some.inj h
        exact .same ⟨by simp, rfl, rfl, rfl⟩ trivial

/-! ## The invariant -/

/-- A session that changes keeps its association id. -/
theorem SessionInv.update {s s' : Connection} (hinv : s.SessionInv) {g : SessionId}
    {x x' : UdpSession} (hx : s.sessions g = some x)
    (hsessions : s'.sessions = Function.update s.sessions g (some x'))
    (hnext : s'.nextSession = s.nextSession) (hassoc : x'.assocId = x.assocId)
    (hopen : (∃ assocId, s'.udpSessions.lookup assocId = some g) → x'.closed = x.closed)
    (htable : ∀ assocId j, s'.udpSessions.lookup assocId = some j →
      s.udpSessions.lookup assocId = some j) : s'.SessionInv where
  fresh j hj := by
    rw [hnext] at hj
    have hnone := hinv.fresh j hj
    have hne : j ≠ g := by
      rintro rfl
      rw [hx] at hnone
      cases hnone
    rw [hsessions, Function.update_of_ne hne]
    exact hnone
  stored assocId j hj := by
    obtain ⟨y, hy, hyassoc, hyopen⟩ := hinv.stored assocId j (htable assocId j hj)
    rw [hsessions]
    by_cases heq : j = g
    · subst heq
      rw [hx] at hy
      obtain rfl := Option.some.inj hy
      exact ⟨x', Function.update_self .., hassoc.trans hyassoc, (hopen ⟨assocId, hj⟩).trans hyopen⟩
    · exact ⟨y, (Function.update_of_ne heq ..).trans hy, hyassoc, hyopen⟩

/-- After the removal of an association id, its session is in the table no more. -/
theorem SessionInv.erased {s : Connection} (hinv : s.SessionInv) {assocId : UInt16}
    {g : SessionId} (hlookup : s.udpSessions.lookup assocId = some g) (assocId' : UInt16) :
    (s.udpSessions.erase assocId).lookup assocId' ≠ some g := by
  intro h
  by_cases heq : assocId' = assocId
  · rw [heq, AList.lookup_erase] at h
    cases h
  · rw [AList.lookup_erase_ne heq] at h
    obtain ⟨x, hx, hassoc, -⟩ := hinv.stored assocId g hlookup
    obtain ⟨y, hy, hassoc', -⟩ := hinv.stored assocId' g h
    rw [hx] at hy
    obtain rfl := Option.some.inj hy
    exact heq (hassoc'.symm.trans hassoc)

theorem lookup_of_erase {m : Table UInt16 SessionId} {assocId assocId' : UInt16}
    {g : SessionId} (h : (m.erase assocId).lookup assocId' = some g) :
    m.lookup assocId' = some g := by
  by_cases heq : assocId' = assocId
  · rw [heq, AList.lookup_erase] at h
    cases h
  · rwa [AList.lookup_erase_ne heq] at h

theorem step_sessionInv {c : Config} {s s' : Connection} {e : Event} (hinv : s.SessionInv)
    (_ : True) (h : step c s e = some s') : s'.SessionInv := by
  cases step_touches hinv h with
  | same hsame _ =>
    obtain ⟨-, htable, hsessions, hnext⟩ := hsame
    exact ⟨by rw [hnext, hsessions]; exact hinv.fresh, by rw [htable, hsessions]; exact hinv.stored⟩
  | created assocId x hnone hassoc hopen _ htable hsessions hnext =>
    refine ⟨fun j hj => ?_, fun assocId' j hj => ?_⟩
    · rw [hnext] at hj
      have hlt : s.nextSession < j := hj
      rw [hsessions, Function.update_of_ne (Nat.ne_of_gt hlt)]
      exact hinv.fresh j (Nat.le_of_lt hlt)
    · rw [htable] at hj
      rw [hsessions]
      by_cases heq : assocId' = assocId
      · rw [heq, AList.lookup_insert] at hj
        obtain rfl := Option.some.inj hj
        exact ⟨x, Function.update_self .., hassoc.trans heq.symm, hopen⟩
      · rw [AList.lookup_insert_ne heq] at hj
        obtain ⟨y, hy, hyassoc, hyopen⟩ := hinv.stored assocId' j hj
        have hne : j ≠ s.nextSession := by
          rintro rfl
          rw [hinv.fresh _ (Nat.le_refl _)] at hy
          cases hy
        exact ⟨y, (Function.update_of_ne hne ..).trans hy, hyassoc, hyopen⟩
  | dissociated assocId g x hlookup hx _ htable hsessions hnext =>
    refine hinv.update hx hsessions hnext rfl ?_ ?_
    · rintro ⟨assocId', hstill⟩
      rw [htable] at hstill
      exact absurd hstill (hinv.erased hlookup assocId')
    · intro assocId' j hj
      rw [htable] at hj
      exact lookup_of_erase hj
  | refreshed g x l hx _ _ htable hsessions hnext =>
    exact hinv.update hx hsessions hnext rfl (fun _ => rfl) fun _ _ hj => htable ▸ hj
  | ticked g x hx _ htable hsessions hnext =>
    exact hinv.update hx hsessions hnext rfl (fun _ => rfl) fun _ _ hj => htable ▸ hj
  | stopped g x hx _ _ htable hsessions hnext =>
    exact hinv.update hx hsessions hnext rfl (fun _ => rfl) fun _ _ hj => htable ▸ hj

/-! ## Every run -/

/-- Only the session that changes has to be looked at. -/
theorem SessionsListen.update {s s' : Connection} (hs : s.SessionsListen) {g : SessionId}
    {x' : UdpSession}
    (htable : ∀ assocId j, s'.udpSessions.lookup assocId = some j → j ≠ g →
      s.udpSessions.lookup assocId = some j)
    (hsessions : s'.sessions = Function.update s.sessions g (some x'))
    (hg : (∃ assocId, s'.udpSessions.lookup assocId = some g) → x'.listener ≠ .ended) :
    s'.SessionsListen := by
  intro assocId j hj
  unfold Listens
  rw [hsessions]
  by_cases heq : j = g
  · subst heq
    exact ⟨x', Function.update_self .., hg ⟨assocId, hj⟩⟩
  · obtain ⟨y, hy, hlistens⟩ := hs assocId j (htable assocId j hj heq)
    exact ⟨y, (Function.update_of_ne heq ..).trans hy, hlistens⟩

/-- **One step.**  A step leaves a session without its listener in the table exactly if
the interval of a listener ticks under it, or is zero. -/
theorem sessionsListen_step_iff {c : Config} {s s' : Connection} {e : Event}
    (hinv : s.SessionInv) (hs : s.SessionsListen) (h : step c s e = some s') :
    s'.SessionsListen ↔ ListenerStays c s e := by
  cases step_touches hinv h with
  | same hsame hok =>
    obtain ⟨-, htable, hsessions, -⟩ := hsame
    refine iff_of_true (fun assocId g hg => ?_) hok
    obtain ⟨x, hx, hlistens⟩ := hs assocId g (htable ▸ hg)
    exact ⟨x, by rw [hsessions]; exact hx, hlistens⟩
  | created assocId x hnone hassoc hopen hlistens htable hsessions hnext =>
    rw [← hlistens]
    constructor
    · intro hall
      obtain ⟨y, hy, hy'⟩ := hall assocId s.nextSession (by rw [htable, AList.lookup_insert])
      rw [hsessions, Function.update_self] at hy
      obtain rfl := Option.some.inj hy
      exact hy'
    · refine fun hx => hs.update (fun assocId' j hj hne => ?_) hsessions fun _ => hx
      rw [htable] at hj
      by_cases heq : assocId' = assocId
      · rw [heq, AList.lookup_insert] at hj
        exact absurd (Option.some.inj hj).symm hne
      · rwa [AList.lookup_insert_ne heq] at hj
  | dissociated assocId g x hlookup hx hok htable hsessions hnext =>
    refine iff_of_true (hs.update (fun assocId' j hj _ => ?_) hsessions ?_) hok
    · rw [htable] at hj
      exact lookup_of_erase hj
    · rintro ⟨assocId', hstill⟩
      rw [htable] at hstill
      exact absurd hstill (hinv.erased hlookup assocId')
  | refreshed g x l hx hl hok htable hsessions hnext =>
    exact iff_of_true (hs.update (fun _ _ hj _ => htable ▸ hj) hsessions fun _ => hl) hok
  | ticked g x hx he htable hsessions hnext =>
    subst he
    constructor
    · intro hall assocId hstored
      obtain ⟨y, hy, hy'⟩ := hall assocId g (htable.symm ▸ hstored)
      rw [hsessions, Function.update_self] at hy
      obtain rfl := Option.some.inj hy
      exact hy' rfl
    · intro hout
      refine hs.update (fun _ _ hj _ => htable ▸ hj) hsessions ?_
      rintro ⟨assocId, hstored⟩
      exact absurd (htable ▸ hstored) (hout assocId)
  | stopped g x hx hclosed hok htable hsessions hnext =>
    refine iff_of_true (hs.update (fun _ _ hj _ => htable ▸ hj) hsessions ?_) hok
    rintro ⟨assocId, hstored⟩
    obtain ⟨y, hy, -, hopen⟩ := hinv.stored assocId g (htable ▸ hstored)
    rw [hx] at hy
    obtain rfl := Option.some.inj hy
    rw [hclosed] at hopen
    cases hopen

/-- **The session table.**  In every run of a connection, all sessions in the table have
their listener in every state, exactly when no interval of a listener ticks while its
session is in the table, and none is made with an interval of zero. -/
theorem sessionsListen_iff (c : Config) (es : List Event) (s : Connection)
    (h : run (step c) new es = some s) :
    Always (step c) SessionsListen new es ↔ Every (step c) (ListenerStays c) new es :=
  always_iff_every step_sessionInv sessionsListen_step_iff sessionInv_new
    (fun _ _ hlookup => nomatch hlookup) h

end Connection

/-! ## Instances -/

/-- An authenticated client sends a datagram under association id 7. -/
def packetRun : List Event :=
  authenticateRun ++
    [.readDatagram 1 samplePacket, .advance 1, .advance 1, .advance 1, .advance 1,
      .session 1 true, .advance 1]

/-- Its reply comes in time. -/
def replyRun : List Event :=
  packetRun ++ [.wait 20000, .reply 0 9 [104, 105] ⟨.v4 (.new 192 0 2 1), 53⟩]

/-- As long as no interval ticks, the session has its listener. -/
theorem sessionsListen_iff_replyRun :
    Always (Connection.step sampleConfig) Connection.SessionsListen .new replyRun := by
  have hrun : (run (Connection.step sampleConfig) .new replyRun).isSome = true := by
    decide +kernel
  obtain ⟨s, hrun⟩ := Option.isSome_iff_exists.mp hrun
  refine (Connection.sessionsListen_iff sampleConfig replyRun s hrun).mpr ?_
  refine every_of_forall (fun s e he => listenerStays_of_ne_tick (by decide) fun g => ?_) _
  rintro rfl
  simp [replyRun, packetRun, authenticateRun] at he

/-- No reply comes for 30 seconds. -/
theorem not_sessionsListen_tickRun :
    ¬ ∀ c es s, run (Connection.step c) .new es = some s →
      Always (Connection.step c) Connection.SessionsListen .new es := by
  intro hall
  have hend : (run (Connection.step sampleConfig) .new (packetRun ++ [.wait 30000, .tick 0])).map
      (fun s => (s.udpSessions.lookup 7, (s.sessions 0).map (·.listener))) =
      some (some 0, some .ended) := by decide +kernel
  obtain ⟨s, hrun, hs⟩ := Option.map_eq_some_iff.mp hend
  rw [Prod.mk.injEq] at hs
  obtain ⟨x, hx, hlistens⟩ :=
    hall sampleConfig _ s hrun _ s List.prefix_rfl hrun 7 0 hs.1
  rw [hx] at hs
  exact hlistens (Option.some.inj hs.2)

end Ruproxy.Tuic
