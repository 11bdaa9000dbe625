/-
  Tuic/Interleaving.lean --- the log of a connection, request by request.

  The handlers of a connection run in any order and write one log.  The ledger of the run
  tells which stream or datagram each entry was written for; what is left after the
  schedule is taken away is the script of each request.
-/
import Ruproxy.Tuic.Requests

set_option autoImplicit false

namespace Ruproxy.Tuic

open Ruproxy.Foundation
open Ruproxy.Foundation.Transition

/-! ## Handlers and their requests -/

/-- How a handler behind the gate stands to its request. -/
def Gated.For (t : TaskId) (e : Event) : Gated → Prop
  | .packetStream info recv => info.addr.Fits ∧ e = .acceptUni t (info.toBytes ++ recv)
  | .bi ver cmd recv => e = .acceptBi t (ver :: cmd :: recv)
  | .datagram dg => e = .readDatagram t dg

theorem Gated.For.unique {t : TaskId} {e e' : Event} {k : Gated} (h : k.For t e)
    (h' : k.For t e') : e' = e := by
  cases k with
  | packetStream info recv => exact h'.2.trans h.2.symm
  | bi ver cmd recv => exact Eq.trans h' (Eq.symm h)
  | datagram dg => exact Eq.trans h' (Eq.symm h)

/-- How a handler stands to its request and to what it has done for it. -/
def Task.For (es : List Event) (s : Connection) (i : Nat) (e : Event) (t : TaskId)
    (acts : List Action) : Task → Prop
  | .uni recv => e = .acceptUni t recv ∧ acts = []
  | .bi recv => e = .acceptBi t recv ∧ acts = []
  | .datagram dg => e = .readDatagram t dg ∧ acts = []
  | .authenticate auth => e.Idle ∧ e.Authenticates auth ∧ acts = []
  | .setUuid _ | .setFlag | .setNotify =>
      e.Idle ∧ ∃ auth, e.Authenticates auth ∧ acts = [.authenticate auth.uuid auth.token]
  | .dissociate _ => e.Idle ∧ acts = []
  | .gate _ k | .passed k => k.For t e ∧ acts = []
  | .connect addr => e.Connects addr ∧ acts = []
  | .connectResolving =>
      ∃ name port, e.Connects (.domain name port) ∧ acts = [.resolve name port]
  | .connecting addrs => ∃ addr dialed, e.Connects addr ∧ Answer es i addr (dialed ++ addrs) ∧
      dialed ≠ [] ∧ acts = addr.lookups ++ dialed.map .dial
  | .packet info payload mode => e.Carries info payload ∧ e.mode = some mode ∧ acts = []
  | .packetResolving assocId payload => ∃ info name port, e.Carries info payload ∧
      info.fragTotal = 1 ∧ info.assocId = assocId ∧ info.addr = .domain name port ∧
      acts = info.addr.lookups
  | .packetSession assocId payload target => ∃ info answer, e.Carries info payload ∧
      info.fragTotal = 1 ∧ info.assocId = assocId ∧ Answer es i info.addr answer ∧
      answer.head? = some target ∧ acts = info.addr.lookups
  | .packetSend g payload target => ∃ info answer opened, e.Carries info payload ∧
      info.fragTotal = 1 ∧ s.SessionOf g info.assocId ∧ Answer es i info.addr answer ∧
      answer.head? = some target ∧
      (opened = [] ∨ opened = [.newUdpSession info.assocId]) ∧ acts = info.addr.lookups ++ opened

theorem Task.For.mono {es : List Event} {s s' : Connection} {i : Nat} {e : Event} {t : TaskId}
    {acts : List Action} {task : Task} (h : task.For es s i e t acts) (hgrows : s.Grows s')
    (ev : Event) : task.For (es ++ [ev]) s' i e t acts := by
  cases task with
  | connecting addrs =>
    obtain ⟨addr, dialed, hconnects, hanswer, hrest⟩ := h
    exact ⟨addr, dialed, hconnects, hanswer.mono ev, hrest⟩
  | packetSession assocId payload target =>
    obtain ⟨info, answer, hcarries, hfrag, hassoc, hanswer, hrest⟩ := h
    exact ⟨info, answer, hcarries, hfrag, hassoc, hanswer.mono ev, hrest⟩
  | packetSend g payload target =>
    obtain ⟨info, answer, opened, hcarries, hfrag, hg, hanswer, hrest⟩ := h
    exact ⟨info, answer, opened, hcarries, hfrag, hgrows g _ hg, hanswer.mono ev, hrest⟩
  | _ => exact h

/-- What a handler has done so far is a script of its request. -/
theorem Task.For.script {es : List Event} {s : Connection} {i : Nat} {e : Event} {t : TaskId}
    {acts : List Action} {task : Task} (h : task.For es s i e t acts) : Script es s i e acts := by
  cases task with
  | uni | bi | datagram | gate | passed | connect | dissociate =>
    obtain ⟨-, rfl⟩ := h
    exact .silent
  | authenticate | packet =>
    obtain ⟨-, -, rfl⟩ := h
    exact .silent
  | setUuid | setFlag | setNotify =>
    obtain ⟨-, auth, hauth, rfl⟩ := h
    exact .authenticate auth hauth [] (.inl rfl)
  | connectResolving =>
    obtain ⟨name, port, hconnects, rfl⟩ := h
    exact .connect _ [] [] hconnects (.unknown _) List.prefix_rfl
  | connecting addrs =>
    obtain ⟨addr, dialed, hconnects, hanswer, -, rfl⟩ := h
    exact .connect addr _ dialed hconnects hanswer (List.prefix_append ..)
  | packetResolving assocId payload =>
    obtain ⟨info, name, port, hcarries, hfrag, -, -, rfl⟩ := h
    have hscript : Script es s i e (info.addr.lookups ++ ([] ++ [])) :=
      .packet info payload [] [] [] hcarries hfrag (.unknown _) (.inl rfl) (.inl rfl)
    rwa [List.append_nil, List.append_nil] at hscript
  | packetSession assocId payload target =>
    obtain ⟨info, answer, hcarries, hfrag, -, hanswer, -, rfl⟩ := h
    have hscript : Script es s i e (info.addr.lookups ++ ([] ++ [])) :=
      .packet info payload answer [] [] hcarries hfrag hanswer (.inl rfl) (.inl rfl)
    rwa [List.append_nil, List.append_nil] at hscript
  | packetSend g payload target =>
    obtain ⟨info, answer, opened, hcarries, hfrag, -, hanswer, -, hopened, rfl⟩ := h
    have hscript : Script es s i e (info.addr.lookups ++ (opened ++ [])) :=
      .packet info payload answer opened [] hcarries hfrag hanswer hopened (.inl rfl)
    rwa [List.append_nil] at hscript

/-! ## The ledger of a run -/

/-- Neither the network nor the gate gets in the way: no handler is broken off or times out,
names are resolved, sockets are there. -/
def Kind (s : Connection) : Event → Prop
  | .broken _ | .timeout _ => False
  | .resolved _ addrs => addrs.getD [] ≠ []
  | .session _ sockets => sockets = true
  | .advance t =>
      match s.tasks.lookup t with
      | some (.packetSend g _ target) =>
          ∀ x ∈ s.sessions g, x.hasSocket (unmap target) = true
      | _ => True
  | _ => True

instance (s : Connection) (e : Event) : Decidable (Kind s e) := by
  unfold Kind
  split
  case h_5 => split <;> infer_instance
  all_goals infer_instance

/-- What the server does of its own: a reply is relayed, an unauthenticated connection
is closed. -/
def Action.ofServer : Action → Prop
  | .relay _ _ _ => True
  | .close reason => reason = "auth timeout"
  | _ => False

/-- The ledger of the events so far. -/
structure History (c : Config) (es : List Event) (s : Connection) (l : Ledger TaskId Action) :
    Prop where
  run : Transition.run (Connection.step c) .new es = some s
  sessions : s.SessionInv
  sound : l.Sound es.length
  log : l.log = s.log
  held : ∀ t, (l.held t).isSome = (s.tasks.lookup t).isSome
  handled : ∀ t i, l.held t = some i → HandledBy es i t
  working : ∀ t task i, s.tasks.lookup t = some task → l.held t = some i →
    ∃ e, es[i]? = some e ∧ task.For es s i e t (l.entriesOf (some i))
  finished : ∀ i e, es[i]? = some e → (∀ t, l.held t ≠ some i) →
    Script es s i e (l.entriesOf (some i)) ∧
      (Every (Connection.step c) Kind .new es → Performed e (l.entriesOf (some i)))
  own : ∀ a ∈ l.entriesOf none, a.ofServer

namespace History

variable {c : Config} {es : List Event} {s s' : Connection} {l : Ledger TaskId Action} {ev : Event}

theorem start (c : Config) : History c [] .new .new where
  run := rfl
  sessions := Connection.sessionInv_new
  sound := Ledger.sound_new
  log := rfl
  held _ := rfl
  handled _ _ h := nomatch h
  working _ _ _ h := nomatch h
  finished _ _ h := nomatch h
  own _ h := nomatch h

theorem run_concat (h : History c es s l) (hstep : Connection.step c s ev = some s') :
    Transition.run (Connection.step c) .new (es ++ [ev]) = some s' := by
  rw [run_append, h.run, Option.bind_some, run_cons, hstep]
  rfl

theorem sessions_step (h : History c es s l) (hstep : Connection.step c s ev = some s') :
    s'.SessionInv :=
  Connection.step_sessionInv h.sessions trivial hstep

theorem kind_of_every (h : History c es s l)
    (hev : Every (Connection.step c) Kind .new (es ++ [ev])) :
    Every (Connection.step c) Kind .new es ∧ Kind s ev := by
  obtain ⟨hes, hlast⟩ := every_append.mp hev
  exact ⟨hes, (hlast s h.run).1⟩

/-- An event is one of those before, or the last. -/
theorem old_or_last {i : Nat} {e : Event}
    (hi : (es ++ [ev])[i]? = some e) : es[i]? = some e ∨ i = es.length ∧ e = ev := by
  by_cases hlt : i < es.length
  · rw [List.getElem?_append_left hlt] at hi
    exact .inl hi
  · rw [List.getElem?_append_right (Nat.le_of_not_lt hlt)] at hi
    have hzero : i - es.length = 0 := by
      by_contra hne
      rw [List.getElem?_eq_none (by rw [List.length_singleton]; omega)] at hi
      cases hi
    rw [hzero] at hi
    exact .inr ⟨by omega, (Option.some.inj hi).symm⟩

/-- A request that no handler holds, unless it is the last event, has been finished before. -/
theorem finished_of_free (h : History c es s l) (hstep : Connection.step c s ev = some s')
    {i : Nat} {e : Event} (hi : (es ++ [ev])[i]? = some e) (hlast : i = es.length → ev.Idle)
    (hfree : ∀ t, l.held t ≠ some i) :
    Script (es ++ [ev]) s' i e (l.entriesOf (some i)) ∧
      (Every (Connection.step c) Kind .new (es ++ [ev]) →
        Performed e (l.entriesOf (some i))) := by
  rcases old_or_last hi with hi | ⟨rfl, rfl⟩
  · obtain ⟨hscript, hperformed⟩ := h.finished i e hi hfree
    exact ⟨hscript.mono (Connection.step_grows h.sessions hstep) ev,
      fun hev => hperformed (h.kind_of_every hev).1⟩
  · rw [h.sound.entries_lt (Nat.le_refl _)]
    exact ⟨.silent, fun _ => (hlast rfl).performed []⟩

/-- A handler that does not move still stands to its request. -/
theorem working_of_ne (h : History c es s l) (hstep : Connection.step c s ev = some s')
    {t : TaskId} {task : Task} {i : Nat} (ht : s.tasks.lookup t = some task)
    (hi : l.held t = some i) :
    ∃ e, (es ++ [ev])[i]? = some e ∧
      task.For (es ++ [ev]) s' i e t (l.entriesOf (some i)) := by
  obtain ⟨e, he, hfor⟩ := h.working t task i ht hi
  exact ⟨e, getElem?_concat he ev, hfor.mono (Connection.step_grows h.sessions hstep) ev⟩

/-- The request of a handler. -/
theorem exists_held (h : History c es s l) {t : TaskId} {task : Task}
    (ht : s.tasks.lookup t = some task) : ∃ i, l.held t = some i :=
  Option.isSome_iff_exists.mp (by rw [h.held, ht]; rfl)

/-- What was done for a request is a script of it, whether its handler is done or not. -/
theorem script (h : History c es s l) {i : Nat} {e : Event} (hi : es[i]? = some e) :
    Script es s i e (l.entriesOf (some i)) := by
  by_cases hfree : ∀ t, l.held t ≠ some i
  · exact (h.finished i e hi hfree).1
  · simp only [not_forall, not_not] at hfree
    obtain ⟨t, ht⟩ := hfree
    have hsome : (s.tasks.lookup t).isSome = true := by
      rw [← h.held, ht]
      rfl
    obtain ⟨task, htask⟩ := Option.isSome_iff_exists.mp hsome
    obtain ⟨e', he', hfor⟩ := h.working t task i htask ht
    rw [hi] at he'
    obtain rfl := Option.some.inj he'
    exact hfor.script

/-- An event without a handler: the server may do something of its own. -/
theorem stay (h : History c es s l) (hstep : Connection.step c s ev = some s')
    (hev : ev.handler = none) {as : List Action} (hlog : s'.log = s.log ++ as) (htasks : s'.tasks = s.tasks)
    (hown : ∀ a ∈ as, a.ofServer) : History c (es ++ [ev]) s' (l.write none as) where
  run := h.run_concat hstep
  sessions := h.sessions_step hstep
  sound := (h.sound.mono (by simp)).write (by simp) as
  log := by rw [Ledger.log_write, h.log, hlog]
  held t := by rw [Ledger.held_write, h.held, htasks]
  handled t i hi := (h.handled t i hi).concat (by rw [hev]; exact nofun)
  working t task i ht hi := by
    rw [Ledger.entriesOf_write_of_ne l (by simp)]
    exact h.working_of_ne hstep (htasks ▸ ht) hi
  finished i e hi hfree := by
    rw [Ledger.entriesOf_write_of_ne l (by simp)]
    exact h.finished_of_free hstep hi (fun _ => Event.idle_of_handler hev) hfree
  own a ha := by
    rw [Ledger.entriesOf_write_self, List.mem_append] at ha
    exact ha.elim (h.own a) (hown a)

/-- A stream or a datagram gets a handler. -/
theorem spawn (h : History c es s l) (hstep : Connection.step c s ev = some s') {t : TaskId}
    {task : Task} (ht : s.tasks.lookup t = none) (hev : ev.handler = some t)
    (hlog : s'.log = s.log)
    (htasks : s'.tasks = s.tasks.insert t task)
    (hfor : task.For (es ++ [ev]) s' es.length ev t []) :
    History c (es ++ [ev]) s' (l.issue t es.length) where
  run := h.run_concat hstep
  sessions := h.sessions_step hstep
  sound := by
    rw [List.length_append, List.length_singleton]
    exact h.sound.issue t
  log := by rw [Ledger.log_issue, h.log, hlog]
  held t' := by
    by_cases heq : t' = t
    · subst heq
      rw [Ledger.held_issue_self, htasks, AList.lookup_insert]
      rfl
    · rw [Ledger.held_issue_of_ne l heq, htasks, AList.lookup_insert_ne heq, h.held]
  handled t' i hi := by
    by_cases heq : t' = t
    · subst heq
      rw [Ledger.held_issue_self] at hi
      obtain rfl := Option.some.inj hi
      exact handledBy_last es hev
    · rw [Ledger.held_issue_of_ne l heq] at hi
      refine (h.handled t' i hi).concat fun hown => heq ?_
      rw [hev] at hown
      exact (Option.some.inj hown).symm
  working t' task' i ht' hi := by
    rw [Ledger.entriesOf_issue]
    by_cases heq : t' = t
    · subst heq
      rw [Ledger.held_issue_self] at hi
      obtain rfl := Option.some.inj hi
      rw [htasks, AList.lookup_insert] at ht'
      obtain rfl := Option.some.inj ht'
      rw [h.sound.entries_lt (Nat.le_refl _)]
      exact ⟨ev, by simp, hfor⟩
    · rw [Ledger.held_issue_of_ne l heq] at hi
      rw [htasks, AList.lookup_insert_ne heq] at ht'
      exact h.working_of_ne hstep ht' hi
  finished i e hi hfree := by
    rw [Ledger.entriesOf_issue]
    refine h.finished_of_free hstep hi (fun heq => ?_) fun t' ht' => ?_
    · exact absurd (heq ▸ Ledger.held_issue_self l t es.length) (hfree t)
    · by_cases heq : t' = t
      · have hnone := h.held t'
        rw [heq, ht, ← heq, ht'] at hnone
        cases hnone
      · exact hfree t' ((Ledger.held_issue_of_ne l heq es.length).trans ht')
  own := h.own

section Act

variable {t : TaskId} {task : Task} {i : Nat} {as : List Action}

/-- What a handler writes is for its own request. -/
theorem sound_act (h : History c es s l) (hi : l.held t = some i) :
    (l.write (some i) as).Sound (es ++ [ev]).length := by
  refine (h.sound.mono (by simp)).write (fun j hj => ?_) as
  obtain rfl := Option.some.inj hj
  have hlt := h.sound.held_lt hi
  rw [List.length_append]
  omega

theorem own_act (h : History c es s l) :
    ∀ a ∈ (l.write (some i) as).entriesOf none, a.ofServer := by
  rw [Ledger.entriesOf_write_of_ne l (by simp)]
  exact h.own

/-- The other handlers have nothing to do with it. -/
theorem working_act (h : History c es s l) (hstep : Connection.step c s ev = some s')
    (hi : l.held t = some i) {t' : TaskId} {task' : Task} {i' : Nat} (hne : t' ≠ t)
    (ht' : s.tasks.lookup t' = some task') (hi' : l.held t' = some i') :
    ∃ e, (es ++ [ev])[i']? = some e ∧
      task'.For (es ++ [ev]) s' i' e t' ((l.write (some i) as).entriesOf (some i')) := by
  have hother : some i' ≠ some i := fun heq =>
    hne (h.sound.held_unique (hi'.trans heq) hi)
  rw [Ledger.entriesOf_write_of_ne l hother]
  exact h.working_of_ne hstep ht' hi'

/-- A handler goes on. -/
theorem go (h : History c es s l) (hstep : Connection.step c s ev = some s')
    (hev : ev.handler = none) (ht : s.tasks.lookup t = some task) (hi : l.held t = some i)
    {task' : Task}
    (hlog : s'.log = s.log ++ as) (htasks : s'.tasks = s.tasks.insert t task')
    (hfor : ∀ e acts, task.For es s i e t acts → task'.For (es ++ [ev]) s' i e t (acts ++ as)) :
    History c (es ++ [ev]) s' (l.write (some i) as) where
  run := h.run_concat hstep
  sessions := h.sessions_step hstep
  sound := h.sound_act hi
  log := by rw [Ledger.log_write, h.log, hlog]
  held t' := by
    rw [Ledger.held_write, h.held, htasks]
    by_cases heq : t' = t
    · subst heq
      rw [AList.lookup_insert, ht]
      rfl
    · rw [AList.lookup_insert_ne heq]
  handled t' i' hi' := (h.handled t' i' hi').concat (by rw [hev]; exact nofun)
  working t' task'' i' ht' hi' := by
    rw [Ledger.held_write] at hi'
    by_cases heq : t' = t
    · subst heq
      rw [hi] at hi'
      obtain rfl := Option.some.inj hi'
      rw [htasks, AList.lookup_insert] at ht'
      obtain rfl := Option.some.inj ht'
      obtain ⟨e, he, hold⟩ := h.working t' task i ht hi
      rw [Ledger.entriesOf_write_self]
      exact ⟨e, getElem?_concat he ev, hfor e _ hold⟩
    · rw [htasks, AList.lookup_insert_ne heq] at ht'
      exact h.working_act hstep hi heq ht' hi'
  finished j e hj hfree := by
    have hne : some j ≠ some i := fun heq => hfree t (hi.trans heq.symm)
    rw [Ledger.entriesOf_write_of_ne l hne]
    exact h.finished_of_free hstep hj (fun _ => Event.idle_of_handler hev) hfree
  own := h.own_act

/-- A handler ends. -/
theorem finish (h : History c es s l) (hstep : Connection.step c s ev = some s')
    (hev : ev.handler = none) (ht : s.tasks.lookup t = some task) (hi : l.held t = some i)
    (hlog : s'.log = s.log ++ as) (htasks : s'.tasks = s.tasks.erase t)
    (hfor : ∀ e acts, task.For es s i e t acts →
      Script (es ++ [ev]) s' i e (acts ++ as) ∧ (Kind s ev → Performed e (acts ++ as))) :
    History c (es ++ [ev]) s' ((l.write (some i) as).release t) where
  run := h.run_concat hstep
  sessions := h.sessions_step hstep
  sound := (h.sound_act hi).release t
  log := by rw [Ledger.log_release, Ledger.log_write, h.log, hlog]
  held t' := by
    by_cases heq : t' = t
    · subst heq
      rw [Ledger.held_release_self, htasks, AList.lookup_erase]
      rfl
    · rw [Ledger.held_release_of_ne _ heq, Ledger.held_write, h.held, htasks,
        AList.lookup_erase_ne heq]
  handled t' i' hi' := by
    by_cases heq : t' = t
    · subst heq
      rw [Ledger.held_release_self] at hi'
      cases hi'
    · rw [Ledger.held_release_of_ne _ heq, Ledger.held_write] at hi'
      exact (h.handled t' i' hi').concat (by rw [hev]; exact nofun)
  working t' task'' i' ht' hi' := by
    by_cases heq : t' = t
    · subst heq
      rw [htasks, AList.lookup_erase] at ht'
      cases ht'
    · rw [Ledger.held_release_of_ne _ heq, Ledger.held_write] at hi'
      rw [htasks, AList.lookup_erase_ne heq] at ht'
      exact h.working_act hstep hi heq ht' hi'
  finished j e hj hfree := by
    rw [Ledger.entriesOf_release]
    by_cases heq : j = i
    · subst heq
      obtain ⟨e', he', hold⟩ := h.working t task j ht hi
      rw [getElem?_concat he' ev] at hj
      obtain rfl := Option.some.inj hj
      obtain ⟨hscript, hperformed⟩ := hfor e' _ hold
      rw [Ledger.entriesOf_write_self]
      exact ⟨hscript, fun hev => hperformed (h.kind_of_every hev).2⟩
    · have hne : some j ≠ some i := fun h => heq (Option.some.inj h)
      rw [Ledger.entriesOf_write_of_ne l hne]
      refine h.finished_of_free hstep hj (fun _ => Event.idle_of_handler hev) fun t' ht' => ?_
      by_cases htt : t' = t
      · rw [htt, hi] at ht'
        exact heq (Option.some.inj ht').symm
      · exact hfree t' ((Ledger.held_release_of_ne _ htt).trans ht')
  own := h.own_act

end Act

section Rules

variable {t : TaskId} {task : Task} {as : List Action}

/-- **A handler goes on**, having written for its request. -/
theorem moves (h : History c es s l) (hstep : Connection.step c s ev = some s')
    (hev : ev.handler = none) (ht : s.tasks.lookup t = some task) (task' : Task)
    (hlog : s'.log = s.log ++ as) (htasks : s'.tasks = s.tasks.insert t task')
    (hfor : ∀ i e acts, HandledBy es i t → task.For es s i e t acts →
      task'.For (es ++ [ev]) s' i e t (acts ++ as)) :
    ∃ l', History c (es ++ [ev]) s' l' := by
  obtain ⟨i, hi⟩ := h.exists_held ht
  exact ⟨_, h.go hstep hev ht hi hlog htasks fun e acts => hfor i e acts (h.handled t i hi)⟩

/-- **A handler ends**, having written for its request: what it has done is a script, and
everything that was asked for if nothing got in the way. -/
theorem ends (h : History c es s l) (hstep : Connection.step c s ev = some s')
    (hev : ev.handler = none) (ht : s.tasks.lookup t = some task) (hlog : s'.log = s.log ++ as)
    (htasks : s'.tasks = s.tasks.erase t)
    (hfor : ∀ i e acts, task.For es s i e t acts →
      Script (es ++ [ev]) s' i e (acts ++ as) ∧ (Kind s ev → Performed e (acts ++ as))) :
    ∃ l', History c (es ++ [ev]) s' l' := by
  obtain ⟨i, hi⟩ := h.exists_held ht
  exact ⟨_, h.finish hstep hev ht hi hlog htasks (hfor i)⟩

end Rules

end History

end Ruproxy.Tuic
