/-
  Hysteria2/Cleanup.lean --- whose entry a session removes.

  A session that has returned removes its id some time later.  As long as no new session
  is inserted for the id in between, the entry it removes is its own; an entry of a new
  session would be removed all the same, since the removal goes by id.

  The invariant is that a session that accepts frames has its entry, and that no finished
  session has the id of another one's entry.
-/
import Ruproxy.Hysteria2.SessionTable

set_option autoImplicit false

namespace Ruproxy.Hysteria2

open Ruproxy.Foundation Ruproxy.Foundation.Transition

/-! ## The property -/

/-- No cleanup removed the entry of another session, and sessions that accept frames are
those that their ids map to. -/
structure Undisturbed (s : Sessions) : Prop where
  removals : ∀ r ∈ s.removals, r.2 = r.1
  mapped : ∀ {task t}, s.tasks[task]? = some t → t.Accepting →
    s.sessionMap.lookup t.session.sessionId = some task

/-- The id that the loop is about to insert a session for. -/
def DatagramLoop.insertingId : DatagramLoop → Option UInt32
  | .inserting frame => some frame.sessionId
  | _ => none

/-- A new session is inserted only when no finished session of the id still has its
removal ahead. -/
def InsertsAlone (s : Sessions) : ConnectionEvent → Prop
  | .insert => ∀ t ∈ s.tasks, s.loop.insertingId = some t.session.sessionId → ¬ t.Finished
  | _ => True

instance (s : Sessions) : (e : ConnectionEvent) → Decidable (InsertsAlone s e)
  | .insert => inferInstanceAs (Decidable (∀ t ∈ s.tasks, _))
  | .datagram _ | .disconnect | .send | .remove | .session .. | .cleanup _ | .elapse _ =>
      .isTrue trivial

/-! ## The invariant -/

/-- The session map, the tasks and the loop agree. -/
structure TableInv (s : Sessions) : Prop where
  mapped : ∀ {id task}, s.sessionMap.lookup id = some task →
    ∃ t, s.tasks[task]? = some t ∧ t.session.sessionId = id
  accepting : ∀ {task t}, s.tasks[task]? = some t → t.Accepting →
    s.sessionMap.lookup t.session.sessionId = some task
  finished : ∀ {task t v}, s.tasks[task]? = some t → t.Finished →
    s.sessionMap.lookup t.session.sessionId = some v → v = task
  sending : ∀ {task frame}, s.loop = .sending task frame →
    ∀ {u : Nat} {t : SessionTask}, s.tasks[u]? = some t → t.Accepting →
      t.session.sessionId = frame.sessionId → u = task
  removing : ∀ {id}, s.loop = .removing id →
    ∀ {u : Nat} {t : SessionTask}, s.tasks[u]? = some t → t.Accepting → t.session.sessionId ≠ id
  inserting : ∀ {frame}, s.loop = .inserting frame →
    s.sessionMap.lookup frame.sessionId = none
  removals : ∀ r ∈ s.removals, r.2 = r.1

theorem TableInv.undisturbed {s : Sessions} (h : TableInv s) : Undisturbed s :=
  ⟨h.removals, h.accepting⟩

theorem tableInv_init : TableInv .init where
  mapped h := by cases h
  accepting h := by cases h
  finished h := by cases h
  sending h := by cases h
  removing h := by cases h
  inserting h := by cases h
  removals r hr := by cases hr

/-- What a session may become: it keeps its id and does not accept frames again. -/
structure Becomes (t t' : SessionTask) : Prop where
  sessionId_eq : t'.session.sessionId = t.session.sessionId
  accepting : t'.Accepting → t.Accepting
  finished : t'.Finished → t.Accepting ∨ t.Finished

theorem Becomes.refl (t : SessionTask) : Becomes t t := ⟨rfl, id, .inr⟩

theorem becomes_of_step {t : SessionTask} {e : SessionEvent} {session : UdpSession}
    (h : t.session.step e = some session) : Becomes t { t with session := session } := by
  obtain ⟨heffect, hid, -⟩ := UdpSession.effect_of_step h
  -- a session that has returned stays so
  have hreturned : t.session.main = .returned → session.main = .returned := by
    intro hmain
    generalize session.main = main at heffect
    generalize session.receive = receive at heffect
    cases heffect with
    | elapses | delivers | relays | ends => exact hmain
    | returns => rfl
    | binds h' | spawns h' | turns h' | takes h' =>
      rw [hmain] at h'
      cases h'
  refine ⟨hid, fun hacc hmain => hacc (hreturned hmain), fun hfin => ?_⟩
  by_cases hmain : t.session.main = .returned
  · exact .inr ⟨hmain, hfin.2⟩
  · exact .inl hmain

theorem becomes_elapse (t : SessionTask) (ms : Nat) :
    Becomes t { t with session := { t.session with now := t.session.now + ms } } :=
  ⟨rfl, id, .inr⟩

theorem becomes_cleaned (t : SessionTask) (h : ¬ t.Accepting) :
    Becomes t { t with cleaned := true } :=
  ⟨rfl, fun hacc => absurd hacc h, fun hfin => by cases hfin.2⟩

/-! ## The steps -/

namespace TableInv

variable {s : Sessions}

/-- The sessions move on. -/
theorem become (h : TableInv s) {tasks : List SessionTask}
    (hlen : tasks.length = s.tasks.length)
    (hbecomes : ∀ {task : Nat} {t' : SessionTask}, tasks[task]? = some t' →
      ∃ t, s.tasks[task]? = some t ∧ Becomes t t') :
    TableInv { s with tasks := tasks } where
  mapped := by
    intro id task hlookup
    obtain ⟨t, ht, rfl⟩ := h.mapped hlookup
    have hlt : task < tasks.length := hlen ▸ (List.getElem?_eq_some_iff.mp ht).1
    obtain ⟨u, hu, hb⟩ := hbecomes (List.getElem?_eq_getElem hlt)
    rw [ht] at hu
    cases hu
    exact ⟨_, List.getElem?_eq_getElem hlt, hb.sessionId_eq⟩
  accepting := by
    intro task t' ht' hacc
    obtain ⟨t, ht, hb⟩ := hbecomes ht'
    rw [hb.sessionId_eq]
    exact h.accepting ht (hb.accepting hacc)
  finished := by
    intro task t' v ht' hfin hlookup
    obtain ⟨t, ht, hb⟩ := hbecomes ht'
    rw [hb.sessionId_eq] at hlookup
    rcases hb.finished hfin with hacc | hfin'
    · rw [h.accepting ht hacc] at hlookup
      cases hlookup
      rfl
    · exact h.finished ht hfin' hlookup
  sending := by
    intro task frame hloop u t' ht' hacc hid
    obtain ⟨t, ht, hb⟩ := hbecomes ht'
    exact h.sending hloop ht (hb.accepting hacc) (hb.sessionId_eq ▸ hid)
  removing := by
    intro id hloop u t' ht' hacc
    obtain ⟨t, ht, hb⟩ := hbecomes ht'
    rw [hb.sessionId_eq]
    exact h.removing hloop ht (hb.accepting hacc)
  inserting := h.inserting
  removals := h.removals

/-- One session moves on. -/
theorem set (h : TableInv s) {task : Nat} {t t' : SessionTask} (ht : s.tasks[task]? = some t)
    (hb : Becomes t t') : TableInv { s with tasks := s.tasks.set task t' } := by
  apply h.become (List.length_set ..)
  intro u t'' hu
  rcases eq_or_ne task u with rfl | hne
  · rw [List.getElem?_set_self (List.getElem?_eq_some_iff.mp ht).1] at hu
    cases hu
    exact ⟨t, ht, hb⟩
  · rw [List.getElem?_set_ne hne] at hu
    exact ⟨t'', hu, .refl t''⟩

/-- The loop goes somewhere else. -/
theorem withLoop (h : TableInv s) {loop : DatagramLoop}
    (hsending : ∀ {task frame}, loop = .sending task frame →
      ∀ {u : Nat} {t : SessionTask}, s.tasks[u]? = some t → t.Accepting →
        t.session.sessionId = frame.sessionId → u = task)
    (hremoving : ∀ {id}, loop = .removing id →
      ∀ {u : Nat} {t : SessionTask}, s.tasks[u]? = some t → t.Accepting →
        t.session.sessionId ≠ id)
    (hinserting : ∀ {frame}, loop = .inserting frame →
      s.sessionMap.lookup frame.sessionId = none) : TableInv { s with loop := loop } :=
  ⟨h.mapped, h.accepting, h.finished, hsending, hremoving, hinserting, h.removals⟩

/-- The loop reads the next datagram. -/
theorem reading (h : TableInv s) : TableInv { s with loop := .reading } := by
  apply h.withLoop <;> intros <;> contradiction

theorem disconnect (h : TableInv s) : TableInv { s with loop := .ended } := by
  apply h.withLoop <;> intros <;> contradiction

/-- A frame whose session is looked up. -/
theorem lookup (h : TableInv s) {frame : UdpFrame} {task : Nat}
    (hlookup : s.sessionMap.lookup frame.sessionId = some task) :
    TableInv { s with loop := .sending task frame } := by
  apply h.withLoop
  · intro task' frame' hloop u t ht hacc hid
    cases hloop
    have hown := h.accepting ht hacc
    rw [hid, hlookup] at hown
    cases hown
    rfl
  · intro id hloop
    cases hloop
  · intro frame' hloop
    cases hloop

/-- A frame without a session. -/
theorem lookupNone (h : TableInv s) {frame : UdpFrame}
    (hlookup : s.sessionMap.lookup frame.sessionId = none) :
    TableInv { s with loop := .inserting frame } := by
  apply h.withLoop
  · intro task frame' hloop
    cases hloop
  · intro id hloop
    cases hloop
  · intro frame' hloop
    cases hloop
    exact hlookup

/-- A frame for a session that has returned. -/
theorem sendError (h : TableInv s) {task : Nat} {frame : UdpFrame} {t : SessionTask}
    (hloop : s.loop = .sending task frame) (ht : s.tasks[task]? = some t)
    (hmain : t.session.main = .returned) :
    TableInv { s with loop := .removing frame.sessionId } := by
  apply h.withLoop
  · intro task' frame' hl
    cases hl
  · intro id hl u t' ht' hacc hid
    cases hl
    obtain rfl := h.sending hloop ht' hacc hid
    rw [ht] at ht'
    cases ht'
    exact hacc hmain
  · intro frame' hl
    cases hl

/-- An id is removed that no session accepts frames for. -/
theorem erase (h : TableInv s) {id : UInt32}
    (hno : ∀ {task : Nat} {t : SessionTask}, s.tasks[task]? = some t → t.Accepting →
      t.session.sessionId ≠ id) :
    TableInv { s with sessionMap := s.sessionMap.erase id } where
  mapped := by
    intro id' task hlookup
    rcases eq_or_ne id' id with rfl | hne
    · simp at hlookup
    · exact h.mapped (by simpa [AList.lookup_erase_ne hne] using hlookup)
  accepting := by
    intro task t ht hacc
    rw [AList.lookup_erase_ne (hno ht hacc)]
    exact h.accepting ht hacc
  finished := by
    intro task t v ht hfin hlookup
    rcases eq_or_ne id t.session.sessionId with rfl | hne
    · simp at hlookup
    · exact h.finished ht hfin (by simpa [AList.lookup_erase_ne hne.symm] using hlookup)
  sending := h.sending
  removing := h.removing
  inserting := by
    intro frame hloop
    rcases eq_or_ne id frame.sessionId with rfl | hne
    · simp
    · rw [AList.lookup_erase_ne hne.symm]
      exact h.inserting hloop
  removals := h.removals

/-- A new session, for an id with none that accepts frames or has its removal ahead. -/
theorem insert (h : TableInv s) {frame : UdpFrame}
    (hno : ∀ {task : Nat} {t : SessionTask}, s.tasks[task]? = some t →
      t.session.sessionId = frame.sessionId → ¬ t.Accepting ∧ ¬ t.Finished) :
    TableInv { s with
      sessionMap := s.sessionMap.insert frame.sessionId s.tasks.length
      tasks := s.tasks ++ [⟨.init frame.sessionId frame, false⟩]
      loop := .reading } where
  mapped := by
    intro id task hlookup
    rcases eq_or_ne id frame.sessionId with rfl | hne
    · obtain rfl : s.tasks.length = task := by simpa using hlookup
      exact ⟨_, List.getElem?_concat_length, rfl⟩
    · obtain ⟨t, ht, hid⟩ := h.mapped (by simpa [AList.lookup_insert_ne hne] using hlookup)
      exact ⟨t, getElem?_snoc_eq_some_iff.mpr (.inl ht), hid⟩
  accepting := by
    intro task t ht hacc
    rcases getElem?_snoc_eq_some_iff.mp ht with ht | ⟨rfl, rfl⟩
    · have hne : t.session.sessionId ≠ frame.sessionId := fun hid => (hno ht hid).1 hacc
      rw [AList.lookup_insert_ne hne]
      exact h.accepting ht hacc
    · exact AList.lookup_insert _
  finished := by
    intro task t v ht hfin hlookup
    rcases getElem?_snoc_eq_some_iff.mp ht with ht | ⟨rfl, rfl⟩
    · have hne : t.session.sessionId ≠ frame.sessionId := fun hid => (hno ht hid).2 hfin
      exact h.finished ht hfin (by simpa [AList.lookup_insert_ne hne] using hlookup)
    · cases hfin.1
  sending hloop := by cases hloop
  removing hloop := by cases hloop
  inserting hloop := by cases hloop
  removals := h.removals

/-- A session takes a step, of its own or given one by the loop. -/
theorem stepSession (h : TableInv s) {task : Nat} {e : SessionEvent} {s' : Sessions}
    (hs : s.stepSession task e = some s') : TableInv s' := by
  obtain ⟨t, ht, hstep⟩ := Option.bind_eq_some_iff.mp hs
  obtain ⟨session, hsession, rfl⟩ := Option.map_eq_some_iff.mp hstep
  exact h.set ht (becomes_of_step hsession)

/-- A finished session removes its own entry, or none. -/
theorem cleanup (h : TableInv s) {task : Nat} {t : SessionTask} (ht : s.tasks[task]? = some t)
    (hfin : t.Finished) : TableInv { s with
      sessionMap := s.sessionMap.erase t.session.sessionId
      tasks := s.tasks.set task { t with cleaned := true }
      removals := s.removals ++
        (s.sessionMap.lookup t.session.sessionId).toList.map fun v => (task, v) } := by
  have hno : ∀ {u : Nat} {t' : SessionTask}, s.tasks[u]? = some t' → t'.Accepting →
      t'.session.sessionId ≠ t.session.sessionId := by
    intro u t' ht' hacc hid
    obtain rfl : u = task := by
      have := h.accepting ht' hacc
      rw [hid] at this
      exact h.finished ht hfin this
    rw [ht] at ht'
    cases ht'
    exact hacc hfin.1
  have hinv := (h.erase hno).set ht (becomes_cleaned t fun hacc => hacc hfin.1)
  refine ⟨hinv.mapped, hinv.accepting, hinv.finished, hinv.sending, hinv.removing,
    hinv.inserting, ?_⟩
  intro r hr
  rcases List.mem_append.mp hr with hr | hr
  · exact h.removals r hr
  · obtain ⟨v, hv, rfl⟩ := List.mem_map.mp hr
    exact h.finished ht hfin (Option.mem_toList.mp hv)

end TableInv

/-- A step that the condition admits keeps the invariant. -/
theorem tableInv_step : Preserves Sessions.step InsertsAlone TableInv := by
  intro s e s' h hok hs
  cases e with
  | datagram data =>
    simp only [Sessions.step] at hs
    split at hs
    · split at hs
      · cases hs
        exact h
      · split at hs
        · rename_i hlookup
          cases hs
          exact h.lookup hlookup
        · rename_i hlookup
          cases hs
          exact h.lookupNone hlookup
    · cases hs
  | disconnect =>
    simp only [Sessions.step] at hs
    split at hs
    · cases hs
      exact h.disconnect
    · cases hs
  | send =>
    simp only [Sessions.step] at hs
    split at hs
    · rename_i task frame hloop
      split at hs
      · rename_i t ht
        split at hs
        · rename_i hmain
          cases hs
          exact h.sendError hloop ht hmain
        · obtain ⟨u, hu, rfl⟩ := Option.map_eq_some_iff.mp hs
          exact (h.stepSession hu).reading
      · cases hs
    · cases hs
  | remove =>
    simp only [Sessions.step] at hs
    split at hs
    · rename_i id hloop
      cases hs
      exact (h.erase (h.removing hloop)).reading
    · cases hs
  | insert =>
    simp only [Sessions.step] at hs
    split at hs
    · rename_i frame hloop
      cases hs
      apply h.insert
      intro task t ht hid
      refine ⟨fun hacc => ?_, hok t (List.mem_of_getElem? ht) ?_⟩
      · have := h.accepting ht hacc
        rw [hid, h.inserting hloop] at this
        cases this
      · rw [hloop, hid, DatagramLoop.insertingId]
    · cases hs
  | session task e =>
    simp only [Sessions.step] at hs
    split at hs
    · exact h.stepSession hs
    · cases hs
  | cleanup task =>
    simp only [Sessions.step] at hs
    split at hs
    · rename_i t ht
      split at hs
      · rename_i hfin
        cases hs
        exact h.cleanup ht hfin
      · cases hs
    · cases hs
  | elapse ms =>
    cases hs
    apply h.become (List.length_map ..)
    intro task t' ht'
    rw [List.getElem?_map] at ht'
    obtain ⟨t, ht, rfl⟩ := Option.map_eq_some_iff.mp ht'
    exact ⟨t, ht, becomes_elapse t ms⟩

/-- The condition is needed: after an insertion against it a cleanup can disturb the table. -/
theorem exists_disturbed {s s' : Sessions} (hs : s.step .insert = some s')
    (hoverlap : ¬ InsertsAlone s .insert) :
    ∃ task s'', s'.step (.cleanup task) = some s'' ∧ ¬ Undisturbed s'' := by
  simp only [InsertsAlone, not_forall, not_not] at hoverlap
  obtain ⟨t, hmem, hid, hfin⟩ := hoverlap
  obtain ⟨task, hlt, ht⟩ := List.getElem_of_mem hmem
  simp only [Sessions.step] at hs
  split at hs
  · rename_i frame hloop
    cases hs
    rw [hloop, DatagramLoop.insertingId, Option.some_inj] at hid
    have htask : (s.tasks ++ [⟨.init frame.sessionId frame, false⟩])[task]? = some t :=
      getElem?_snoc_eq_some_iff.mpr (.inl (List.getElem?_eq_some_iff.mpr ⟨hlt, ht⟩))
    refine ⟨task, _, by rw [Sessions.step, htask]; exact if_pos hfin, fun h => ?_⟩
    have hown := h.removals (task, s.tasks.length) (by simp [hid])
    exact absurd hown (Nat.ne_of_gt hlt)
  · cases hs

/-! ## Every run -/

/-- **The session table.**  In every run in which sessions are inserted only for ids without
a removal ahead, no cleanup removes the entry of another session, and each session that
accepts frames is the one its id maps to. -/
theorem undisturbed_of_every {es : List ConnectionEvent} {s : Sessions}
    (hrun : run Sessions.step .init es = some s)
    (halone : Every Sessions.step InsertsAlone .init es) : Undisturbed s :=
  (ReachableBy.invariant tableInv_step tableInv_init ⟨es, halone, hrun⟩).undisturbed

/-- A frame of session 1 for `a:53`. -/
def sessionFrame : Bytes := [0, 0, 0, 1, 0, 0, 0, 1, 4, 97, 58, 53, 51, 7]

/-- A session that ends after 60 s without a frame. -/
def idleSession : List ConnectionEvent :=
  [.datagram sessionFrame, .insert, .session 0 .bound, .session 0 .forwarded, .elapse 60000,
    .session 0 .idle]

/-- It removes its id, and the next frame makes a new session. -/
theorem undisturbed_of_every_idleSession : ∃ s,
    run Sessions.step .init (idleSession ++ [.cleanup 0, .datagram sessionFrame, .insert]) =
      some s ∧ Undisturbed s := by
  obtain ⟨s, hs⟩ : ∃ s, run Sessions.step .init
      (idleSession ++ [.cleanup 0, .datagram sessionFrame, .insert]) = some s :=
    Option.isSome_iff_exists.mp (by decide +kernel)
  exact ⟨s, hs, undisturbed_of_every hs (by decide +kernel)⟩

/-- Two frames overtake its removal: the first finds the channel closed, the second makes
a new session, and its entry is then removed. -/
theorem not_undisturbed_overtaken : ∃ s,
    run Sessions.step .init (idleSession ++ [.datagram sessionFrame, .send, .remove,
      .datagram sessionFrame, .insert, .cleanup 0]) = some s ∧ ¬ Undisturbed s := by
  have hrun : (run Sessions.step .init (idleSession ++ [.datagram sessionFrame, .send, .remove,
      .datagram sessionFrame, .insert, .cleanup 0])).map Sessions.removals = some [(0, 1)] := by
    decide +kernel
  obtain ⟨s, hs, hremovals⟩ := Option.map_eq_some_iff.mp hrun
  refine ⟨s, hs, fun h => ?_⟩
  have hown := h.removals (0, 1) (by rw [hremovals]; exact List.mem_singleton_self _)
  cases hown

end Ruproxy.Hysteria2
