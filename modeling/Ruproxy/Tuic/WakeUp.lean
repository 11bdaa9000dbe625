/-
  Tuic/WakeUp.lean --- `Authenticated::set` and `wait`, called from any tasks.

  Here `set` and `wait` stand alone: any number of tasks call them, any number of times,
  and their lines interleave freely.  The lines of `wait` are those of `Gate`.  A `Notified`
  receives every call of `notify_waiters` after its creation: it is ready once there were
  more of them than at that time.  A future of `wait` may be dropped.

  The invariant says what each call in progress has made sure of.  A task parks only while
  the flag is not stored; then no one was notified yet, and every later notification wakes
  it.
-/
import Ruproxy.Tuic.Connection

set_option autoImplicit false

namespace Ruproxy.Tuic.Authenticated

open Ruproxy.Foundation
open Ruproxy.Foundation.Transition

/-- A call in progress, by the next thing it does. -/
inductive Call where
  | wait (g : Gate)
  | setUuid (uuid : Uuid)
  | setFlag
  | setNotify
  deriving DecidableEq

/-- `Authenticated` with the calls in progress. -/
structure State where
  auth : AuthInner
  calls : TaskId → Option Call

/-- What happens next. -/
inductive Event where
  /-- a task calls `wait` -/
  | wait (t : TaskId)
  /-- a task calls `set` -/
  | set (t : TaskId) (uuid : Uuid)
  /-- a call goes on -/
  | advance (t : TaskId)
  /-- a future of `wait` is dropped -/
  | drop (t : TaskId)
  deriving DecidableEq

namespace State

/-- `Authenticated::new`. -/
def new : State := ⟨.new, fun _ => none⟩

/-- A call begins, goes on or returns. -/
def put (s : State) (t : TaskId) (c : Option Call) : State :=
  { s with calls := Function.update s.calls t c }

/-- The next line of a call. -/
def advance (s : State) (t : TaskId) : Call → Option State
  | .wait g =>
      match g.next s.auth with
      | some .pass => some (s.put t none)
      | some (.stay g) => some (s.put t (some (.wait g)))
      | none => none
  | .setUuid uuid => some ({ s with auth := { s.auth with uuid := some uuid } }.put t (some .setFlag))
  | .setFlag =>
      some ({ s with auth := { s.auth with isAuthenticated := true } }.put t (some .setNotify))
  | .setNotify =>
      some ({ s with auth := { s.auth with notified := s.auth.notified + 1 } }.put t none)

/-- One step; `none` where the event cannot happen. -/
def step (s : State) : Event → Option State
  | .wait t => if (s.calls t).isSome then none else some (s.put t (some (.wait .firstCheck)))
  | .set t uuid => if (s.calls t).isSome then none else some (s.put t (some (.setUuid uuid)))
  | .advance t =>
      match s.calls t with
      | some c => s.advance t c
      | none => none
  | .drop t =>
      match s.calls t with
      | some (.wait _) => some (s.put t none)
      | _ => none

/-- A call of `set` has finished: its last line is `notify_waiters`. -/
def SetFinished (s : State) : Prop := 0 < s.auth.notified

instance (s : State) : Decidable s.SetFinished :=
  inferInstanceAs (Decidable (0 < s.auth.notified))

end State

/-! ## The invariant -/

/-- The order of the lines of `set`, as it shows from outside. -/
structure Ordered (a : AuthInner) : Prop where
  flag : 0 < a.notified → a.isAuthenticated = true
  uuid : a.isAuthenticated = true → a.uuid.isSome = true

/-- What a call has made sure of. -/
def Call.Holds (a : AuthInner) : Call → Prop
  | .wait (.secondCheck created) => created ≤ a.notified
  | .wait (.parked created) => created = 0
  | .setFlag => a.uuid.isSome = true
  | .setNotify => a.isAuthenticated = true
  | _ => True

/-- What is set stays set. -/
structure Grows (a b : AuthInner) : Prop where
  uuid : a.uuid.isSome = true → b.uuid.isSome = true
  flag : a.isAuthenticated = true → b.isAuthenticated = true
  notified : a.notified ≤ b.notified

theorem Grows.refl (a : AuthInner) : Grows a a := ⟨id, id, le_refl _⟩

theorem Call.Holds.mono {a b : AuthInner} {c : Call} (h : c.Holds a) (hab : Grows a b) :
    c.Holds b := by
  cases c with
  | wait g =>
    cases g with
    | secondCheck created => exact le_trans h hab.notified
    | _ => exact h
  | setUuid uuid => exact h
  | setFlag => exact hab.uuid h
  | setNotify => exact hab.flag h

/-- Every call in progress holds what it has made sure of. -/
structure Inv (s : State) : Prop where
  ordered : Ordered s.auth
  calls : ∀ t c, s.calls t = some c → c.Holds s.auth

theorem inv_new : Inv .new where
  ordered := ⟨fun h => absurd h (by decide), fun h => absurd h (by decide)⟩
  calls _ _ h := nomatch h

/-- One call goes on; the others still hold what they held. -/
theorem Inv.put {s : State} (h : Inv s) {a : AuthInner} (hgrows : Grows s.auth a)
    (hordered : Ordered a) (t : TaskId) {c : Option Call} (hc : ∀ c' ∈ c, c'.Holds a) :
    Inv ({ s with auth := a }.put t c) where
  ordered := hordered
  calls t' c' h' := by
    simp only [State.put] at h'
    by_cases heq : t' = t
    · subst heq
      rw [Function.update_self] at h'
      exact hc c' h'
    · rw [Function.update_of_ne heq] at h'
      exact (h.calls t' c' h').mono hgrows

/-- What a line of `wait` leaves is what the next one relies on. -/
theorem Gate.holds_next {a : AuthInner} (h : Ordered a) {g g' : Gate}
    (hg : (Call.wait g).Holds a) (hnext : g.next a = some (.stay g')) :
    (Call.wait g').Holds a := by
  cases g with
  | outside | firstCheck =>
    simp only [Gate.next, Option.some.injEq] at hnext
    split at hnext
    · cases hnext
    · cases hnext
      trivial
  | create =>
    cases hnext
    exact le_refl _
  | secondCheck created =>
    simp only [Gate.next, Option.some.injEq] at hnext
    split at hnext
    · cases hnext
    · rename_i hflag
      cases hnext
      -- the flag is not stored yet, so no one was notified when the future was made
      have hzero : ¬ 0 < a.notified := fun hpos => hflag (h.flag hpos)
      have hle : created ≤ a.notified := hg
      show created = 0
      omega
  | parked created =>
    simp only [Gate.next] at hnext
    split at hnext
    · cases hnext
    · cases hnext

/-- A line of `wait` that returns has found the flag, or a notification behind it. -/
theorem Gate.authenticated_of_pass {a : AuthInner} (h : Ordered a) {g : Gate}
    (hnext : g.next a = some .pass) : a.isAuthenticated = true := by
  cases g with
  | outside | firstCheck | secondCheck =>
    simp only [Gate.next, Option.some.injEq] at hnext
    split at hnext
    · assumption
    · cases hnext
  | create => cases hnext
  | parked created =>
    simp only [Gate.next] at hnext
    split at hnext
    · rename_i hlt
      exact h.flag (Nat.zero_lt_of_lt hlt)
    · cases hnext

/-- **One step** of any call keeps the invariant. -/
theorem step_inv {s s' : State} {e : Event} (h : Inv s) (_ : True) (hstep : s.step e = some s') :
    Inv s' := by
  have hkeep : ∀ (t : TaskId) {c : Option Call}, (∀ c' ∈ c, c'.Holds s.auth) → Inv (s.put t c) :=
    fun t _ hc => h.put (.refl _) h.ordered t hc
  cases e with
  | wait t | set t uuid =>
    simp only [State.step] at hstep
    split at hstep
    · cases hstep
    · obtain rfl := Option.some.inj hstep
      exact hkeep t fun c' hc' => Option.some.inj hc' ▸ trivial
  | drop t =>
    simp only [State.step] at hstep
    split at hstep
    · obtain rfl := Option.some.inj hstep
      exact hkeep t fun c' hc' => nomatch hc'
    · cases hstep
  | advance t =>
    simp only [State.step] at hstep
    split at hstep
    case h_2 => cases hstep
    rename_i c hcall
    have hholds := h.calls t c hcall
    cases c with
    | wait g =>
      simp only [State.advance] at hstep
      split at hstep
      · obtain rfl := Option.some.inj hstep
        exact hkeep t fun c' hc' => nomatch hc'
      · rename_i g' hnext
        obtain rfl := Option.some.inj hstep
        exact hkeep t fun c' hc' =>
          Option.some.inj hc' ▸ Gate.holds_next h.ordered hholds hnext
      · cases hstep
    | setUuid uuid =>
      obtain rfl := Option.some.inj hstep
      exact h.put (a := { s.auth with uuid := some uuid })
        ⟨fun _ => rfl, id, le_refl _⟩ ⟨h.ordered.flag, fun _ => rfl⟩ t
        fun c' hc' => Option.some.inj hc' ▸ rfl
    | setFlag =>
      obtain rfl := Option.some.inj hstep
      exact h.put (a := { s.auth with isAuthenticated := true })
        ⟨id, fun _ => rfl, le_refl _⟩ ⟨fun _ => rfl, fun _ => hholds⟩ t
        fun c' hc' => Option.some.inj hc' ▸ rfl
    | setNotify =>
      obtain rfl := Option.some.inj hstep
      exact h.put (a := { s.auth with notified := s.auth.notified + 1 })
        ⟨id, id, Nat.le_succ _⟩ ⟨fun _ => hholds, h.ordered.uuid⟩ t
        fun c' hc' => nomatch hc'

theorem inv_of_run {es : List Event} {s : State} (h : run State.step .new es = some s) : Inv s :=
  Reachable.invariant step_inv inv_new ⟨es, h⟩

/-! ## No wake-up is lost -/

/-- **The wake-up is not lost.**  In every state of every run, once a `set` has finished
each parked task has a notification behind it; and a line of `wait` that returns does so
with the flag stored and the uuid written. -/
theorem wake_up_not_lost {es : List Event} {s : State}
    (h : run State.step .new es = some s) :
    (s.SetFinished → ∀ t created, s.calls t = some (.wait (.parked created)) →
      created < s.auth.notified) ∧
    (∀ t g, s.calls t = some (.wait g) → g.next s.auth = some .pass →
      s.auth.isAuthenticated = true ∧ s.auth.uuid.isSome = true) := by
  have hinv := inv_of_run h
  constructor
  · intro hfinished t created hcall
    have hzero : created = 0 := hinv.calls t _ hcall
    rw [hzero]
    exact hfinished
  · intro t g _ hpass
    have hflag := Gate.authenticated_of_pass hinv.ordered hpass
    exact ⟨hflag, hinv.ordered.uuid hflag⟩

/-- A task parks, and another one runs `set`. -/
def parkedRun : List Event :=
  [.wait 0, .advance 0, .advance 0, .advance 0, .set 1 [], .advance 1, .advance 1, .advance 1]

/-- The task has a notification behind it. -/
theorem wake_up_not_lost_parkedRun : ∃ s, run State.step .new parkedRun = some s ∧
    s.SetFinished ∧ s.calls 0 = some (.wait (.parked 0)) ∧ 0 < s.auth.notified := by
  have hend : ((run State.step .new parkedRun).map fun s =>
      decide (s.SetFinished ∧ s.calls 0 = some (.wait (.parked 0)))) = some true := by
    decide
  obtain ⟨s, hrun, hs⟩ := Option.map_eq_some_iff.mp hend
  obtain ⟨hfinished, hcall⟩ := of_decide_eq_true hs
  exact ⟨s, hrun, hfinished, hcall, (wake_up_not_lost hrun).1 hfinished 0 0 hcall⟩

/-- With the flag stored, a line of `wait` returns or makes the future for one that does. -/
theorem Gate.next_of_flag {a : AuthInner} (hflag : a.isAuthenticated = true) {g : Gate}
    (hparked : ∀ created, g = .parked created → created < a.notified) :
    g.next a = some .pass ∨ g = .create := by
  cases g with
  | outside | firstCheck | secondCheck => exact .inl (by simp [Gate.next, hflag])
  | create => exact .inr rfl
  | parked created => exact .inl (by simp [Gate.next, hparked created rfl])

theorem State.step_pass {s : State} {t : TaskId} {g : Gate} (hcall : s.calls t = some (.wait g))
    (hpass : g.next s.auth = some .pass) : s.step (.advance t) = some (s.put t none) := by
  simp only [State.step, hcall, State.advance, hpass]

/-- Once a `set` has finished, a task that waits returns after at most two more lines. -/
theorem returns_of_finished {s : State} (h : Inv s) (hfinished : s.SetFinished) {t : TaskId}
    {g : Gate} (hcall : s.calls t = some (.wait g)) :
    ∃ n ≤ 2, ∃ s', run State.step s (List.replicate n (.advance t)) = some s' ∧
      s'.calls t = none := by
  have hflag := h.ordered.flag hfinished
  have hparked : ∀ created, g = .parked created → created < s.auth.notified := by
    rintro created rfl
    have hzero : created = 0 := h.calls t _ hcall
    rw [hzero]
    exact hfinished
  rcases Gate.next_of_flag hflag hparked with hpass | rfl
  · refine ⟨1, by decide, s.put t none, ?_, Function.update_self _ _ _⟩
    simp [run_cons, State.step_pass hcall hpass]
  · -- the future is made, and the second check finds the flag
    have hcreate : s.step (.advance t) =
        some (s.put t (some (.wait (.secondCheck s.auth.notified)))) := by
      simp only [State.step, hcall, State.advance, Gate.next]
    have hpass := State.step_pass
      (s := s.put t (some (.wait (.secondCheck s.auth.notified)))) (Function.update_self t _ _)
      (by simp [Gate.next, State.put, hflag])
    refine ⟨2, le_refl _, (s.put t (some (.wait (.secondCheck s.auth.notified)))).put t none, ?_,
      Function.update_self _ _ _⟩
    simp [List.replicate, run_cons, hcreate, hpass]

end Ruproxy.Tuic.Authenticated
