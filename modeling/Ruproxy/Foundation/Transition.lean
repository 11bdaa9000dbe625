/-
  Foundation/Transition.lean --- finite runs of executable step functions.

  A concurrent component is given as a partial step function
  `step : σ → ε → Option σ`.  The event `ε` names the task that moves and
  everything the environment chose for it (a datagram, a timer, a free slot);
  `none` means that the event is not enabled in the state.  A run is a list of
  events, so a schedule is data and can be evaluated.

  Three kinds of facts are proved once here.  `ReachableBy.invariant` is the
  induction over runs: a property of the start that every admitted step keeps
  holds in every state an admitted run reaches, and `history_of_run` is the same
  for a property of the state and the events so far.  Its progress counterparts are
  `exists_run_growing`, where admitted steps are never stuck and make the state
  grow, and `exists_reachableBy_of_rank`: when some admitted step lowers a rank as long as
  the goal is not met, the goal is met at the end of some admitted run.
  `Reachable.simulates` takes runs to the system that a view of the states shows.
-/
import Mathlib.Algebra.Ring.Nat
import Mathlib.Data.List.Basic

set_option autoImplicit false

namespace Ruproxy.Foundation.Transition

variable {σ ε : Type}

/-! ## Runs -/

/-- The state after a list of events, `none` as soon as one is not enabled. -/
def run (step : σ → ε → Option σ) : σ → List ε → Option σ
  | s, [] => some s
  | s, e :: es => (step s e).bind fun s' => run step s' es

variable {step : σ → ε → Option σ}

@[simp] theorem run_nil (s : σ) : run step s [] = some s := rfl

theorem run_cons (s : σ) (e : ε) (es : List ε) :
    run step s (e :: es) = (step s e).bind fun s' => run step s' es := rfl

theorem run_cons_eq_some {s t : σ} {e : ε} {es : List ε} :
    run step s (e :: es) = some t ↔
      ∃ s', step s e = some s' ∧ run step s' es = some t := by
  simp [run_cons, Option.bind_eq_some_iff]

/-- A run splits at every cut point of its event list. -/
theorem run_append (s : σ) (es fs : List ε) :
    run step s (es ++ fs) = (run step s es).bind fun s' => run step s' fs := by
  induction es generalizing s with
  | nil => simp
  | cons e es ih =>
    simp only [List.cons_append, run_cons]
    cases step s e with
    | none => rfl
    | some s' => simpa using ih s'

/-! ## Runs whose steps are all admitted -/

/-- Every step of the run is taken in a state and with an event that `ok`
admits. -/
def Every (step : σ → ε → Option σ) (ok : σ → ε → Prop) : σ → List ε → Prop
  | _, [] => True
  | s, e :: es => ok s e ∧ ∀ s', step s e = some s' → Every step ok s' es

/-- Whether all steps are admitted can be computed along the run. -/
instance Every.decidable (step : σ → ε → Option σ) (ok : σ → ε → Prop)
    [∀ s e, Decidable (ok s e)] : ∀ s es, Decidable (Every step ok s es)
  | _, [] => .isTrue trivial
  | s, e :: es =>
      have : Decidable (∀ s', step s e = some s' → Every step ok s' es) :=
        match _h : step s e with
        | none => .isTrue fun _ h' => nomatch h'
        | some s' =>
            @decidable_of_iff _ (Every step ok s' es)
              ⟨fun hev _ h' => Option.some.inj h' ▸ hev, fun hall => hall s' rfl⟩
              (Every.decidable step ok s' es)
      inferInstanceAs (Decidable (ok s e ∧ ∀ s', step s e = some s' → Every step ok s' es))

/-- `t` is the last state of a run from `s` whose steps are all admitted. -/
def ReachableBy (step : σ → ε → Option σ) (ok : σ → ε → Prop) (s t : σ) : Prop :=
  ∃ es, Every step ok s es ∧ run step s es = some t

/-- `t` is the last state of some run from `s`. -/
def Reachable (step : σ → ε → Option σ) (s t : σ) : Prop :=
  ∃ es, run step s es = some t

variable {ok : σ → ε → Prop}

theorem every_append {s : σ} {es fs : List ε} :
    Every step ok s (es ++ fs) ↔
      Every step ok s es ∧ ∀ s', run step s es = some s' → Every step ok s' fs := by
  induction es generalizing s with
  | nil => simp [Every]
  | cons e es ih =>
    simp only [List.cons_append, Every, run_cons_eq_some, ih]
    constructor
    · rintro ⟨hok, hrest⟩
      exact ⟨⟨hok, fun s' h => (hrest s' h).1⟩,
        fun t ⟨s', h, ht⟩ => (hrest s' h).2 t ht⟩
    · rintro ⟨⟨hok, hes⟩, hfs⟩
      exact ⟨hok, fun s' h => ⟨hes s' h, fun t ht => hfs t ⟨s', h, ht⟩⟩⟩

/-- Events that are always admitted. -/
theorem every_of_forall {es : List ε} (h : ∀ s, ∀ e ∈ es, ok s e) (s : σ) :
    Every step ok s es := by
  induction es generalizing s with
  | nil => trivial
  | cons e es ih =>
    exact ⟨h s e List.mem_cons_self, fun s' _ =>
      ih (fun s e he => h s e (List.mem_cons_of_mem _ he)) s'⟩

/-- Two ways to admit the events that occur. -/
theorem every_congr {ok' : σ → ε → Prop} {es : List ε} (h : ∀ s, ∀ e ∈ es, (ok s e ↔ ok' s e))
    (s : σ) : Every step ok s es ↔ Every step ok' s es := by
  induction es generalizing s with
  | nil => exact Iff.rfl
  | cons e es ih =>
    have htail : ∀ s, ∀ e ∈ es, (ok s e ↔ ok' s e) := fun s e he =>
      h s e (List.mem_cons_of_mem _ he)
    exact and_congr (h s e List.mem_cons_self) (forall₂_congr fun s' _ => ih htail s')

/-- What the steps of a run are admitted for is a matter of its events, where those that are
good keep the states in which the two say the same. -/
theorem every_iff_forall (inv : σ → Prop) {p : ε → Prop}
    (hpres : ∀ {s e s'}, inv s → p e → step s e = some s' → inv s')
    (hok : ∀ {s e s'}, inv s → step s e = some s' → (ok s e ↔ p e))
    {s t : σ} {es : List ε} (hs : inv s) (hrun : run step s es = some t) :
    Every step ok s es ↔ ∀ e ∈ es, p e := by
  induction es generalizing s with
  | nil => simp [Every]
  | cons e es ih =>
    obtain ⟨s', hs', hrest⟩ := run_cons_eq_some.mp hrun
    rw [List.forall_mem_cons, Every, hok hs hs']
    refine and_congr_right fun hp => ?_
    have hinv' := hpres hs hp hs'
    constructor
    · intro hev
      exact (ih hinv' hrest).mp (hev s' hs')
    · intro hall s'' hs''
      rw [hs'] at hs''
      obtain rfl := Option.some.inj hs''
      exact (ih hinv' hrest).mpr hall

theorem ReachableBy.refl (s : σ) : ReachableBy step ok s s := ⟨[], trivial, rfl⟩

theorem ReachableBy.head {s s' t : σ} {e : ε} (hok : ok s e)
    (hstep : step s e = some s') (h : ReachableBy step ok s' t) :
    ReachableBy step ok s t := by
  obtain ⟨es, hev, hrun⟩ := h
  refine ⟨e :: es, ⟨hok, ?_⟩, run_cons_eq_some.mpr ⟨s', hstep, hrun⟩⟩
  intro s'' h''
  rw [hstep] at h''
  obtain rfl := Option.some.inj h''
  exact hev

theorem ReachableBy.trans {s t u : σ} (h₁ : ReachableBy step ok s t)
    (h₂ : ReachableBy step ok t u) : ReachableBy step ok s u := by
  obtain ⟨es, hev₁, hrun₁⟩ := h₁
  obtain ⟨fs, hev₂, hrun₂⟩ := h₂
  refine ⟨es ++ fs, every_append.mpr ⟨hev₁, ?_⟩, ?_⟩
  · intro s' hs'
    rw [hrun₁] at hs'
    obtain rfl := Option.some.inj hs'
    exact hev₂
  · rw [run_append, hrun₁]
    exact hrun₂

theorem ReachableBy.reachable {s t : σ} (h : ReachableBy step ok s t) :
    Reachable step s t := by
  obtain ⟨es, -, hrun⟩ := h
  exact ⟨es, hrun⟩

theorem Reachable.by_any {s t : σ} (h : Reachable step s t) :
    ReachableBy step (fun _ _ => True) s t := by
  obtain ⟨es, hrun⟩ := h
  exact ⟨es, every_of_forall (fun _ _ _ => trivial) s, hrun⟩

/-! ## Invariants -/

/-- Every admitted step keeps the property. -/
def Preserves (step : σ → ε → Option σ) (ok : σ → ε → Prop) (inv : σ → Prop) : Prop :=
  ∀ {s : σ} {e : ε} {s' : σ}, inv s → ok s e → step s e = some s' → inv s'

/-- **Invariant rule.**  A property of the start that every admitted step keeps
holds wherever an admitted run ends. -/
theorem ReachableBy.invariant {inv : σ → Prop} {s t : σ}
    (hpres : Preserves step ok inv) (hs : inv s) (h : ReachableBy step ok s t) :
    inv t := by
  obtain ⟨es, hev, hrun⟩ := h
  induction es generalizing s with
  | nil =>
    obtain rfl := Option.some.inj hrun
    exact hs
  | cons e es ih =>
    obtain ⟨s', hstep, hrest⟩ := run_cons_eq_some.mp hrun
    exact ih (hpres hs hev.1 hstep) (hev.2 s' hstep) hrest

/-- The invariant rule for unrestricted runs. -/
theorem Reachable.invariant {inv : σ → Prop} {s t : σ}
    (hpres : Preserves step (fun _ _ => True) inv) (hs : inv s)
    (h : Reachable step s t) : inv t :=
  h.by_any.invariant hpres hs

/-- **History rule.**  A relation of the events so far to the state, which every step keeps,
holds of the events of a run and the state it ends in. -/
theorem history_of_run {inv : List ε → σ → Prop}
    (hstep : ∀ {es s e s'}, inv es s → step s e = some s' → inv (es ++ [e]) s')
    {s t : σ} {es : List ε} (hs : inv [] s) (h : run step s es = some t) : inv es t := by
  suffices hall : ∀ fs s, inv fs s → run step s es = some t → inv (fs ++ es) t from
    hall [] s hs h
  clear hs h
  induction es with
  | nil =>
    intro fs s hs hrun
    obtain rfl := Option.some.inj hrun
    rwa [List.append_nil]
  | cons e es ih =>
    intro fs s hs hrun
    obtain ⟨s', hs', hrest⟩ := run_cons_eq_some.mp hrun
    have hall := ih (fs ++ [e]) s' (hstep hs hs') hrest
    rwa [List.append_assoc] at hall

/-- Where nothing bad is ever undone, a run into a good state starts in one. -/
theorem good_of_run {inv good : σ → Prop}
    (hpres : Preserves step (fun _ _ => True) inv)
    (hback : ∀ {s e s'}, inv s → step s e = some s' → good s' → good s)
    {s t : σ} {es : List ε} (hs : inv s) (ht : good t) (hrun : run step s es = some t) :
    good s := by
  induction es generalizing s with
  | nil =>
    obtain rfl := Option.some.inj hrun
    exact ht
  | cons e es ih =>
    obtain ⟨s', hs', hrest⟩ := run_cons_eq_some.mp hrun
    exact hback hs hs' (ih (hpres hs trivial hs') hrest)

/-- **Monitor rule.**  When a step out of a good state leads to a good state exactly
if it is admitted, and nothing bad is ever undone, then a run ends in a good state
exactly if every step of it is admitted. -/
theorem good_iff_every {inv good : σ → Prop}
    (hpres : Preserves step (fun _ _ => True) inv)
    (hback : ∀ {s e s'}, inv s → step s e = some s' → good s' → good s)
    (hstep : ∀ {s e s'}, inv s → good s → step s e = some s' → (good s' ↔ ok s e))
    {s t : σ} {es : List ε} (hs : inv s) (hg : good s) (hrun : run step s es = some t) :
    good t ↔ Every step ok s es := by
  induction es generalizing s with
  | nil =>
    obtain rfl := Option.some.inj hrun
    exact ⟨fun _ => trivial, fun _ => hg⟩
  | cons e es ih =>
    obtain ⟨s', hs', hrest⟩ := run_cons_eq_some.mp hrun
    have hinv' := hpres hs trivial hs'
    constructor
    · intro ht
      have hg' : good s' := good_of_run hpres hback hinv' ht hrest
      refine ⟨(hstep hs hg hs').mp hg', fun s'' hs'' => ?_⟩
      rw [hs'] at hs''
      obtain rfl := Option.some.inj hs''
      exact (ih hinv' hg' hrest).mp ht
    · rintro ⟨hok, hev⟩
      exact (ih hinv' ((hstep hs hg hs').mpr hok) hrest).mpr (hev s' hs')

/-- The property holds in every state that a run passes through. -/
def Always (step : σ → ε → Option σ) (good : σ → Prop) (s : σ) (es : List ε) : Prop :=
  ∀ es' t, es' <+: es → run step s es' = some t → good t

theorem always_cons {good : σ → Prop} {s s' : σ} {e : ε} {es : List ε}
    (hstep : step s e = some s') :
    Always step good s (e :: es) ↔ good s ∧ Always step good s' es := by
  constructor
  · intro hall
    refine ⟨hall [] s (List.nil_prefix) rfl, fun es' t hpre hrun => ?_⟩
    exact hall (e :: es') t (List.cons_prefix_cons.mpr ⟨rfl, hpre⟩)
      (run_cons_eq_some.mpr ⟨s', hstep, hrun⟩)
  · rintro ⟨hs, hall⟩ es' t hpre hrun
    cases es' with
    | nil =>
      obtain rfl := Option.some.inj hrun
      exact hs
    | cons e' es' =>
      obtain ⟨rfl, htail⟩ := List.cons_prefix_cons.mp hpre
      obtain ⟨s'', hs'', hrest⟩ := run_cons_eq_some.mp hrun
      rw [hstep] at hs''
      obtain rfl := Option.some.inj hs''
      exact hall es' t htail hrest

/-- The invariant rule for all states of an admitted run. -/
theorem always_of_every {inv good : σ → Prop} (hpres : Preserves step ok inv)
    (hgood : ∀ {s}, inv s → good s) {s : σ} {es : List ε} (hs : inv s)
    (hev : Every step ok s es) : Always step good s es := by
  rintro es' t ⟨fs, rfl⟩ hrun
  exact hgood (ReachableBy.invariant hpres hs ⟨es', (every_append.mp hev).1, hrun⟩)

/-- Two properties that agree wherever the invariant holds. -/
theorem always_congr {inv good good' : σ → Prop}
    (hpres : Preserves step (fun _ _ => True) inv) (h : ∀ {t}, inv t → (good t ↔ good' t))
    {s : σ} (hs : inv s) (es : List ε) : Always step good s es ↔ Always step good' s es := by
  have hreach : ∀ {es' t}, run step s es' = some t → inv t := fun {es'} _ hrun =>
    Reachable.invariant hpres hs ⟨es', hrun⟩
  constructor
  · intro hall es' t hpre hrun
    exact (h (hreach hrun)).mp (hall es' t hpre hrun)
  · intro hall es' t hpre hrun
    exact (h (hreach hrun)).mpr (hall es' t hpre hrun)

/-- **Safety rule.**  When a step out of a good state leads to a good state exactly if
it is admitted, all states of a run are good exactly if all its steps are admitted. -/
theorem always_iff_every {inv good : σ → Prop}
    (hpres : Preserves step (fun _ _ => True) inv)
    (hstep : ∀ {s e s'}, inv s → good s → step s e = some s' → (good s' ↔ ok s e))
    {s t : σ} {es : List ε} (hs : inv s) (hg : good s) (hrun : run step s es = some t) :
    Always step good s es ↔ Every step ok s es := by
  induction es generalizing s with
  | nil =>
    refine iff_of_true (fun es' u hpre hu => ?_) trivial
    rw [List.prefix_nil.mp hpre] at hu
    obtain rfl := Option.some.inj hu
    exact hg
  | cons e es ih =>
    obtain ⟨s', hs', hrest⟩ := run_cons_eq_some.mp hrun
    have hinv' := hpres hs trivial hs'
    rw [always_cons hs']
    constructor
    · rintro ⟨-, hall⟩
      have hg' : good s' := hall [] s' List.nil_prefix rfl
      refine ⟨(hstep hs hg hs').mp hg', fun s'' hs'' => ?_⟩
      rw [hs'] at hs''
      obtain rfl := Option.some.inj hs''
      exact (ih hinv' hg' hrest).mp hall
    · rintro ⟨hok, hev⟩
      exact ⟨hg, (ih hinv' ((hstep hs hg hs').mpr hok) hrest).mpr (hev s' hs')⟩

/-! ## Simulation -/

/-- **Simulation rule.**  When each step shows in the view as a run of another system, so
does each run. -/
theorem Reachable.simulates {τ δ : Type} {step' : τ → δ → Option τ} (view : σ → τ)
    (hstep : ∀ {s e s'}, step s e = some s' → Reachable step' (view s) (view s'))
    {s t : σ} (h : Reachable step s t) : Reachable step' (view s) (view t) := by
  obtain ⟨es, hrun⟩ := h
  induction es generalizing s with
  | nil =>
    obtain rfl := Option.some.inj hrun
    exact ⟨[], rfl⟩
  | cons e es ih =>
    obtain ⟨s', hs', hrest⟩ := run_cons_eq_some.mp hrun
    obtain ⟨fs, hfs⟩ := hstep hs'
    obtain ⟨gs, hgs⟩ := ih hrest
    exact ⟨fs ++ gs, by rw [run_append, hfs]; exact hgs⟩

/-! ## Progress -/

/-- **Growth rule.**  When every admitted step of a state with the invariant is enabled,
keeps the invariant and makes the state grow by the gain of its event until it has the
full size, an admitted list of events is a run that makes it grow by all their gains. -/
theorem exists_run_growing (inv : σ → Prop) (size : σ → Nat) (gain : ε → Nat) (full : Nat)
    (hstep : ∀ {s e}, inv s → ok s e →
      ∃ s', step s e = some s' ∧ inv s' ∧ min full (size s + gain e) ≤ size s')
    {s : σ} {es : List ε} (hs : inv s) (hev : Every step ok s es) :
    ∃ t, run step s es = some t ∧ inv t ∧ min full (size s + (es.map gain).sum) ≤ size t := by
  induction es generalizing s with
  | nil => exact ⟨s, rfl, hs, Nat.min_le_right _ _⟩
  | cons e es ih =>
    obtain ⟨s', hs', hinv', hgrow⟩ := hstep hs hev.1
    obtain ⟨t, hrun, ht, hsize⟩ := ih hinv' (hev.2 s' hs')
    refine ⟨t, run_cons_eq_some.mpr ⟨s', hs', hrun⟩, ht, ?_⟩
    rw [List.map_cons, List.sum_cons]
    omega

/-- **Progress rule.**  If outside the goal some admitted step keeps the
invariant and lowers the rank, then an admitted run reaches the goal. -/
theorem exists_reachableBy_of_rank {inv : σ → Prop} (goal : σ → Prop) (rank : σ → Nat)
    (hstep : ∀ s, inv s → ¬ goal s →
      ∃ e s', ok s e ∧ step s e = some s' ∧ inv s' ∧ rank s' < rank s)
    {s : σ} (hs : inv s) : ∃ t, ReachableBy step ok s t ∧ goal t := by
  induction hn : rank s using Nat.strongRecOn generalizing s with
  | ind n ih =>
    by_cases hg : goal s
    · exact ⟨s, .refl s, hg⟩
    · obtain ⟨e, s', hok, hst, hinv, hlt⟩ := hstep s hs hg
      obtain ⟨t, ht, hgoal⟩ := ih (rank s') (hn ▸ hlt) hinv rfl
      exact ⟨t, .head hok hst ht, hgoal⟩

end Ruproxy.Foundation.Transition
