/-
  Foundation/Duplex.lean --- two loops that carry bytes, side by side.

  A `Pump` carries the bytes of a source to a sink.  What a relay needs to know of it is
  what the sink has, and that the loop can always go on to its end.  A `Leg` is a pump whose
  sink is shut down afterwards, whether the loop ended well or with an error.  `both` runs
  two systems side by side, and a run of both is a run of each.  So two legs that are joined
  do not disturb each other: each delivers in full unless it fails itself.
-/
import Ruproxy.Foundation.Bytes
import Ruproxy.Foundation.Transition

set_option autoImplicit false

namespace Ruproxy.Foundation.Transition

/-! ## Side by side -/

section Both

variable {σ τ ε δ : Type} (step₁ : σ → ε → Option σ) (step₂ : τ → δ → Option τ)

/-- Two systems side by side; an event is one of the first or of the second. -/
def both : σ × τ → ε ⊕ δ → Option (σ × τ)
  | (s, t), .inl e => (step₁ s e).map (·, t)
  | (s, t), .inr d => (step₂ t d).map (s, ·)

/-- The events of the first system. -/
def lefts (es : List (ε ⊕ δ)) : List ε := es.filterMap Sum.getLeft?

/-- The events of the second system. -/
def rights (es : List (ε ⊕ δ)) : List δ := es.filterMap Sum.getRight?

variable {step₁ step₂}

/-- **Interleaving.**  A run of both is a run of each on its own events. -/
theorem run_both {s s' : σ} {t t' : τ} {es : List (ε ⊕ δ)} :
    run (both step₁ step₂) (s, t) es = some (s', t') ↔
      run step₁ s (lefts es) = some s' ∧ run step₂ t (rights es) = some t' := by
  induction es generalizing s t with
  | nil => simp [lefts, rights]
  | cons e es ih =>
    cases e with
    | inl e =>
      have hlefts : lefts (.inl e :: es : List (ε ⊕ δ)) = e :: lefts es := rfl
      have hrights : rights (.inl e :: es : List (ε ⊕ δ)) = rights es := rfl
      rw [hlefts, hrights, run_cons, run_cons, both]
      cases step₁ s e with
      | none => simp
      | some s₁ => exact ih
    | inr d =>
      have hlefts : lefts (.inr d :: es : List (ε ⊕ δ)) = lefts es := rfl
      have hrights : rights (.inr d :: es : List (ε ⊕ δ)) = d :: rights es := rfl
      rw [hlefts, hrights, run_cons, run_cons, both]
      cases step₂ t d with
      | none => simp
      | some t₁ => exact ih

theorem run_both_lefts {s s' : σ} (t : τ) {es : List ε} (h : run step₁ s es = some s') :
    run (both step₁ step₂) (s, t) (es.map .inl) = some (s', t) := by
  have hlefts : lefts (es.map .inl : List (ε ⊕ δ)) = es := by
    simp [lefts, List.filterMap_map, Function.comp_def]
  have hrights : rights (es.map .inl : List (ε ⊕ δ)) = [] := by
    simp [rights, List.filterMap_map, Function.comp_def]
  rw [run_both, hlefts, hrights]
  exact ⟨h, rfl⟩

theorem run_both_rights (s : σ) {t t' : τ} {es : List δ} (h : run step₂ t es = some t') :
    run (both step₁ step₂) (s, t) (es.map .inr) = some (s, t') := by
  have hlefts : lefts (es.map .inr : List (ε ⊕ δ)) = [] := by
    simp [lefts, List.filterMap_map, Function.comp_def]
  have hrights : rights (es.map .inr : List (ε ⊕ δ)) = es := by
    simp [rights, List.filterMap_map, Function.comp_def]
  rw [run_both, hlefts, hrights]
  exact ⟨rfl, h⟩

end Both

end Ruproxy.Foundation.Transition

namespace Ruproxy.Foundation.Duplex

open Ruproxy.Foundation.Transition

/-! ## Pumps -/

/-- A loop that carries `sent` from a source to a sink. -/
structure Pump (ε : Type) (sent : Bytes) where
  State : Type
  start : State
  step : State → ε → Option State
  /-- what the sink took -/
  written : State → Bytes
  /-- the loop may return without an error -/
  finished : State → Bool
  rank : State → Nat
  written_start : written start = []
  written_prefix : ∀ s, written s <+: sent
  written_mono : ∀ {s e s'}, step s e = some s' → written s <+: written s'
  written_of_finished : ∀ s, finished s = true → written s = sent
  progress : ∀ s, finished s = false → ∃ e s', step s e = some s' ∧ rank s' < rank s

variable {ε : Type} {sent : Bytes}

/-- A pump is never stuck. -/
theorem Pump.exists_finished (p : Pump ε sent) (s : p.State) :
    ∃ es t, run p.step s es = some t ∧ p.finished t = true := by
  have hrank : ∀ s, True → ¬ p.finished s = true →
      ∃ e s', True ∧ p.step s e = some s' ∧ True ∧ p.rank s' < p.rank s := by
    intro s _ hgo
    obtain ⟨e, s', hstep, hlt⟩ := p.progress s (Bool.eq_false_iff.mpr hgo)
    exact ⟨e, s', trivial, hstep, trivial, hlt⟩
  obtain ⟨t, hreach, hfin⟩ := @exists_reachableBy_of_rank _ _ p.step (fun _ _ => True)
    (fun _ => True) (fun s => p.finished s = true) p.rank hrank s trivial
  obtain ⟨es, hrun⟩ := hreach.reachable
  exact ⟨es, t, hrun, hfin⟩

/-! ## Legs -/

/-- How far a leg is, and whether its loop returned without an error. -/
inductive Stage where
  | pumping
  | closing (ok : Bool)
  | closed (ok : Bool)
  deriving DecidableEq

/-- The loop of a leg has returned an error. -/
def Stage.failed : Stage → Bool
  | .pumping => false
  | .closing ok => !ok
  | .closed ok => !ok

/-- The loop of a leg has returned without an error. -/
def Stage.succeeded : Stage → Bool
  | .pumping => false
  | .closing ok => ok
  | .closed ok => ok

/-- A pump with the shutdown of its sink behind it. -/
structure Leg (p : Pump ε sent) where
  state : p.State
  stage : Stage
  finished_of_succeeded : stage.succeeded = true → p.finished state = true

/-- A step of a leg. -/
inductive LegEvent (ε : Type) where
  /-- the loop moves on -/
  | pump (e : ε)
  /-- the loop returns -/
  | finish
  /-- the loop returns an error -/
  | fail
  /-- the shutdown returns, with whatever result -/
  | shutdown

namespace Leg

variable {p : Pump ε sent}

/-- Before the first poll. -/
def start (p : Pump ε sent) : Leg p where
  state := p.start
  stage := .pumping
  finished_of_succeeded := fun h => nomatch h

/-- One step of a leg. -/
def step (l : Leg p) : LegEvent ε → Option (Leg p)
  | .pump e =>
      match l.stage with
      | .pumping => (p.step l.state e).map fun s => ⟨s, .pumping, fun h => nomatch h⟩
      | _ => none
  | .finish =>
      if h : l.stage = .pumping ∧ p.finished l.state = true then
        some ⟨l.state, .closing true, fun _ => h.2⟩
      else none
  | .fail =>
      match l.stage with
      | .pumping => some ⟨l.state, .closing false, fun h => nomatch h⟩
      | _ => none
  | .shutdown =>
      match h : l.stage with
      | .closing ok => some ⟨l.state, .closed ok, fun hok => l.finished_of_succeeded (h ▸ hok)⟩
      | _ => none

/-- What the sink took. -/
def written (l : Leg p) : Bytes := p.written l.state

/-- The sink was shut down. -/
def Closed (l : Leg p) : Prop := ∃ ok, l.stage = .closed ok

theorem written_prefix (l : Leg p) : l.written <+: sent := p.written_prefix l.state

/-- A leg whose loop returned without an error has delivered everything. -/
theorem written_of_succeeded {l : Leg p} (h : l.stage.succeeded = true) : l.written = sent :=
  p.written_of_finished l.state (l.finished_of_succeeded h)

/-- The bytes of a sink are not taken back. -/
theorem written_mono {l l' : Leg p} {e : LegEvent ε} (h : l.step e = some l') :
    l.written <+: l'.written := by
  cases e with
  | pump e =>
    rw [step] at h
    split at h
    · obtain ⟨s, hs, rfl⟩ := Option.map_eq_some_iff.mp h
      exact p.written_mono hs
    · cases h
  | finish =>
    rw [step] at h
    split at h
    · cases h
      exact List.prefix_rfl
    · cases h
  | fail =>
    rw [step] at h
    split at h
    · cases h
      exact List.prefix_rfl
    · cases h
  | shutdown =>
    rw [step] at h
    split at h
    · cases h
      exact List.prefix_rfl
    · cases h

theorem run_pump {l : Leg p} {es : List ε} {t : p.State} (hstage : l.stage = .pumping)
    (h : run p.step l.state es = some t) :
    ∃ l', run step l (es.map .pump) = some l' ∧ l'.state = t ∧ l'.stage = .pumping := by
  induction es generalizing l with
  | nil =>
    obtain rfl := Option.some.inj h
    exact ⟨l, rfl, rfl, hstage⟩
  | cons e es ih =>
    obtain ⟨s, hs, hrest⟩ := run_cons_eq_some.mp h
    have hstep : l.step (.pump e) = some ⟨s, .pumping, fun h => nomatch h⟩ := by
      simp only [step, hstage, hs, Option.map_some]
    obtain ⟨l', hrun, hstate, hstage'⟩ := @ih ⟨s, .pumping, fun h => nomatch h⟩ rfl hrest
    exact ⟨l', run_cons_eq_some.mpr ⟨_, hstep, hrun⟩, hstate, hstage'⟩

theorem shutdown_of_closing {l : Leg p} {ok : Bool} (h : l.stage = .closing ok) :
    ∃ l', l.step .shutdown = some l' ∧ l'.stage = .closed ok ∧ l'.written = l.written := by
  rw [step]
  split
  · rename_i ok' hok
    rw [h] at hok
    obtain rfl := Stage.closing.inj hok
    exact ⟨_, rfl, rfl, rfl⟩
  · rename_i hne
    exact absurd h (hne ok)

/-- **Completion.**  A leg that has not failed can go on until it has delivered everything
and its sink is shut down. -/
theorem exists_completion (l : Leg p) (h : l.stage.failed = false) :
    ∃ es l', run step l es = some l' ∧ l'.stage = .closed true ∧ l'.written = sent := by
  have hclosing : ∀ l : Leg p, l.stage = .closing true →
      ∃ es l', run step l es = some l' ∧ l'.stage = .closed true ∧ l'.written = sent := by
    intro l hstage
    obtain ⟨l', hstep, hclosed, hwritten⟩ := shutdown_of_closing hstage
    refine ⟨[.shutdown], l', run_cons_eq_some.mpr ⟨l', hstep, rfl⟩, hclosed, ?_⟩
    rw [hwritten]
    exact written_of_succeeded (by rw [hstage]; rfl)
  rcases hstage : l.stage with _ | ok | ok
  · obtain ⟨es, t, hrun, hfin⟩ := p.exists_finished l.state
    obtain ⟨l', hlegs, hstate, hpumping⟩ := run_pump hstage hrun
    rw [← hstate] at hfin
    have hfinish : l'.step .finish = some ⟨l'.state, .closing true, fun _ => hfin⟩ :=
      dif_pos ⟨hpumping, hfin⟩
    obtain ⟨fs, l'', hrun', hend⟩ := hclosing ⟨l'.state, .closing true, fun _ => hfin⟩ rfl
    refine ⟨es.map .pump ++ .finish :: fs, l'', ?_, hend⟩
    rw [run_append, hlegs]
    exact run_cons_eq_some.mpr ⟨_, hfinish, hrun'⟩
  · rw [hstage] at h
    obtain rfl : ok = true := by simpa [Stage.failed] using h
    exact hclosing l hstage
  · rw [hstage] at h
    obtain rfl : ok = true := by simpa [Stage.failed] using h
    exact ⟨[], l, rfl, hstage, written_of_succeeded (by rw [hstage]; rfl)⟩

end Leg

end Ruproxy.Foundation.Duplex
