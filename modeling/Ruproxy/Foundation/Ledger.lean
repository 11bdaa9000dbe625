/-
  Foundation/Ledger.lean --- a log whose entries are told apart by the request behind them.

  A server gives each request to a worker of its own, and the workers write one log in
  whatever order they run.  A ledger says which request each worker holds and for which
  request each entry was written.  A worker writes for the request it holds, so the entries
  of a request are those of one worker, in the order in which it wrote them.
-/
import Mathlib.Data.List.Basic
import Mathlib.Logic.Function.Basic

set_option autoImplicit false

namespace Ruproxy.Foundation

/-- The request each worker holds, and the log with the request behind each entry; `none`
stands for entries of no request. -/
structure Ledger (τ α : Type) where
  held : τ → Option Nat
  entries : List (Option Nat × α)

namespace Ledger

variable {τ α : Type}

/-- No request yet. -/
def new : Ledger τ α := ⟨fun _ => none, []⟩

/-- The log. -/
def log (l : Ledger τ α) : List α := l.entries.map Prod.snd

/-- The entries for one request. -/
def entriesOf (l : Ledger τ α) (k : Option Nat) : List α :=
  (l.entries.filter fun entry => entry.1 = k).map Prod.snd

theorem mem_log_iff (l : Ledger τ α) {a : α} : a ∈ l.log ↔ ∃ k, a ∈ l.entriesOf k := by
  simp [log, entriesOf]

/-- Entries are written for a request. -/
def write (l : Ledger τ α) (k : Option Nat) (as : List α) : Ledger τ α :=
  { l with entries := l.entries ++ as.map (k, ·) }

@[simp] theorem held_write (l : Ledger τ α) (k : Option Nat) (as : List α) :
    (l.write k as).held = l.held := rfl

@[simp] theorem log_write (l : Ledger τ α) (k : Option Nat) (as : List α) :
    (l.write k as).log = l.log ++ as := by
  simp [write, log, List.map_map, Function.comp_def]

@[simp] theorem entriesOf_write_self (l : Ledger τ α) (k : Option Nat) (as : List α) :
    (l.write k as).entriesOf k = l.entriesOf k ++ as := by
  have hall : (as.map (k, ·)).filter (fun entry => decide (entry.1 = k)) = as.map (k, ·) :=
    List.filter_eq_self.mpr fun entry hentry => by
      obtain ⟨a, -, rfl⟩ := List.mem_map.mp hentry
      exact decide_eq_true rfl
  simp only [write, entriesOf, List.filter_append, List.map_append, hall, List.map_map,
    Function.comp_def, List.map_id_fun', id_eq]

theorem entriesOf_write_of_ne (l : Ledger τ α) {k k' : Option Nat} (h : k' ≠ k) (as : List α) :
    (l.write k as).entriesOf k' = l.entriesOf k' := by
  have hnone : (as.map (k, ·)).filter (fun entry => decide (entry.1 = k')) = [] :=
    List.filter_eq_nil_iff.mpr fun entry hentry => by
      obtain ⟨a, -, rfl⟩ := List.mem_map.mp hentry
      simpa using h.symm
  simp only [write, entriesOf, List.filter_append, hnone, List.append_nil]

/-! ## Workers -/

/-- Of the first `n` requests no two workers hold the same, and only they have entries. -/
structure Sound (l : Ledger τ α) (n : Nat) : Prop where
  held_lt : ∀ {t i}, l.held t = some i → i < n
  held_unique : ∀ {t t' i}, l.held t = some i → l.held t' = some i → t = t'
  entries_lt : ∀ {i}, n ≤ i → l.entriesOf (some i) = []

theorem sound_new : (new : Ledger τ α).Sound 0 where
  held_lt h := nomatch h
  held_unique h := nomatch h
  entries_lt _ := rfl

theorem Sound.mono {l : Ledger τ α} {n m : Nat} (h : l.Sound n) (hle : n ≤ m) : l.Sound m where
  held_lt ht := Nat.lt_of_lt_of_le (h.held_lt ht) hle
  held_unique := h.held_unique
  entries_lt hi := h.entries_lt (Nat.le_trans hle hi)

theorem Sound.write {l : Ledger τ α} {n : Nat} (h : l.Sound n) {k : Option Nat}
    (hk : ∀ i, k = some i → i < n) (as : List α) : (l.write k as).Sound n where
  held_lt := h.held_lt
  held_unique := h.held_unique
  entries_lt {i} hi := by
    have hne : some i ≠ k := fun heq => Nat.not_lt_of_le hi (hk i heq.symm)
    rw [entriesOf_write_of_ne l hne, h.entries_lt hi]

variable [DecidableEq τ]

/-- A worker gets a request. -/
def issue (l : Ledger τ α) (t : τ) (i : Nat) : Ledger τ α :=
  { l with held := Function.update l.held t (some i) }

/-- A worker is done with its request. -/
def release (l : Ledger τ α) (t : τ) : Ledger τ α :=
  { l with held := Function.update l.held t none }

@[simp] theorem log_issue (l : Ledger τ α) (t : τ) (i : Nat) : (l.issue t i).log = l.log := rfl

@[simp] theorem log_release (l : Ledger τ α) (t : τ) : (l.release t).log = l.log := rfl

@[simp] theorem entriesOf_issue (l : Ledger τ α) (t : τ) (i : Nat) (k : Option Nat) :
    (l.issue t i).entriesOf k = l.entriesOf k := rfl

@[simp] theorem entriesOf_release (l : Ledger τ α) (t : τ) (k : Option Nat) :
    (l.release t).entriesOf k = l.entriesOf k := rfl

@[simp] theorem held_issue_self (l : Ledger τ α) (t : τ) (i : Nat) :
    (l.issue t i).held t = some i := Function.update_self ..

@[simp] theorem held_release_self (l : Ledger τ α) (t : τ) : (l.release t).held t = none :=
  Function.update_self ..

theorem held_issue_of_ne (l : Ledger τ α) {t t' : τ} (h : t' ≠ t) (i : Nat) :
    (l.issue t i).held t' = l.held t' := Function.update_of_ne h ..

theorem held_release_of_ne (l : Ledger τ α) {t t' : τ} (h : t' ≠ t) :
    (l.release t).held t' = l.held t' := Function.update_of_ne h ..

/-- The next request goes to one worker. -/
theorem Sound.issue {l : Ledger τ α} {n : Nat} (h : l.Sound n) (t : τ) :
    (l.issue t n).Sound (n + 1) where
  held_lt {t' i} ht' := by
    by_cases heq : t' = t
    · subst heq
      rw [held_issue_self] at ht'
      obtain rfl := Option.some.inj ht'
      exact Nat.lt_succ_self _
    · rw [held_issue_of_ne l heq] at ht'
      exact Nat.lt_succ_of_lt (h.held_lt ht')
  held_unique {t₁ t₂ i} h₁ h₂ := by
    have hother : ∀ {t'}, t' ≠ t → (l.issue t n).held t' = some i → i < n := fun hne ht' =>
      h.held_lt ((held_issue_of_ne l hne n).symm.trans ht')
    have hself : ∀ {t'}, t' = t → (l.issue t n).held t' = some i → i = n := by
      rintro t' rfl ht'
      exact (Option.some.inj ((held_issue_self l t' n).symm.trans ht')).symm
    by_cases heq₁ : t₁ = t
    · by_cases heq₂ : t₂ = t
      · rw [heq₁, heq₂]
      · exact absurd (hself heq₁ h₁) (Nat.ne_of_lt (hother heq₂ h₂))
    · by_cases heq₂ : t₂ = t
      · exact absurd (hself heq₂ h₂) (Nat.ne_of_lt (hother heq₁ h₁))
      · rw [held_issue_of_ne l heq₁] at h₁
        rw [held_issue_of_ne l heq₂] at h₂
        exact h.held_unique h₁ h₂
  entries_lt hi := h.entries_lt (Nat.le_of_succ_le hi)

theorem Sound.release {l : Ledger τ α} {n : Nat} (h : l.Sound n) (t : τ) :
    (l.release t).Sound n := by
  have hold : ∀ {t' i}, (l.release t).held t' = some i → l.held t' = some i := by
    intro t' i ht'
    by_cases heq : t' = t
    · subst heq
      rw [held_release_self] at ht'
      cases ht'
    · rwa [held_release_of_ne l heq] at ht'
  exact ⟨fun ht => h.held_lt (hold ht), fun h₁ h₂ => h.held_unique (hold h₁) (hold h₂),
    h.entries_lt⟩

end Ledger

end Ruproxy.Foundation
