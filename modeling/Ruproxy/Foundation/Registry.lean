/-
  Foundation/Registry.lean --- entries that own a slot of a shared pool.

  Several tables (one for each kind `π`) map keys to entries; an entry has a
  number, never given twice, and a slot of one pool.  A slot that was freed may
  be used again, so a slot number that was copied out of a table can come to
  name the slot of another entry.  What stays true is `Linked`: as long as the
  entry with the copied number is in its table, it is the one at the copied slot.
-/
import Mathlib.Logic.Function.Basic
import Mathlib.Logic.Relation

set_option autoImplicit false

namespace Ruproxy.Foundation

/-- Tables of entries (number and slot) by kind and key, the kind and entry number
each slot of the pool is in use for, and the next entry number. -/
@[ext]
structure Registry (π κ : Type) where
  entry : π → κ → Option (Nat × Nat)
  slot : Nat → Option (π × Nat)
  next : Nat

namespace Registry

variable {π κ : Type}

/-- The tables and the pool agree. -/
structure WellFormed (r : Registry π κ) : Prop where
  /-- an entry's slot is in use for it -/
  live : ∀ {p k i h}, r.entry p k = some (i, h) → r.slot h = some (p, i)
  /-- a slot in use belongs to an entry -/
  owned : ∀ {p i h}, r.slot h = some (p, i) → ∃ k, r.entry p k = some (i, h)
  /-- an entry number is in one place -/
  key_unique : ∀ {p k k' i h h'}, r.entry p k = some (i, h) →
    r.entry p k' = some (i, h') → k = k'
  /-- entry numbers were all given before -/
  lt_next : ∀ {p k i h}, r.entry p k = some (i, h) → i < r.next

/-- A number and a slot that were copied from one entry. -/
def Linked (r : Registry π κ) (p : π) (i h : Nat) : Prop :=
  i < r.next ∧ ∀ k h', r.entry p k = some (i, h') → h' = h

/-- The entry with number `i` is in its table. -/
def Present (r : Registry π κ) (p : π) (i : Nat) : Prop :=
  ∃ k h, r.entry p k = some (i, h)

variable {r : Registry π κ}

/-- Two entries at one slot are one entry. -/
theorem WellFormed.eq_of_slot (hr : r.WellFormed) {p p' : π} {k k' : κ} {i i' h : Nat}
    (h₁ : r.entry p k = some (i, h)) (h₂ : r.entry p' k' = some (i', h)) :
    p = p' ∧ k = k' ∧ i = i' := by
  have heq := (hr.live h₁).symm.trans (hr.live h₂)
  simp only [Option.some.injEq, Prod.mk.injEq] at heq
  obtain ⟨rfl, rfl⟩ := heq
  exact ⟨rfl, hr.key_unique h₁ h₂, rfl⟩

theorem WellFormed.linked_entry (hr : r.WellFormed) {p : π} {k : κ} {i h : Nat}
    (hk : r.entry p k = some (i, h)) : r.Linked p i h := by
  refine ⟨hr.lt_next hk, fun k' h' hk' => ?_⟩
  obtain rfl := hr.key_unique hk hk'
  rw [hk] at hk'
  simp only [Option.some.injEq, Prod.mk.injEq] at hk'
  exact hk'.2.symm

/-- **Copied slots.**  The slot copied from an entry that is still present is in use
for that entry. -/
theorem Linked.slot (hr : r.WellFormed) {p : π} {i h : Nat} (hl : r.Linked p i h)
    (hp : r.Present p i) : r.slot h = some (p, i) := by
  obtain ⟨k, h', hk⟩ := hp
  obtain rfl := hl.2 k h' hk
  exact hr.live hk

/-- A slot in use belongs to an entry that is present. -/
theorem WellFormed.present (hr : r.WellFormed) {p : π} {i h : Nat}
    (hs : r.slot h = some (p, i)) : r.Present p i := by
  obtain ⟨k, hk⟩ := hr.owned hs
  exact ⟨k, h, hk⟩

section Ops

variable [DecidableEq π] [DecidableEq κ]

/-- A new entry at a slot. -/
def add (r : Registry π κ) (p : π) (k : κ) (h : Nat) : Registry π κ where
  entry p' k' := if p' = p ∧ k' = k then some (r.next, h) else r.entry p' k'
  slot := Function.update r.slot h (some (p, r.next))
  next := r.next + 1

/-- An entry and its slot given up. -/
def remove (r : Registry π κ) (p : π) (k : κ) (h : Nat) : Registry π κ where
  entry p' k' := if p' = p ∧ k' = k then none else r.entry p' k'
  slot := Function.update r.slot h none
  next := r.next

/-- A change of the tables: a new entry at a slot that is not in use, or an entry
given up. -/
inductive Step : Registry π κ → Registry π κ → Prop where
  | add {r p k h} : r.entry p k = none → r.slot h = none → Step r (r.add p k h)
  | remove {r p k i h} : r.entry p k = some (i, h) → Step r (r.remove p k h)

theorem add_entry {p p' : π} {k k' : κ} {h i h' : Nat} :
    (r.add p k h).entry p' k' = some (i, h') ↔
      ((p' = p ∧ k' = k) ∧ i = r.next ∧ h' = h) ∨
        (¬ (p' = p ∧ k' = k) ∧ r.entry p' k' = some (i, h')) := by
  simp only [add]
  split
  · simp_all [eq_comm]
  · simp_all

theorem remove_entry {p p' : π} {k k' : κ} {h i h' : Nat} :
    (r.remove p k h).entry p' k' = some (i, h') ↔
      ¬ (p' = p ∧ k' = k) ∧ r.entry p' k' = some (i, h') := by
  simp only [remove]
  split <;> simp_all

@[simp] theorem add_slot_self (p : π) (k : κ) (h : Nat) :
    (r.add p k h).slot h = some (p, r.next) :=
  Function.update_self ..

theorem add_slot_of_ne (p : π) (k : κ) {h h' : Nat} (hne : h' ≠ h) :
    (r.add p k h).slot h' = r.slot h' :=
  Function.update_of_ne hne ..

@[simp] theorem remove_slot_self (p : π) (k : κ) (h : Nat) :
    (r.remove p k h).slot h = none :=
  Function.update_self ..

theorem remove_slot_of_ne (p : π) (k : κ) {h h' : Nat} (hne : h' ≠ h) :
    (r.remove p k h).slot h' = r.slot h' :=
  Function.update_of_ne hne ..

theorem WellFormed.add (hr : r.WellFormed) {p : π} {k : κ} {h : Nat}
    (hentry : r.entry p k = none) (hslot : r.slot h = none) :
    (r.add p k h).WellFormed where
  live := by
    intro p' k' i h' he
    rcases add_entry.mp he with ⟨⟨rfl, rfl⟩, rfl, rfl⟩ | ⟨-, hold⟩
    · exact add_slot_self ..
    · have hne : h' ≠ h := by
        intro heq
        rw [← heq, hr.live hold] at hslot
        simp at hslot
      rw [add_slot_of_ne _ _ hne]
      exact hr.live hold
  owned := by
    intro p' i h' hs
    by_cases hh : h' = h
    · subst hh
      rw [add_slot_self] at hs
      simp only [Option.some.injEq, Prod.mk.injEq] at hs
      obtain ⟨rfl, rfl⟩ := hs
      exact ⟨k, add_entry.mpr (.inl ⟨⟨rfl, rfl⟩, rfl, rfl⟩)⟩
    · rw [add_slot_of_ne _ _ hh] at hs
      obtain ⟨k', hk'⟩ := hr.owned hs
      refine ⟨k', add_entry.mpr (.inr ⟨?_, hk'⟩)⟩
      rintro ⟨rfl, rfl⟩
      rw [hentry] at hk'
      simp at hk'
  key_unique := by
    intro p' k₁ k₂ i h₁ h₂ he₁ he₂
    rcases add_entry.mp he₁ with ⟨⟨-, hk₁⟩, hi₁, -⟩ | ⟨-, hold₁⟩
    · rcases add_entry.mp he₂ with ⟨⟨-, hk₂⟩, -⟩ | ⟨-, hold₂⟩
      · rw [hk₁, hk₂]
      · exact absurd (hi₁ ▸ hr.lt_next hold₂) (Nat.lt_irrefl _)
    · rcases add_entry.mp he₂ with ⟨-, hi₂, -⟩ | ⟨-, hold₂⟩
      · exact absurd (hi₂ ▸ hr.lt_next hold₁) (Nat.lt_irrefl _)
      · exact hr.key_unique hold₁ hold₂
  lt_next := by
    intro p' k' i h' he
    rcases add_entry.mp he with ⟨-, rfl, -⟩ | ⟨-, hold⟩
    · exact Nat.lt_succ_self _
    · exact Nat.lt_succ_of_lt (hr.lt_next hold)

theorem WellFormed.remove (hr : r.WellFormed) {p : π} {k : κ} {i h : Nat}
    (hentry : r.entry p k = some (i, h)) : (r.remove p k h).WellFormed where
  live := by
    intro p' k' i' h' he
    obtain ⟨hne, hold⟩ := remove_entry.mp he
    have hh : h' ≠ h := by
      intro heq
      rw [heq] at hold
      obtain ⟨hp, hk, -⟩ := hr.eq_of_slot hold hentry
      exact hne ⟨hp, hk⟩
    rw [remove_slot_of_ne _ _ hh]
    exact hr.live hold
  owned := by
    intro p' i' h' hs
    have hh : h' ≠ h := by
      intro heq
      rw [heq, remove_slot_self] at hs
      simp at hs
    rw [remove_slot_of_ne _ _ hh] at hs
    obtain ⟨k', hk'⟩ := hr.owned hs
    refine ⟨k', remove_entry.mpr ⟨?_, hk'⟩⟩
    rintro ⟨rfl, rfl⟩
    rw [hentry] at hk'
    simp only [Option.some.injEq, Prod.mk.injEq] at hk'
    exact hh hk'.2.symm
  key_unique := by
    intro p' k₁ k₂ i' h₁ h₂ he₁ he₂
    exact hr.key_unique (remove_entry.mp he₁).2 (remove_entry.mp he₂).2
  lt_next := by
    intro p' k' i' h' he
    exact hr.lt_next (remove_entry.mp he).2

end Ops

/-! ## Sequences of changes -/

variable [DecidableEq π] [DecidableEq κ] {r r' : Registry π κ}

/-- The registry after any number of changes. -/
def Evolves : Registry π κ → Registry π κ → Prop := Relation.ReflTransGen Step

theorem WellFormed.step (hr : r.WellFormed) (h : Step r r') : r'.WellFormed := by
  cases h with
  | add hentry hslot => exact hr.add hentry hslot
  | remove hentry => exact hr.remove hentry

theorem WellFormed.evolves (hr : r.WellFormed) (h : Evolves r r') : r'.WellFormed := by
  induction h with
  | refl => exact hr
  | tail _ hstep ih => exact ih.step hstep

/-- A copied number and slot stay linked, whatever is added or given up. -/
theorem Linked.step {p : π} {i h : Nat} (hl : r.Linked p i h) (hs : Step r r') :
    r'.Linked p i h := by
  obtain ⟨hlt, hslot⟩ := hl
  cases hs with
  | add _ _ =>
    refine ⟨Nat.lt_succ_of_lt hlt, fun k' h' he => ?_⟩
    rcases add_entry.mp he with ⟨-, hi, -⟩ | ⟨-, hold⟩
    · exact absurd (hi ▸ hlt) (Nat.lt_irrefl _)
    · exact hslot k' h' hold
  | remove _ => exact ⟨hlt, fun k' h' he => hslot k' h' (remove_entry.mp he).2⟩

theorem Linked.evolves {p : π} {i h : Nat} (hl : r.Linked p i h) (he : Evolves r r') :
    r'.Linked p i h := by
  induction he with
  | refl => exact hl
  | tail _ hstep ih => exact ih.step hstep

theorem Evolves.next_le (h : Evolves r r') : r.next ≤ r'.next := by
  induction h with
  | refl => exact Nat.le_refl _
  | tail _ hstep ih =>
    cases hstep with
    | add _ _ => exact Nat.le_succ_of_le ih
    | remove _ => exact ih

end Registry

end Ruproxy.Foundation
