/-
  Foundation/Table.lean --- hash maps as association lists without duplicate keys.

  A `HashMap` of the source is Mathlib's `AList` at a constant value type: the
  invariant that a key occurs once is a field of the type.  The order of the
  entries plays the part of the unspecified iteration order.
-/
import Mathlib.Data.List.AList

set_option autoImplicit false

namespace Ruproxy.Foundation

/-- `std::collections::HashMap`. -/
abbrev Table (K V : Type) : Type := AList fun _ : K => V

namespace Table

variable {K V W : Type}

/-- The entries with other values, in the same order. -/
def mapValues (f : K → V → W) (t : Table K V) : Table K W where
  entries := t.entries.map fun e => ⟨e.1, f e.1 e.2⟩
  nodupKeys := by
    have hkeys : (t.entries.map fun e => (⟨e.1, f e.1 e.2⟩ : Sigma fun _ : K => W)).keys =
        t.entries.keys := by
      simp [List.keys]
    rw [List.NodupKeys, hkeys]
    exact t.nodupKeys

@[simp] theorem keys_mapValues (f : K → V → W) (t : Table K V) :
    (t.mapValues f).keys = t.keys := by
  simp [mapValues, AList.keys, List.keys]

variable [DecidableEq K]

@[simp] theorem lookup_mapValues (f : K → V → W) (t : Table K V) (k : K) :
    (t.mapValues f).lookup k = (t.lookup k).map (f k) := by
  simp only [AList.lookup, mapValues]
  induction t.entries with
  | nil => rfl
  | cons e es ih =>
    obtain ⟨k', v⟩ := e
    rw [List.map_cons]
    rcases eq_or_ne k k' with rfl | hne
    · rw [List.dlookup_cons_eq, List.dlookup_cons_eq, Option.map_some]
    · rw [List.dlookup_cons_ne _ _ hne, List.dlookup_cons_ne _ _ hne, ih]

/-- The value of a key is changed in place. -/
def modify (t : Table K V) (k : K) (f : V → V) : Table K V :=
  t.mapValues fun k' v => if k' = k then f v else v

@[simp] theorem keys_modify (t : Table K V) (k : K) (f : V → V) :
    (t.modify k f).keys = t.keys :=
  keys_mapValues _ t

theorem lookup_modify_self (t : Table K V) (k : K) (f : V → V) :
    (t.modify k f).lookup k = (t.lookup k).map f := by
  simp [modify]

theorem lookup_modify_of_ne (t : Table K V) {k k' : K} (h : k' ≠ k) (f : V → V) :
    (t.modify k f).lookup k' = t.lookup k' := by
  simp [modify, h]

/-- What holds of all values of a table, by its entries. -/
theorem forall_lookup_iff {t : Table K V} {P : K → V → Prop} :
    (∀ k v, t.lookup k = some v → P k v) ↔ ∀ e ∈ t.entries, P e.1 e.2 := by
  constructor
  · intro hall e he
    exact hall e.1 e.2 (AList.mem_lookup_iff.mpr he)
  · intro hall k v hv
    exact hall ⟨k, v⟩ (AList.mem_lookup_iff.mp hv)

end Table

/-! ## Searching the entries -/

/-- A search for the only element with a property finds it in whatever order. -/
theorem find?_eq_of_perm {α : Type} {p : α → Bool} {l l' : List α} (hperm : l'.Perm l)
    (hunique : ∀ a ∈ l, ∀ b ∈ l, p a = true → p b = true → a = b) : l'.find? p = l.find? p := by
  cases hfind : l.find? p with
  | none =>
    rw [List.find?_eq_none] at hfind ⊢
    exact fun a ha => hfind a (hperm.mem_iff.mp ha)
  | some a =>
    have ha := List.mem_of_find?_eq_some hfind
    have hpa := List.find?_some hfind
    obtain ⟨b, hb⟩ := Option.isSome_iff_exists.mp
      (List.find?_isSome.mpr ⟨a, hperm.mem_iff.mpr ha, hpa⟩)
    have hmem := hperm.mem_iff.mp (List.mem_of_find?_eq_some hb)
    rw [hb, hunique b hmem a ha (List.find?_some hb) hpa]

/-! ## Entries numbered in order -/

/-- The entries of a list with one more. -/
theorem getElem?_snoc_eq_some_iff {α : Type} {l : List α} {a b : α} {i : Nat} :
    (l ++ [a])[i]? = some b ↔ l[i]? = some b ∨ (i = l.length ∧ a = b) := by
  rcases lt_trichotomy i l.length with hlt | rfl | hgt
  · rw [List.getElem?_append_left hlt]
    exact ⟨.inl, fun h => h.resolve_right fun h => absurd h.1 (Nat.ne_of_lt hlt)⟩
  · simp
  · have hout : (l ++ [a]).length ≤ i := by
      rw [List.length_append]
      exact hgt
    rw [List.getElem?_eq_none hout, List.getElem?_eq_none (Nat.le_of_lt hgt)]
    constructor
    · exact .inl
    · exact fun h => h.resolve_right fun h => absurd h.1 (Nat.ne_of_gt hgt)

/-! ## Loops over the entries -/

/-- **Loop rule.**  A loop whose body never fails on states with a property and keeps
the property does not fail and keeps it. -/
theorem foldlM_keeps {σ α : Type} {f : σ → α → Option σ} {P : σ → Prop}
    (hbody : ∀ s x, P s → ∃ s', f s x = some s' ∧ P s') (l : List α) {s : σ} (hs : P s) :
    ∃ s', l.foldlM f s = some s' ∧ P s' := by
  induction l generalizing s with
  | nil => exact ⟨s, rfl, hs⟩
  | cons x l ih =>
    obtain ⟨s₁, hx, h₁⟩ := hbody s x hs
    obtain ⟨s₂, hl, h₂⟩ := ih h₁
    exact ⟨s₂, by rw [List.foldlM_cons, hx]; exact hl, h₂⟩

/-- The loop rule for what a loop does when it does not fail: a relation between the
states before and after each turn. -/
theorem foldlM_rel {σ α : Type} {f : σ → α → Option σ} {R : σ → σ → Prop}
    (hrefl : ∀ s, R s s) (htrans : ∀ {s t u}, R s t → R t u → R s u)
    (hbody : ∀ {s x s'}, f s x = some s' → R s s') {l : List α} {s s' : σ}
    (h : l.foldlM f s = some s') : R s s' := by
  induction l generalizing s with
  | nil =>
    obtain rfl := Option.some.inj h
    exact hrefl s
  | cons x l ih =>
    rw [List.foldlM_cons] at h
    obtain ⟨s₁, hx, hl⟩ := Option.bind_eq_some_iff.mp h
    exact htrans (hbody hx) (ih hl)

/-- **Turn rule.**  Where the turns of the other elements leave a view of the state alone, a
loop over a list without repetitions changes it in the one turn of the element, if at all. -/
theorem foldlM_turn {σ α β : Type} {f : σ → α → Option σ} {v : σ → β} {x : α}
    (hbody : ∀ {s y s'}, y ≠ x → f s y = some s' → v s' = v s)
    {l : List α} (hnodup : l.Nodup) {s s' : σ} (h : l.foldlM f s = some s') :
    (x ∉ l → v s' = v s) ∧
      (x ∈ l → ∃ s₁ s₂, v s₁ = v s ∧ f s₁ x = some s₂ ∧ v s' = v s₂) := by
  induction l generalizing s with
  | nil =>
    obtain rfl := Option.some.inj h
    exact ⟨fun _ => rfl, fun hmem => absurd hmem List.not_mem_nil⟩
  | cons y l ih =>
    rw [List.foldlM_cons] at h
    obtain ⟨t, hy, hl⟩ := Option.bind_eq_some_iff.mp h
    obtain ⟨hnotMem, hnodup⟩ := List.nodup_cons.mp hnodup
    obtain ⟨hout, hin⟩ := ih hnodup hl
    constructor
    · intro hx
      obtain ⟨hne, hx⟩ := List.ne_and_not_mem_of_not_mem_cons hx
      rw [hout hx, hbody hne.symm hy]
    · intro hx
      rcases List.mem_cons.mp hx with rfl | hx
      · exact ⟨s, t, rfl, hy, hout hnotMem⟩
      · obtain ⟨s₁, s₂, heq, hturn, hlast⟩ := hin hx
        have hne : y ≠ x := fun hyx => hnotMem (hyx ▸ hx)
        exact ⟨s₁, s₂, heq.trans (hbody hne hy), hturn, hlast⟩

end Ruproxy.Foundation
