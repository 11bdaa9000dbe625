/-
  Foundation/Counter.lean --- counters in base 256.

  `ofLe` is the value of digits of which the least significant one comes first.  A list is
  `Numbered` from a count on when its members carry that count and the ones after it, up
  to the range of the counter.  A numbered list no longer than the range carries no number
  twice.
-/
import Ruproxy.Foundation.Bytes

set_option autoImplicit false

namespace Ruproxy.Foundation.Counter

/-! ## Digits -/

/-- The value of digits, the least significant one first. -/
def ofLe (b : Bytes) : Nat := Nat.ofDigits 256 (b.map UInt8.toNat)

theorem ofLe_cons (x : UInt8) (b : Bytes) : ofLe (x :: b) = x.toNat + 256 * ofLe b :=
  Nat.ofDigits_cons ..

theorem ofLe_lt (b : Bytes) : ofLe b < 256 ^ b.length := by
  have hdigit : ∀ d ∈ b.map UInt8.toNat, d < 256 := by
    intro d hd
    obtain ⟨x, -, rfl⟩ := List.mem_map.mp hd
    exact x.toNat_lt
  have hlt := Nat.ofDigits_lt_base_pow_length (by decide) hdigit
  rwa [List.length_map] at hlt

theorem ofLe_replicate_zero (n : Nat) : ofLe (List.replicate n 0) = 0 := by
  induction n with
  | zero => rfl
  | succ n ih => rw [List.replicate_succ, ofLe_cons, ih]; rfl

/-! ## Numbered lists -/

section Numbered

variable {α : Type} {number : α → Nat} {range start : Nat}

/-- The members of a list carry the numbers from `start` on. -/
def Numbered (number : α → Nat) (range start : Nat) (l : List α) : Prop :=
  ∀ k a, l[k]? = some a → number a = (start + k) % range

theorem Numbered.nil : Numbered number range start [] := by
  intro k a hk
  cases hk

/-- A member with the first number, in front of the ones numbered after it. -/
theorem Numbered.cons {a : α} {l : List α} (ha : number a = start % range)
    (h : Numbered number range (start + 1) l) : Numbered number range start (a :: l) := by
  intro k b hk
  cases k with
  | zero =>
    cases hk
    exact ha
  | succ k =>
    rw [h k b hk, Nat.add_assoc, Nat.add_comm 1 k]

/-- Numbered members, and members that are numbered after them. -/
theorem Numbered.append {l₁ l₂ : List α} (h₁ : Numbered number range start l₁)
    (h₂ : Numbered number range (start + l₁.length) l₂) :
    Numbered number range start (l₁ ++ l₂) := by
  intro k a hk
  rcases Nat.lt_or_ge k l₁.length with hlt | hge
  · rw [List.getElem?_append_left hlt] at hk
    exact h₁ k a hk
  · rw [List.getElem?_append_right hge] at hk
    rw [h₂ _ a hk, Nat.add_assoc, Nat.add_sub_cancel' hge]

/-- Only the rest of the first number counts. -/
theorem Numbered.of_mod {l : List α} (h : Numbered number range (start % range) l) :
    Numbered number range start l := by
  intro k a hk
  rw [h k a hk, Nat.mod_add_mod]

/-- No number stands twice on a list that is no longer than the range. -/
theorem Numbered.nodup {l : List α} (h : Numbered number range start l)
    (hlen : l.length ≤ range) : (l.map number).Nodup := by
  refine List.pairwise_iff_getElem.mpr fun i j hi hj hij heq => ?_
  rw [List.length_map] at hi hj
  rw [List.getElem_map, List.getElem_map, h i _ (List.getElem?_eq_getElem hi),
    h j _ (List.getElem?_eq_getElem hj)] at heq
  have hmod : i % range = j % range := Nat.ModEq.add_left_cancel' start heq
  rw [Nat.mod_eq_of_lt (by omega), Nat.mod_eq_of_lt (by omega)] at hmod
  omega

end Numbered

end Ruproxy.Foundation.Counter
