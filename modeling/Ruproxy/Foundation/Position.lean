/-
  Foundation/Position.lean --- byte strings that stand at a position of another.

  A parser that moves a cursor reads one field after another; a grammar writes the
  fields one behind the other.  `StandsAt` connects the two: that a whole encoding
  stands at a position splits, by `standsAt_append`, into what the parser reads.
-/
import Ruproxy.Foundation.Outcome

set_option autoImplicit false

namespace Ruproxy.Foundation

open Outcome

/-- The bytes `b` stand in `h` from position `i` on. -/
def StandsAt (h : Bytes) (i : Nat) (b : Bytes) : Prop := b <+: h.drop i

theorem standsAt_zero {h b : Bytes} : StandsAt h 0 b ↔ b <+: h := Iff.rfl

@[simp] theorem standsAt_nil (h : Bytes) (i : Nat) : StandsAt h i [] := List.nil_prefix

/-- What stands at a position ends inside the string. -/
theorem StandsAt.le_length {h b : Bytes} {i : Nat} (hat : StandsAt h i b)
    (hi : i ≤ h.length) : i + b.length ≤ h.length := by
  have hle := List.IsPrefix.length_le hat
  rw [List.length_drop] at hle
  omega

theorem StandsAt.le_length_of_ne_nil {h b : Bytes} {i : Nat} (hat : StandsAt h i b)
    (hb : b ≠ []) : i + b.length ≤ h.length := by
  have hle := List.IsPrefix.length_le hat
  have hpos := List.length_pos_iff.mpr hb
  rw [List.length_drop] at hle
  omega

/-- **Fields.**  One byte string behind another stands where each of them does. -/
theorem standsAt_append {h a b : Bytes} {i : Nat} :
    StandsAt h i (a ++ b) ↔ StandsAt h i a ∧ StandsAt h (i + a.length) b := by
  unfold StandsAt
  constructor
  · rintro ⟨t, ht⟩
    rw [List.append_assoc] at ht
    refine ⟨⟨b ++ t, ht⟩, ⟨t, ?_⟩⟩
    rw [← List.drop_drop, ← ht, List.drop_left]
  · rintro ⟨⟨s, hs⟩, ⟨t, ht⟩⟩
    rw [← List.drop_drop, ← hs, List.drop_left] at ht
    exact ⟨t, by rw [List.append_assoc, ht, hs]⟩

theorem standsAt_cons {h b : Bytes} {i : Nat} {x : UInt8} :
    StandsAt h i (x :: b) ↔ h[i]? = some x ∧ StandsAt h (i + 1) b := by
  have hone : StandsAt h i [x] ↔ h[i]? = some x := by
    unfold StandsAt
    rw [← List.head?_drop]
    cases h.drop i with
    | nil => simp
    | cons y t => simp [eq_comm]
  rw [← hone]
  exact @standsAt_append h [x] b i

/-- What stands at a position ends as it does. -/
theorem StandsAt.drop {h b : Bytes} {i : Nat} (hat : StandsAt h i b) {n : Nat}
    (hn : n ≤ b.length) : StandsAt h (i + n) (b.drop n) := by
  rw [← List.take_append_drop n b, standsAt_append, List.length_take_of_le hn] at hat
  exact hat.2

/-- The bytes up to the end of what stands at the start. -/
theorem take_of_standsAt {h b : Bytes} (hat : StandsAt h 0 b) : h.take b.length = b :=
  (List.prefix_iff_eq_take.mp (standsAt_zero.mp hat)).symm

/-- A slice is what stands at its position. -/
theorem slice_eq_ok_iff_standsAt {ε : Type} {h c : Bytes} {i n : Nat} (hi : i ≤ h.length) :
    (slice h i (i + n) : Outcome ε Bytes) = ok c ↔ c.length = n ∧ StandsAt h i c := by
  rw [slice_eq_ok, Nat.add_sub_cancel_left]
  constructor
  · rintro ⟨⟨-, hle⟩, rfl⟩
    exact ⟨by rw [List.length_take, List.length_drop]; omega, List.take_prefix _ _⟩
  · rintro ⟨rfl, hat⟩
    exact ⟨⟨Nat.le_add_right _ _, hat.le_length hi⟩, (List.prefix_iff_eq_take.mp hat).symm⟩

/-- The slice of what stands at a position. -/
theorem slice_of_standsAt {ε : Type} {h b : Bytes} {i : Nat} (hi : i ≤ h.length)
    (hat : StandsAt h i b) : (slice h i (i + b.length) : Outcome ε Bytes) = ok b :=
  (slice_eq_ok_iff_standsAt hi).mpr ⟨rfl, hat⟩

/-- An integer of two bytes is read where it stands. -/
theorem index_u16_of_standsAt {ε : Type} {h : Bytes} {i : Nat} {v : UInt16}
    (hat : StandsAt h i (u16ToBe v)) :
    ∃ a b, (index h i : Outcome ε UInt8) = ok a ∧ (index h (i + 1) : Outcome ε UInt8) = ok b ∧
      u16OfBe a b = v := by
  obtain ⟨a, b, hv, hab⟩ := u16ToBe_append v []
  rw [List.append_nil] at hv
  rw [hv, standsAt_cons, standsAt_cons] at hat
  exact ⟨a, b, index_eq_ok.mpr hat.1, index_eq_ok.mpr hat.2.1, hab⟩

/-- **Arrays.**  What comes behind an array read from a slice goes on with the array that
stands there; `conv` is what the source makes of a slice of another length. -/
theorem readArray_eq_ok {ε α : Type} {h : Bytes} {i n : Nat} (hi : i ≤ h.length)
    {conv : Option (Vector UInt8 n) → Outcome ε (Vector UInt8 n)}
    (hconv : ∀ o v, conv o = ok v ↔ o = some v) {f : Vector UInt8 n → Outcome ε α} {a : α} :
    (slice h i (i + n) >>= fun c => conv (tryInto n c) >>= f) = ok a ↔
      ∃ v : Vector UInt8 n, StandsAt h i v.toList ∧ f v = ok a := by
  constructor
  · intro hread
    obtain ⟨c, hc, hread⟩ := bind_eq_ok.mp hread
    obtain ⟨v, hv, hread⟩ := bind_eq_ok.mp hread
    refine ⟨v, ?_, hread⟩
    rw [tryInto_eq_some.mp ((hconv _ _).mp hv)]
    exact ((slice_eq_ok_iff_standsAt hi).mp hc).2
  · rintro ⟨v, hat, hf⟩
    rw [(slice_eq_ok_iff_standsAt hi).mpr ⟨v.length_toList, hat⟩, ok_bind,
      (hconv _ _).mpr (tryInto_eq_some.mpr rfl), ok_bind]
    exact hf

end Ruproxy.Foundation
