/-
  Foundation/Varint.lean --- integers that carry their length in the first byte.

  The two top bits of the first byte select how many bytes follow, its six other bits are
  the most significant ones of the value, and the bytes that follow are the rest of it in
  big-endian order.  How many bytes a class stands for is a parameter `extra`: QUIC has
  `2 ^ k - 1` of them, and `varint_eq_varint_iff` says on which inputs two choices agree.
-/
import Ruproxy.Foundation.Bytes

set_option autoImplicit false

namespace Ruproxy.Foundation

/-! ## Big-endian digits -/

/-- The number whose most significant part is `hi` and whose last digits are `b`. -/
def beNat (hi : Nat) (b : Bytes) : Nat := b.foldl (fun n x => n * 256 + x.toNat) hi

@[simp] theorem beNat_nil (hi : Nat) : beNat hi [] = hi := rfl

@[simp] theorem beNat_cons (hi : Nat) (x : UInt8) (b : Bytes) :
    beNat hi (x :: b) = beNat (hi * 256 + x.toNat) b := rfl

/-- The digits behind the most significant part. -/
theorem beNat_eq_add (hi : Nat) (b : Bytes) : beNat hi b = hi * 256 ^ b.length + beNat 0 b := by
  induction b generalizing hi with
  | nil => simp
  | cons x b ih =>
    rw [beNat_cons, beNat_cons, ih, ih (0 * 256 + x.toNat), List.length_cons, Nat.pow_succ]
    ring

theorem beNat_zero_lt (b : Bytes) : beNat 0 b < 256 ^ b.length := by
  induction b with
  | nil => simp
  | cons x b ih =>
    have hx := x.toNat_lt
    rw [beNat_cons, beNat_eq_add, List.length_cons, Nat.pow_succ']
    calc (0 * 256 + x.toNat) * 256 ^ b.length + beNat 0 b
        < (0 * 256 + x.toNat + 1) * 256 ^ b.length := by rw [Nat.succ_mul]; omega
      _ ≤ 256 * 256 ^ b.length := Nat.mul_le_mul_right _ (by omega)

theorem beNat_u16ToBe (v : UInt16) : beNat 0 (u16ToBe v) = v.toNat := by
  have hv := v.toNat_lt
  simp only [u16ToBe, beNat_cons, beNat_nil, UInt8.toNat_ofNat']
  omega

theorem beNat_u32ToBe (v : UInt32) : beNat 0 (u32ToBe v) = v.toNat := by
  have hv := v.toNat_lt
  simp only [u32ToBe, beNat_cons, beNat_nil, UInt8.toNat_ofNat']
  omega

theorem beNat_u64ToBe (v : UInt64) : beNat 0 (u64ToBe v) = v.toNat := by
  obtain ⟨b, hb⟩ := exists_toList_eq (u64ToBe_length v)
  have hlt : beNat 0 b.toList < 256 ^ 8 := by
    have := beNat_zero_lt b.toList
    rwa [Vector.length_toList] at this
  rw [← hb, ← u64OfBe_eq_iff.mpr hb, u64OfBe, UInt64.toNat_ofNat']
  exact (Nat.mod_eq_of_lt hlt).symm

/-- An exact read byte by byte. -/
theorem readExact_succ_cons (n : Nat) (x : UInt8) (s : Bytes) :
    readExact (n + 1) (x :: s) = (readExact n s).map fun r => (x :: r.1, r.2) := by
  rw [readExact, readExact, List.length_cons]
  by_cases hle : n ≤ s.length
  · rw [if_pos hle, if_pos (Nat.succ_le_succ hle)]
    rfl
  · rw [if_neg hle, if_neg fun h => hle (Nat.le_of_succ_le_succ h)]
    rfl

/-! ## Bits of machine integers as arithmetic -/

theorem toNat_shiftRight_six (b : UInt8) : (b >>> 6).toNat = b.toNat / 64 := by
  rw [UInt8.toNat_shiftRight, Nat.shiftRight_eq_div_pow]
  rfl

theorem toNat_and_63 (b : UInt8) : (b &&& 0x3f).toUInt64.toNat = b.toNat % 64 := by
  rw [UInt8.toNat_toUInt64, UInt8.toNat_and]
  exact Nat.and_two_pow_sub_one_eq_mod _ 6

/-- Shifting a byte in is a digit more, as long as no bit is shifted out. -/
theorem toNat_shiftIn {val : UInt64} (b : UInt8) (h : val.toNat < 2 ^ 56) :
    ((val <<< 8) ||| b.toUInt64).toNat = val.toNat * 256 + b.toNat := by
  have hmod : (8 : UInt64).toNat % 64 = 8 := rfl
  rw [UInt64.toNat_or, UInt64.toNat_shiftLeft, UInt8.toNat_toUInt64, hmod, Nat.shiftLeft_eq,
    Nat.mod_eq_of_lt (by omega), Nat.mul_comm,
    ← Nat.two_pow_add_eq_or_of_lt (i := 8) b.toNat_lt, Nat.mul_comm]

/-! ## The format -/

section

variable (extra : Nat → Nat)

/-- `b` is an encoding of `n`. -/
def IsVarint (b : Bytes) (n : Nat) : Prop :=
  ∃ first more, b = first :: more ∧ more.length = extra (first.toNat / 64) ∧
    beNat (first.toNat % 64) more = n

/-- The integer at the front of a byte string, and what follows it. -/
def varint : Bytes → Option (Nat × Bytes)
  | [] => none
  | first :: s =>
      (readExact (extra (first.toNat / 64)) s).map fun r => (beNat (first.toNat % 64) r.1, r.2)

end

variable {extra extra' : Nat → Nat} {b s rest : Bytes} {n : Nat}

theorem IsVarint.ne_nil (h : IsVarint extra b n) : b ≠ [] := by
  obtain ⟨first, more, rfl, -, -⟩ := h
  exact List.cons_ne_nil first more

theorem IsVarint.varint_append (h : IsVarint extra b n) (rest : Bytes) :
    varint extra (b ++ rest) = some (n, rest) := by
  obtain ⟨first, more, rfl, hlen, rfl⟩ := h
  rw [List.cons_append, varint, readExact_append hlen, Option.map_some]

/-- Bytes are an encoding of `n` of class `k` if they are, as one integer, the class in the
two top bits and `n` in the others. -/
theorem isVarint_of_beNat {first : UInt8} {more : Bytes} {k m : Nat}
    (hextra : extra k = m) (hlen : more.length = m) (hn : n < 64 * 256 ^ m)
    (hval : beNat 0 (first :: more) = k * 64 * 256 ^ m + n) :
    first.toNat / 64 = k ∧ IsVarint extra (first :: more) n := by
  subst hlen
  have hlt := beNat_zero_lt more
  rw [beNat_cons, beNat_eq_add, Nat.zero_mul, Nat.zero_add] at hval
  have hfirst : first.toNat = k * 64 + n / 256 ^ more.length := by
    have hpos : 0 < 256 ^ more.length := Nat.pow_pos (by decide)
    rw [← Nat.mul_add_div hpos, Nat.mul_comm _ (k * 64), ← hval,
      Nat.add_comm, Nat.add_mul_div_right _ _ hpos, Nat.div_eq_of_lt hlt, Nat.zero_add]
  have hdiv : n / 256 ^ more.length < 64 :=
    (Nat.div_lt_iff_lt_mul (Nat.pow_pos (by decide))).mpr hn
  have hclass : first.toNat / 64 = k := by
    rw [hfirst, Nat.add_comm, Nat.add_mul_div_right _ _ (by decide), Nat.div_eq_of_lt hdiv,
      Nat.zero_add]
  have hlow : first.toNat % 64 = n / 256 ^ more.length := by
    rw [hfirst, Nat.mul_add_mod', Nat.mod_eq_of_lt hdiv]
  refine ⟨hclass, first, more, rfl, by rw [hclass, hextra], ?_⟩
  rw [beNat_eq_add, hlow]
  rw [hfirst, Nat.add_mul] at hval
  omega

/-- What is read is an encoding at the front of the string. -/
theorem varint_eq_some :
    varint extra s = some (n, rest) ↔ ∃ b, s = b ++ rest ∧ IsVarint extra b n := by
  constructor
  · intro h
    cases s with
    | nil => cases h
    | cons first s =>
      obtain ⟨⟨more, r⟩, hread, heq⟩ := Option.map_eq_some_iff.mp h
      obtain ⟨rfl, hlen⟩ := readExact_eq_some.mp hread
      obtain ⟨rfl, rfl⟩ := Prod.mk.inj heq
      exact ⟨first :: more, rfl, first, more, rfl, hlen, rfl⟩
  · rintro ⟨b, rfl, hb⟩
    exact hb.varint_append rest

/-- A string starts with at most one encoding. -/
theorem IsVarint.unique {b' rest' : Bytes} {n' : Nat} (h : IsVarint extra b n)
    (h' : IsVarint extra b' n') (heq : b ++ rest = b' ++ rest') : n = n' ∧ rest = rest' := by
  have hread := h'.varint_append rest'
  rw [← heq, h.varint_append rest] at hread
  exact Prod.mk.inj (Option.some.inj hread)

/-- **Agreement.**  Two choices of the lengths give the same result exactly on the empty
string, where the first byte is of a class that has the same length in both, and where the
string ends before either is satisfied. -/
theorem varint_eq_varint_iff :
    varint extra s = varint extra' s ↔ ∀ first more, s = first :: more →
      extra (first.toNat / 64) = extra' (first.toNat / 64) ∨
        more.length < extra (first.toNat / 64) ∧ more.length < extra' (first.toNat / 64) := by
  cases s with
  | nil => simp [varint]
  | cons first s =>
    generalize hk : extra (first.toNat / 64) = k
    generalize hk' : extra' (first.toNat / 64) = k'
    have hread : varint extra (first :: s) = varint extra' (first :: s) ↔
        k = k' ∨ s.length < k ∧ s.length < k' := by
      rw [varint, varint, hk, hk', readExact, readExact]
      by_cases hle : k ≤ s.length
      · by_cases hle' : k' ≤ s.length
        · rw [if_pos hle, if_pos hle']
          constructor
          · intro h
            -- what is left has `k` bytes less on one side and `k'` on the other
            have hrest : (s.drop k).length = (s.drop k').length :=
              congrArg List.length (Prod.mk.inj (Option.some.inj h)).2
            rw [List.length_drop, List.length_drop] at hrest
            omega
          · rintro (rfl | h)
            · rfl
            · omega
        · rw [if_pos hle, if_neg hle']
          exact iff_of_false (by simp) (by omega)
      · by_cases hle' : k' ≤ s.length
        · rw [if_neg hle, if_pos hle']
          exact iff_of_false (by simp) (by omega)
        · rw [if_neg hle, if_neg hle']
          exact iff_of_true rfl (by omega)
    rw [hread]
    constructor
    · rintro h first' more heq
      obtain ⟨rfl, rfl⟩ := List.cons.inj heq
      rwa [hk, hk']
    · intro h
      have := h first s rfl
      rwa [hk, hk'] at this

end Ruproxy.Foundation
