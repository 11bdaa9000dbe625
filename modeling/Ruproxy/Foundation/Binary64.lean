/-
  Foundation/Binary64.lean --- binary floating-point numbers of 64 bits.

  A finite number is the rational number that it stands for; the sign of a zero is left
  out.  An operation computes its exact result and rounds it to the nearest number with 53
  bits, to the even one of two.  Natural numbers below `2^53` are not changed by that.
-/
import Ruproxy.Foundation.Text

set_option autoImplicit false

namespace Ruproxy.Foundation

/-! ## Rounding -/

/-- The nearest integer, the even one of two. -/
def roundEven (x : ℚ) : ℤ :=
  let k := ⌊x⌋
  if x - k < 1 / 2 then k
  else if 1 / 2 < x - k then k + 1
  else k + k % 2

/-- The exponent of the last bit of a number next to `q`. -/
def lastBit (q : ℚ) : ℤ := max (Int.log 2 |q| - 52) (-1074)

/-- `f64`. -/
inductive F64 where
  | nan
  | inf (neg : Bool)
  | finite (q : ℚ)
  deriving DecidableEq

namespace F64

/-- The number next to `q`. -/
def ofRat (q : ℚ) : F64 :=
  let r : ℚ := roundEven (q / 2 ^ lastBit q) * 2 ^ lastBit q
  if 2 ^ 1024 ≤ |r| then .inf (q < 0) else .finite r

/-- `x * q` for a positive number `q`. -/
def mul (x : F64) (q : ℚ) : F64 :=
  match x with
  | .nan => .nan
  | .inf neg => .inf neg
  | .finite p => ofRat (p * q)

/-- `x / q` for a positive number `q`. -/
def div (x : F64) (q : ℚ) : F64 :=
  match x with
  | .nan => .nan
  | .inf neg => .inf neg
  | .finite p => ofRat (p / q)

/-- `x as u64`. -/
def toU64 : F64 → UInt64
  | .nan => 0
  | .inf neg => if neg then 0 else UInt64.ofNat (2 ^ 64 - 1)
  | .finite q => UInt64.ofNat (min ⌊q⌋₊ (2 ^ 64 - 1))

end F64

theorem roundEven_intCast (k : ℤ) : roundEven (k : ℚ) = k := by
  have hhalf : (k : ℚ) - k < 1 / 2 := by
    rw [sub_self]
    norm_num
  unfold roundEven
  dsimp only
  rw [Int.floor_intCast, if_pos hhalf]

/-- The last bit of a natural number below `2^53` counts ones or less. -/
theorem lastBit_natCast {n : ℕ} (hpos : 0 < n) (hn : n < 2 ^ 53) :
    ∃ j : ℕ, lastBit n = -j := by
  have hlog : Nat.log 2 n < 53 := Nat.log_lt_of_lt_pow (Nat.ne_of_gt hpos) hn
  refine ⟨52 - Nat.log 2 n, ?_⟩
  rw [lastBit, Nat.abs_cast, Int.log_natCast]
  omega

/-- **Exactness.**  Natural numbers below `2^53` are numbers. -/
theorem F64.ofRat_natCast {n : ℕ} (hn : n < 2 ^ 53) : F64.ofRat n = .finite n := by
  have hround : (roundEven ((n : ℚ) / 2 ^ lastBit n) : ℚ) * 2 ^ lastBit n = n := by
    rcases Nat.eq_zero_or_pos n with rfl | hpos
    · rw [Nat.cast_zero, zero_div]
      have hzero := roundEven_intCast 0
      rw [Int.cast_zero] at hzero
      rw [hzero, Int.cast_zero, zero_mul]
    · obtain ⟨j, hj⟩ := lastBit_natCast hpos hn
      have hscaled : (n : ℚ) / 2 ^ lastBit (n : ℚ) = ((n * 2 ^ j : ℕ) : ℤ) := by
        rw [hj, zpow_neg, zpow_natCast, div_inv_eq_mul]
        push_cast
        rfl
      rw [hscaled, roundEven_intCast, hj, zpow_neg, zpow_natCast]
      push_cast
      exact mul_inv_cancel_right₀ (by positivity) _
  have hsmall : ¬ (2 ^ 1024 : ℚ) ≤ |(n : ℚ)| := by
    have hlt : (n : ℚ) < 2 ^ 1024 := by
      exact_mod_cast Nat.lt_trans hn (Nat.pow_lt_pow_right (by decide) (by decide))
    rw [Nat.abs_cast]
    exact not_le.mpr hlt
  unfold F64.ofRat
  rw [hround]
  exact if_neg hsmall

theorem F64.mul_natCast {n k : ℕ} (h : n * k < 2 ^ 53) :
    F64.mul (.finite n) k = .finite (n * k : ℕ) := by
  rw [F64.mul, ← Nat.cast_mul, F64.ofRat_natCast h]

theorem F64.div_natCast {n k : ℕ} (hk : 0 < k) (h : n < 2 ^ 53) :
    F64.div (.finite (n * k : ℕ)) k = .finite n := by
  rw [F64.div, Nat.cast_mul, mul_div_cancel_right₀ _ (by positivity), F64.ofRat_natCast h]

theorem F64.toU64_natCast {n : ℕ} (h : n < 2 ^ 53) : F64.toU64 (.finite n) = UInt64.ofNat n := by
  rw [F64.toU64, Nat.floor_natCast, Nat.min_eq_left (by omega)]

/-! ## Reading -/

/-- An optional sign, and whether it is a minus. -/
def takeSign : List Char → Bool × List Char
  | [] => (false, [])
  | c :: l => if c = '-' then (true, l) else if c = '+' then (false, l) else (false, c :: l)

/-- `Exp?` in the grammar of `f64::from_str`. -/
def parseExponent : List Char → Option ℤ
  | [] => some 0
  | c :: l =>
      let (neg, digits) := takeSign l
      if c = 'e' ∧ digits ≠ [] ∧ digits.all Char.isDigit then
        let e : ℤ := Nat.ofDigitChars 10 digits 0
        some (if neg then -e else e)
      else none

/-- `Number` in the grammar of `f64::from_str`: digits before or behind a point, and an
exponent. -/
def parseDecimal (l : List Char) : Option ℚ :=
  let whole := l.takeWhile Char.isDigit
  let rest := l.dropWhile Char.isDigit
  let point := rest.head? = some '.'
  let fraction := if point then rest.tail.takeWhile Char.isDigit else []
  let rest := if point then rest.tail.dropWhile Char.isDigit else rest
  if whole ++ fraction = [] then none
  else (parseExponent rest).map fun e : ℤ =>
    (Nat.ofDigitChars 10 (whole ++ fraction) 0 : ℚ) * 10 ^ (e - fraction.length)

/-- `str::parse::<f64>`. -/
def parseF64 (s : String) : Option F64 :=
  let (neg, l) := takeSign s.toList
  let l := l.map Char.toLower
  if l = "inf".toList ∨ l = "infinity".toList then some (.inf neg)
  else if l = "nan".toList then some .nan
  else (parseDecimal l).map fun q => F64.ofRat (if neg then -q else q)

theorem toLower_of_isDigit {c : Char} (h : c.isDigit = true) : c.toLower = c := by
  refine Char.toLower_eq_of_not_isUpper fun hupper => ?_
  simp only [Char.isDigit, Char.isUpper, Bool.and_eq_true, decide_eq_true_eq, ge_iff_le] at h hupper
  exact absurd (UInt32.le_trans hupper.1 h.2) (by decide)

theorem parseDecimal_toDigits (n : ℕ) : parseDecimal (Nat.toDigits 10 n) = some (n : ℚ) := by
  have hdigit : ∀ c ∈ Nat.toDigits 10 n, c.isDigit = true :=
    fun c hc => Nat.isDigit_of_mem_toDigits (by decide) (by decide) hc
  have htake : (Nat.toDigits 10 n).takeWhile Char.isDigit = Nat.toDigits 10 n :=
    List.takeWhile_eq_self_iff.mpr hdigit
  have hdrop : (Nat.toDigits 10 n).dropWhile Char.isDigit = [] :=
    List.dropWhile_eq_nil_iff.mpr hdigit
  simp [parseDecimal, htake, hdrop, parseExponent, Nat.toDigits_ne_nil]

/-- **Reading.**  The decimal format of a natural number below `2^53` is read as that
number. -/
theorem parseF64_dec {n : ℕ} (hn : n < 2 ^ 53) : parseF64 (dec n) = some (.finite n) := by
  have hdigit : ∀ c ∈ (dec n).toList, c.isDigit = true := fun c hc => isDigit_of_mem_dec hc
  have hlist : (dec n).toList = Nat.toDigits 10 n := String.toList_ofList
  have hsign : takeSign (dec n).toList = (false, (dec n).toList) := by
    cases hl : (dec n).toList with
    | nil => rfl
    | cons c l =>
      have hc := hdigit c (hl ▸ List.mem_cons_self)
      have hminus : c ≠ '-' := by
        rintro rfl
        cases hc
      have hplus : c ≠ '+' := by
        rintro rfl
        cases hc
      rw [takeSign, if_neg hminus, if_neg hplus]
  have hlower : (dec n).toList.map Char.toLower = (dec n).toList := by
    rw [List.map_congr_left fun c hc => toLower_of_isDigit (hdigit c hc), List.map_id']
  have hword : ∀ w : List Char, 'n' ∈ w → (dec n).toList ≠ w := by
    rintro w hn rfl
    cases hdigit 'n' hn
  have hinf : ¬ ((dec n).toList = "inf".toList ∨ (dec n).toList = "infinity".toList) :=
    not_or.mpr ⟨hword _ (by decide), hword _ (by decide)⟩
  unfold parseF64
  rw [hsign]
  dsimp only
  rw [hlower, if_neg hinf, if_neg (hword "nan".toList (by decide)), hlist, parseDecimal_toDigits,
    Option.map_some, if_neg (by decide), F64.ofRat_natCast hn]

end Ruproxy.Foundation
