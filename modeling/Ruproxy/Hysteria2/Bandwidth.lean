/-
  Hysteria2/Bandwidth.lean --- `BandwidthConfig::parse_bps` of `config.rs`.

  A bandwidth is a number with a unit, in any letter case and with spaces anywhere; the
  rate that comes out is one of bytes.  Of the four units three are scaled to bits and
  divided by eight, and `bps` is neither.  `to_lowercase` knows all of Unicode and is a
  parameter, of which only what it does to ASCII is used.
-/
import Ruproxy.Foundation.Binary64

set_option autoImplicit false

namespace Ruproxy.Hysteria2

open Ruproxy.Foundation

/-! ## The function -/

/-- `s.replace(' ', "")`. -/
def removeSpaces (s : String) : String := String.ofList (s.toList.filter (· ≠ ' '))

/-- `BandwidthConfig::parse_bps`. -/
def parseBps (toLowercase : String → String) (s : String) : Option UInt64 :=
  let s := removeSpaces (toLowercase (trim s))
  match stripSuffix "gbps" s with
  | some n => (parseF64 n).map fun v => ((v.mul 1000000000).div 8).toU64
  | none =>
      match stripSuffix "mbps" s with
      | some n => (parseF64 n).map fun v => ((v.mul 1000000).div 8).toU64
      | none =>
          match stripSuffix "kbps" s with
          | some n => (parseF64 n).map fun v => ((v.mul 1000).div 8).toU64
          | none =>
              match stripSuffix "bps" s with
              | some n => parseU64 n
              | none => none

/-- The documented behaviour of `str::to_lowercase` on ASCII. -/
def LowersAscii (toLowercase : String → String) : Prop :=
  ∀ s : String, (∀ c ∈ s.toList, c.toNat < 128) →
    toLowercase s = String.ofList (s.toList.map Char.toLower)

/-! ## Units -/

/-- The units that `parse_bps` knows. -/
inductive BpsUnit where
  | gbps
  | mbps
  | kbps
  | bps
  deriving DecidableEq

namespace BpsUnit

def suffix : BpsUnit → String
  | gbps => "gbps"
  | mbps => "mbps"
  | kbps => "kbps"
  | bps => "bps"

/-- How many bits a second the unit names. -/
def bits : BpsUnit → Nat
  | gbps => 1000000000
  | mbps => 1000000
  | kbps => 1000
  | bps => 1

/-- The factor by which `parse_bps` takes a number of the unit. -/
def factor : BpsUnit → Nat
  | gbps => 125000000
  | mbps => 125000
  | kbps => 125
  | bps => 1

end BpsUnit

/-- Up to spaces and letter case the text is the number with the unit. -/
def Says (s : String) (n : Nat) (u : BpsUnit) : Prop :=
  (s.toList.filter (· ≠ ' ')).map Char.toLower = (dec n ++ u.suffix).toList

instance (s : String) (n : Nat) (u : BpsUnit) : Decidable (Says s n u) :=
  inferInstanceAs (Decidable (_ = _))

/-! ## Spaces and letter case -/

theorem isAlphanum_of_mem {n : Nat} {u : BpsUnit} {c : Char}
    (h : c ∈ (dec n ++ u.suffix).toList) : c.isAlphanum = true := by
  rw [String.toList_append, List.mem_append] at h
  rcases h with h | h
  · rw [Char.isAlphanum, isDigit_of_mem_dec h, Bool.or_true]
  · have hsuffix : ∀ c ∈ u.suffix.toList, c.isAlphanum = true := by
      cases u <;> exact List.all_eq_true.mp (by decide)
    exact hsuffix c h

theorem isAlphanum_of_toLower {c : Char} (h : c.toLower.isAlphanum = true) :
    c.isAlphanum = true := by
  rcases hupper : c.isUpper with _ | _
  · rwa [Char.toLower_eq_of_not_isUpper (by rw [hupper]; decide)] at h
  · rw [Char.isAlphanum, Char.isAlpha, hupper]
    rfl

theorem toNat_of_isAlphanum {c : Char} (h : c.isAlphanum = true) :
    48 ≤ c.toNat ∧ c.toNat ≤ 122 := by
  simp only [Char.isAlphanum, Char.isAlpha, Char.isUpper, Char.isLower, Char.isDigit,
    Bool.or_eq_true, Bool.and_eq_true, decide_eq_true_eq, ge_iff_le, UInt32.le_iff_toNat_le] at h
  have hnat : c.toNat = c.val.toNat := rfl
  have hbounds : ('A'.val.toNat = 65 ∧ 'Z'.val.toNat = 90) ∧ ('a'.val.toNat = 97 ∧
      'z'.val.toNat = 122) ∧ '0'.val.toNat = 48 ∧ '9'.val.toNat = 57 := by decide
  omega

theorem isWhitespace_of_isAlphanum {c : Char} (h : c.isAlphanum = true) :
    isWhitespace c = false := by
  have hc := toNat_of_isAlphanum h
  simp only [isWhitespace, Bool.or_eq_false_iff, Bool.and_eq_false_iff, decide_eq_false_iff_not]
  omega

theorem toLower_ne_space {c : Char} (h : c ≠ ' ') : c.toLower ≠ ' ' := by
  rcases hupper : c.isUpper with _ | _
  · rwa [Char.toLower_eq_of_not_isUpper (by rw [hupper]; decide)]
  · intro heq
    have hlower := Char.isLower_toLower_eq_isAlpha c
    rw [heq, Char.isAlpha, hupper] at hlower
    cases hlower

/-- Leading characters of which only spaces are taken leave the other ones. -/
theorem filter_dropWhile {p : Char → Bool} {l : List Char} (h : ∀ c ∈ l, p c = true → c = ' ') :
    (l.dropWhile p).filter (· ≠ ' ') = l.filter (· ≠ ' ') := by
  induction l with
  | nil => rfl
  | cons c l ih =>
    have hl := ih fun d hd => h d (List.mem_cons_of_mem c hd)
    rw [List.dropWhile_cons]
    split
    · rename_i hp
      rw [hl, h c List.mem_cons_self hp]
      rfl
    · rfl

theorem filter_trim {s : String} (h : ∀ c ∈ s.toList, isWhitespace c = true → c = ' ') :
    (trim s).toList.filter (· ≠ ' ') = s.toList.filter (· ≠ ' ') := by
  have hmem : ∀ c ∈ (s.toList.dropWhile isWhitespace).reverse, c ∈ s.toList := fun c hc =>
    (List.dropWhile_sublist _).subset (List.mem_reverse.mp hc)
  rw [trim, trimMatches, String.toList_ofList, List.filter_reverse,
    filter_dropWhile fun c hc => h c (hmem c hc), List.filter_reverse, List.reverse_reverse,
    filter_dropWhile h]

/-- **Spaces and letter case.**  What is looked at is the number with the unit. -/
theorem normalized {toLowercase : String → String} (hlower : LowersAscii toLowercase) {s : String}
    {n : Nat} {u : BpsUnit} (h : Says s n u) :
    removeSpaces (toLowercase (trim s)) = dec n ++ u.suffix := by
  have halnum : ∀ c ∈ s.toList, c ≠ ' ' → c.isAlphanum = true := by
    intro c hc hne
    refine isAlphanum_of_toLower (@isAlphanum_of_mem n u _ ?_)
    rw [← h]
    exact List.mem_map_of_mem (List.mem_filter.mpr ⟨hc, decide_eq_true hne⟩)
  have hspace : ∀ c ∈ s.toList, isWhitespace c = true → c = ' ' := by
    intro c hc hwhite
    by_contra hne
    rw [isWhitespace_of_isAlphanum (halnum c hc hne)] at hwhite
    cases hwhite
  have hsub : ∀ c ∈ (trim s).toList, c ∈ s.toList := by
    intro c hc
    rw [trim, trimMatches, String.toList_ofList, List.mem_reverse] at hc
    have hc' := (List.dropWhile_sublist _).subset hc
    exact (List.dropWhile_sublist _).subset (List.mem_reverse.mp hc')
  have hascii : ∀ c ∈ (trim s).toList, c.toNat < 128 := by
    intro c hc
    by_cases hne : c = ' '
    · rw [hne]
      decide
    · have hbound := toNat_of_isAlphanum (halnum c (hsub c hc) hne)
      omega
  have hcomm : ((trim s).toList.map Char.toLower).filter (· ≠ ' ') =
      ((trim s).toList.filter (· ≠ ' ')).map Char.toLower := by
    rw [List.filter_map]
    refine congrArg (List.map Char.toLower) (List.filter_congr fun c _ => ?_)
    refine decide_eq_decide.mpr (not_congr ⟨fun hc => ?_, ?_⟩)
    · exact not_not.mp fun hne => toLower_ne_space hne hc
    · rintro rfl
      rfl
  apply String.toList_injective
  rw [removeSpaces, hlower _ hascii, String.toList_ofList, String.toList_ofList, hcomm,
    filter_trim hspace]
  exact h

/-! ## Which unit is found -/

/-- Another suffix of the same length is not found. -/
theorem stripSuffix_other {s suffix other : String}
    (hlen : other.toList.length = suffix.toList.length) (hne : other ≠ suffix) :
    stripSuffix other (s ++ suffix) = none := by
  refine if_neg fun h => hne ?_
  rw [String.toList_append] at h
  have hsuffix := List.suffix_of_suffix_length_le h (List.suffix_append s.toList suffix.toList)
    (Nat.le_of_eq hlen)
  exact String.toList_injective (hsuffix.eq_of_length hlen)

/-- A unit with one more letter is not found behind a number. -/
theorem stripSuffix_longer {n : Nat} {suffix longer : String} {c : Char}
    (hlonger : longer.toList = c :: suffix.toList) (hc : c.isDigit = false) :
    stripSuffix longer (dec n ++ suffix) = none := by
  refine if_neg fun h => ?_
  rw [String.toList_append, hlonger, ← List.singleton_append, List.suffix_append_self_iff] at h
  have hdigit := isDigit_of_mem_dec (h.subset List.mem_cons_self)
  rw [hc] at hdigit
  cases hdigit

/-! ## Rates -/

/-- A number is scaled to bits and divided by eight without an error. -/
theorem scaled_eq {n m : Nat} {q : ℚ} (hq : q = ((m * 8 : Nat) : ℚ)) (h : n * (m * 8) < 2 ^ 53) :
    (((F64.finite n).mul q).div 8).toU64 = UInt64.ofNat (n * m) := by
  have hassoc : n * (m * 8) = n * m * 8 := (Nat.mul_assoc n m 8).symm
  have height : (8 : ℚ) = ((8 : Nat) : ℚ) := rfl
  rw [hq, F64.mul_natCast h, hassoc, height, F64.div_natCast (by decide) (by omega),
    F64.toU64_natCast (by omega)]

/-- **Rates.**  As long as the numbers of bits are exact, every unit has its factor. -/
theorem parseBps_eq {toLowercase : String → String} (hlower : LowersAscii toLowercase)
    {s : String} {n : Nat} {u : BpsUnit} (h : Says s n u) (hn : n * u.bits < 2 ^ 53) :
    parseBps toLowercase s = some (UInt64.ofNat (n * u.factor)) := by
  have hdec : ∀ {k}, 0 < k → n * k < 2 ^ 53 → parseF64 (dec n) = some (.finite n) := by
    intro k hk hnk
    exact parseF64_dec (Nat.lt_of_le_of_lt (Nat.le_mul_of_pos_right n hk) hnk)
  unfold parseBps
  dsimp only
  rw [normalized hlower h]
  cases u with
  | gbps =>
    rw [BpsUnit.suffix, stripSuffix_append]
    dsimp only
    rw [hdec (by decide) hn, Option.map_some, scaled_eq (m := 125000000) (by norm_num) hn]
    rfl
  | mbps =>
    rw [BpsUnit.suffix, stripSuffix_other (by decide) (by decide), stripSuffix_append]
    dsimp only
    rw [hdec (by decide) hn, Option.map_some, scaled_eq (m := 125000) (by norm_num) hn]
    rfl
  | kbps =>
    rw [BpsUnit.suffix, stripSuffix_other (by decide) (by decide),
      stripSuffix_other (by decide) (by decide), stripSuffix_append]
    dsimp only
    rw [hdec (by decide) hn, Option.map_some, scaled_eq (m := 125) (by norm_num) hn]
    rfl
  | bps =>
    have hlong : ∀ c : Char, c.isDigit = false → ∀ longer : String,
        longer.toList = c :: "bps".toList → stripSuffix longer (dec n ++ "bps") = none :=
      fun c hc longer hlonger => stripSuffix_longer hlonger hc
    rw [BpsUnit.bits, Nat.mul_one] at hn
    rw [BpsUnit.suffix, hlong 'g' rfl "gbps" (by decide), hlong 'm' rfl "mbps" (by decide),
      hlong 'k' rfl "kbps" (by decide), stripSuffix_append]
    dsimp only
    rw [parseU64_dec (by omega), BpsUnit.factor, Nat.mul_one]

theorem BpsUnit.bits_le (u : BpsUnit) : u.bits ≤ 1000000000 := by
  cases u <;> decide

theorem BpsUnit.factor_le (u : BpsUnit) : u.factor ≤ 125000000 := by
  cases u <;> decide

theorem ofNat_u64_inj {a b : Nat} (ha : a < 2 ^ 64) (hb : b < 2 ^ 64) :
    (some (UInt64.ofNat a) = some (UInt64.ofNat b)) ↔ a = b := by
  rw [Option.some.injEq, ← UInt64.toNat_inj, UInt64.toNat_ofNat', UInt64.toNat_ofNat',
    Nat.mod_eq_of_lt ha, Nat.mod_eq_of_lt hb]

/-- **Units.**  For every number whose bits are exact in every unit the rate does not depend
on spaces and letter case, is the same in gbps, mbps and kbps and does not fall when the
number grows.  The rate of `n` kbps is the one of `1000 * n` bps only for `n = 0`. -/
theorem parseBps_units_iff {toLowercase : String → String} (hlower : LowersAscii toLowercase)
    {n : Nat} (hn : n * 1000000000 < 2 ^ 53) :
    (∀ u s s', Says s n u → Says s' n u → parseBps toLowercase s = parseBps toLowercase s') ∧
    (∀ s s', Says s n .gbps → Says s' (1000 * n) .mbps →
      parseBps toLowercase s = parseBps toLowercase s') ∧
    (∀ s s', Says s n .mbps → Says s' (1000 * n) .kbps →
      parseBps toLowercase s = parseBps toLowercase s') ∧
    (∀ u m s s', m ≤ n → Says s m u → Says s' n u → ∃ a b,
      parseBps toLowercase s = some a ∧ parseBps toLowercase s' = some b ∧ a ≤ b) ∧
    ∀ s s', Says s n .kbps → Says s' (1000 * n) .bps →
      (parseBps toLowercase s = parseBps toLowercase s' ↔ n = 0) := by
  have hexact : ∀ (u : BpsUnit) {m : Nat}, m ≤ n → m * u.bits < 2 ^ 53 := fun u m hm =>
    Nat.lt_of_le_of_lt (Nat.mul_le_mul hm u.bits_le) hn
  refine ⟨fun u s s' h h' => ?_, fun s s' h h' => ?_, fun s s' h h' => ?_,
    fun u m s s' hm h h' => ?_, fun s s' h h' => ?_⟩
  · rw [parseBps_eq hlower h (hexact u (Nat.le_refl n)),
      parseBps_eq hlower h' (hexact u (Nat.le_refl n))]
  · have hmbps : 1000 * n * BpsUnit.mbps.bits < 2 ^ 53 := by
      rw [Nat.mul_comm 1000, Nat.mul_assoc]
      exact hn
    have hsame : n * BpsUnit.gbps.factor = 1000 * n * BpsUnit.mbps.factor := by
      rw [Nat.mul_comm 1000, Nat.mul_assoc]
      rfl
    rw [parseBps_eq hlower h (hexact _ (Nat.le_refl n)), parseBps_eq hlower h' hmbps, hsame]
  · have hkbps : 1000 * n * BpsUnit.kbps.bits < 2 ^ 53 := by
      rw [Nat.mul_comm 1000, Nat.mul_assoc]
      exact Nat.lt_of_le_of_lt (Nat.mul_le_mul_left n (by decide)) hn
    have hsame : n * BpsUnit.mbps.factor = 1000 * n * BpsUnit.kbps.factor := by
      rw [Nat.mul_comm 1000, Nat.mul_assoc]
      rfl
    rw [parseBps_eq hlower h (hexact _ (Nat.le_refl n)), parseBps_eq hlower h' hkbps, hsame]
  · refine ⟨_, _, parseBps_eq hlower h (hexact u hm), parseBps_eq hlower h' (hexact u (Nat.le_refl n)),
      ?_⟩
    have hle : m * u.factor ≤ n * u.factor := Nat.mul_le_mul_right _ hm
    have hsmall : n * u.factor ≤ n * 125000000 := Nat.mul_le_mul_left _ u.factor_le
    rw [UInt64.le_iff_toNat_le, UInt64.toNat_ofNat', UInt64.toNat_ofNat',
      Nat.mod_eq_of_lt (by omega), Nat.mod_eq_of_lt (by omega)]
    exact hle
  · have hbps : 1000 * n * BpsUnit.bps.bits < 2 ^ 53 := by
      rw [Nat.mul_comm 1000, Nat.mul_assoc]
      exact Nat.lt_of_le_of_lt (Nat.mul_le_mul_left n (by decide)) hn
    rw [parseBps_eq hlower h (hexact _ (Nat.le_refl n)), parseBps_eq hlower h' hbps, BpsUnit.factor,
      BpsUnit.factor, ofNat_u64_inj (by omega) (by omega)]
    omega

/-- ASCII letters alone. -/
def asciiLowercase (s : String) : String := String.ofList (s.toList.map Char.toLower)

/-- Two ways to write two gigabits. -/
theorem parseBps_units_iff_two :
    parseBps asciiLowercase "2 Gbps" = parseBps asciiLowercase " 2000mbPS " :=
  (parseBps_units_iff (fun _ _ => rfl) (n := 2) (by decide)).2.1 _ _ (by decide +kernel)
    (by decide +kernel)

/-- 1 kbps and 1000 bps are not the same rate. -/
theorem not_parseBps_units :
    ¬ ∀ (toLowercase : String → String) (n : Nat), LowersAscii toLowercase →
      n * 1000000000 < 2 ^ 53 → ∀ s s', Says s n .kbps → Says s' (1000 * n) .bps →
        parseBps toLowercase s = parseBps toLowercase s' := by
  intro hall
  have hlower : LowersAscii asciiLowercase := fun _ _ => rfl
  have hkbps : Says "1 kbps" 1 .kbps := by decide +kernel
  have hbps : Says "1000 bps" (1000 * 1) .bps := by decide +kernel
  have hsame := hall asciiLowercase 1 hlower (by decide) _ _ hkbps hbps
  rw [parseBps_eq hlower hkbps (by decide), parseBps_eq hlower hbps (by decide)] at hsame
  exact absurd hsame (by decide)

end Ruproxy.Hysteria2
