/-
  Foundation/HexText.lean --- slices of a text by byte offsets, and hexadecimal digits.

  A slice `&s[i..j]` counts bytes and panics where an offset stands inside a character.
  `u8::from_str_radix` reads digits with a `+` in front or without one, so there are texts
  that it reads but that are not digits alone: `Spells` is the relation of the digits,
  `Reads` that of the reader, pair by pair.
-/
import Ruproxy.Foundation.AddrParse
import Ruproxy.Foundation.Outcome

set_option autoImplicit false

namespace Ruproxy.Foundation

open Outcome

/-! ## Slices -/

/-- The length of characters in UTF-8. -/
def byteLen (l : List Char) : Nat := (l.map Char.utf8Size).sum

@[simp] theorem byteLen_nil : byteLen [] = 0 := rfl

@[simp] theorem byteLen_cons (c : Char) (l : List Char) :
    byteLen (c :: l) = c.utf8Size + byteLen l := rfl

@[simp] theorem byteLen_append (l₁ l₂ : List Char) :
    byteLen (l₁ ++ l₂) = byteLen l₁ + byteLen l₂ := by
  rw [byteLen, List.map_append, List.sum_append]
  rfl

/-- `str::split_at`, `none` where the offset stands inside a character or behind the end. -/
def splitAtByte : Nat → List Char → Option (List Char × List Char)
  | 0, l => some ([], l)
  | _ + 1, [] => none
  | i + 1, c :: l =>
      if c.utf8Size ≤ i + 1 then
        (splitAtByte (i + 1 - c.utf8Size) l).map fun p => (c :: p.1, p.2)
      else none

/-- `&s[i..j]`. -/
def strSlice {ε : Type} (s : String) (i j : Nat) : Outcome ε String :=
  if i ≤ j then
    unwrap do
      let (_, fromI) ← splitAtByte i s.toList
      let (chars, _) ← splitAtByte (j - i) fromI
      return String.ofList chars
  else panic

/-- An offset between two characters splits the text there. -/
theorem splitAtByte_append (l₁ l₂ : List Char) :
    splitAtByte (byteLen l₁) (l₁ ++ l₂) = some (l₁, l₂) := by
  induction l₁ with
  | nil => rw [byteLen_nil, splitAtByte, List.nil_append]
  | cons c l₁ ih =>
    have hpos := c.utf8Size_pos
    obtain ⟨i, hi⟩ : ∃ i, byteLen (c :: l₁) = i + 1 := by
      refine ⟨c.utf8Size - 1 + byteLen l₁, ?_⟩
      rw [byteLen_cons]
      omega
    have hrest : i + 1 - c.utf8Size = byteLen l₁ := by
      rw [← hi, byteLen_cons]
      omega
    have hle : c.utf8Size ≤ i + 1 := by
      rw [← hi, byteLen_cons]
      omega
    rw [hi, List.cons_append, splitAtByte, if_pos hle, hrest, ih]
    rfl

/-- An offset inside a character splits nothing. -/
theorem splitAtByte_inside {l₁ l₂ : List Char} {c : Char} {i : Nat} (hlo : byteLen l₁ < i)
    (hhi : i < byteLen l₁ + c.utf8Size) : splitAtByte i (l₁ ++ c :: l₂) = none := by
  induction l₁ generalizing i with
  | nil =>
    rw [byteLen_nil] at hlo hhi
    obtain ⟨i, rfl⟩ := Nat.exists_eq_add_of_lt hlo
    rw [List.nil_append, show 0 + i + 1 = i + 1 by omega, splitAtByte, if_neg (by omega)]
  | cons d l₁ ih =>
    rw [byteLen_cons] at hlo hhi
    obtain ⟨i, rfl⟩ := Nat.exists_eq_succ_of_ne_zero (Nat.ne_of_gt (Nat.zero_lt_of_lt hlo))
    rw [List.cons_append, splitAtByte, if_pos (by omega), ih (by omega) (by omega)]
    rfl

/-- The characters between two offsets. -/
theorem strSlice_eq_ok {ε : Type} {s : String} {pre post : List Char} (mid : List Char)
    (hs : s.toList = pre ++ (mid ++ post)) {i j : Nat} (hi : byteLen pre = i)
    (hj : i + byteLen mid = j) :
    (strSlice s i j : Outcome ε String) = ok (String.ofList mid) := by
  subst hi hj
  rw [strSlice, if_pos (Nat.le_add_right _ _), hs, splitAtByte_append, Nat.add_sub_cancel_left]
  show unwrap ((splitAtByte (byteLen mid) (mid ++ post)).bind _) = _
  rw [splitAtByte_append]
  rfl

/-- The second offset stands inside a character. -/
theorem strSlice_eq_panic {ε : Type} {s : String} {pre mid post : List Char} {c : Char}
    (hs : s.toList = pre ++ (mid ++ c :: post)) {i j : Nat} (hi : byteLen pre = i)
    (hlo : i + byteLen mid < j) (hhi : j < i + byteLen mid + c.utf8Size) :
    (strSlice s i j : Outcome ε String) = panic := by
  subst hi
  rw [strSlice, if_pos (by omega), hs, splitAtByte_append]
  show unwrap ((splitAtByte (j - byteLen pre) (mid ++ c :: post)).bind _) = _
  rw [splitAtByte_inside (by omega) (by omega)]
  rfl

theorem utf8ByteSize_eq (s : String) : s.utf8ByteSize = byteLen s.toList := by
  have key : ∀ l : List Char, (String.ofList l).utf8ByteSize = byteLen l := by
    intro l
    induction l with
    | nil => rfl
    | cons c l ih =>
      have hcons : String.ofList (c :: l) = String.singleton c ++ String.ofList l := by
        apply String.toList_injective
        simp
      rw [hcons, String.utf8ByteSize_append, String.utf8ByteSize_singleton, ih, byteLen_cons]
  simpa using key s.toList

/-! ## Numbers -/

/-- The digits behind a `+`, where there is one. -/
def stripPlus : List Char → List Char
  | [] => []
  | c :: l => if c = '+' then l else c :: l

/-- `u8::from_str_radix`: an optional `+`, then digits of a value below `2^8`. -/
def fromStrRadixU8 (radix : Nat) (s : String) : Option UInt8 :=
  let digits := stripPlus s.toList
  let value := digits.foldl (fun n c => n * radix + (toDigit radix c).getD 0) 0
  if digits ≠ [] ∧ digits.all (fun c => (toDigit radix c).isSome) ∧ value < 256 then
    some (UInt8.ofNat value)
  else none

theorem toDigit_lt {radix n : Nat} {c : Char} (h : toDigit radix c = some n) : n < radix := by
  obtain ⟨-, hlt⟩ := Option.filter_eq_some_iff.mp h
  exact of_decide_eq_true hlt

/-- A digit is a character of one byte. -/
theorem toDigit_utf8Size {radix n : Nat} {c : Char} (h : toDigit radix c = some n) :
    c.utf8Size = 1 := by
  have hascii : c ≤ 'z' := by
    obtain ⟨hdigit, -⟩ := Option.filter_eq_some_iff.mp h
    split at hdigit
    · rename_i hc
      exact Char.le_trans hc.2 (by decide)
    split at hdigit
    · rename_i hc
      exact hc.2
    split at hdigit
    · rename_i hc
      exact Char.le_trans hc.2 (by decide)
    · cases hdigit
  have hle : c.val ≤ 'z'.val := hascii
  exact Char.utf8Size_eq_one_iff.mpr (UInt32.le_trans hle (by decide))

/-! ## Pairs -/

/-- The characters are the hexadecimal digits of the bytes, two for each. -/
inductive Spells : List Char → Bytes → Prop where
  | nil : Spells [] []
  | pair {c d : Char} {h l : Nat} {cs : List Char} {bs : Bytes} (hc : toDigit 16 c = some h)
      (hd : toDigit 16 d = some l) (hcs : Spells cs bs) :
      Spells (c :: d :: cs) (UInt8.ofNat (16 * h + l) :: bs)

/-- Two characters at a time, `u8::from_str_radix` reads the bytes. -/
inductive Reads : List Char → Bytes → Prop where
  | nil : Reads [] []
  | pair {c d : Char} {h l : Nat} {cs : List Char} {bs : Bytes} (hc : toDigit 16 c = some h)
      (hd : toDigit 16 d = some l) (hcs : Reads cs bs) :
      Reads (c :: d :: cs) (UInt8.ofNat (16 * h + l) :: bs)
  | plus {d : Char} {l : Nat} {cs : List Char} {bs : Bytes} (hd : toDigit 16 d = some l)
      (hcs : Reads cs bs) : Reads ('+' :: d :: cs) (UInt8.ofNat l :: bs)

theorem fromStrRadixU8_digits {c d : Char} {h l : Nat} (hc : toDigit 16 c = some h)
    (hd : toDigit 16 d = some l) :
    fromStrRadixU8 16 (String.ofList [c, d]) = some (UInt8.ofNat (16 * h + l)) := by
  have hplus : c ≠ '+' := by
    rintro rfl
    cases hc
  have hh := toDigit_lt hc
  have hl := toDigit_lt hd
  have hvalue : h * 16 + l = 16 * h + l := by rw [Nat.mul_comm]
  simp only [fromStrRadixU8, String.toList_ofList, stripPlus, if_neg hplus, List.foldl_cons,
    List.foldl_nil, List.all_cons, List.all_nil, hc, hd, Option.getD_some, Option.isSome_some,
    Nat.zero_mul, Nat.zero_add, hvalue]
  exact if_pos ⟨List.cons_ne_nil _ _, rfl, by omega⟩

theorem fromStrRadixU8_plus {d : Char} {l : Nat} (hd : toDigit 16 d = some l) :
    fromStrRadixU8 16 (String.ofList ['+', d]) = some (UInt8.ofNat l) := by
  have hl := toDigit_lt hd
  simp only [fromStrRadixU8, String.toList_ofList, stripPlus, if_true, List.foldl_cons,
    List.foldl_nil, List.all_cons, List.all_nil, hd, Option.getD_some, Option.isSome_some,
    Nat.zero_mul, Nat.zero_add]
  exact if_pos ⟨List.cons_ne_nil _ _, rfl, by omega⟩

/-- What is read consists of digits behind an optional `+`. -/
theorem fromStrRadixU8_sound {s : String} {b : UInt8} (h : fromStrRadixU8 16 s = some b) :
    ∀ c ∈ stripPlus s.toList, (toDigit 16 c).isSome := by
  unfold fromStrRadixU8 at h
  dsimp only at h
  split at h
  · rename_i hdigits
    exact List.all_eq_true.mp hdigits.2.1
  · cases h

/-- A pair is read when it is two digits or a `+` and a digit. -/
theorem fromStrRadixU8_pair_sound {c d : Char} {b : UInt8}
    (h : fromStrRadixU8 16 (String.ofList [c, d]) = some b) {cs : List Char} {bs : Bytes}
    (hcs : Reads cs bs) : Reads (c :: d :: cs) (b :: bs) := by
  have hdigits := fromStrRadixU8_sound h
  rw [String.toList_ofList, stripPlus] at hdigits
  split at hdigits
  · rename_i hplus
    subst hplus
    obtain ⟨l, hl⟩ := Option.isSome_iff_exists.mp (hdigits d (by simp))
    rw [fromStrRadixU8_plus hl] at h
    cases h
    exact .plus hl hcs
  · obtain ⟨hi, hhi⟩ := Option.isSome_iff_exists.mp (hdigits c (by simp))
    obtain ⟨lo, hlo⟩ := Option.isSome_iff_exists.mp (hdigits d (by simp))
    rw [fromStrRadixU8_digits hhi hlo] at h
    cases h
    exact .pair hhi hlo hcs

/-- A character of two bytes is no number. -/
theorem fromStrRadixU8_wide {c : Char} (hc : c.utf8Size ≠ 1) :
    fromStrRadixU8 16 (String.ofList [c]) = none := by
  rcases h : fromStrRadixU8 16 (String.ofList [c]) with _ | b
  · rfl
  · have hplus : c ≠ '+' := by
      rintro rfl
      exact hc (by decide)
    have hdigits := fromStrRadixU8_sound h
    rw [String.toList_ofList, stripPlus, if_neg hplus] at hdigits
    obtain ⟨n, hn⟩ := Option.isSome_iff_exists.mp (hdigits c List.mem_cons_self)
    exact absurd (toDigit_utf8Size hn) hc

/-! ## What is spelled and what is read -/

theorem Spells.reads {cs : List Char} {bs : Bytes} (h : Spells cs bs) : Reads cs bs := by
  induction h with
  | nil => exact .nil
  | pair hc hd _ ih => exact .pair hc hd ih

theorem Spells.not_mem_plus {cs : List Char} {bs : Bytes} (h : Spells cs bs) : '+' ∉ cs := by
  induction h with
  | nil => exact List.not_mem_nil
  | pair hc hd _ ih =>
    rw [List.mem_cons, List.mem_cons]
    rintro (rfl | rfl | hmem)
    · cases hc
    · cases hd
    · exact ih hmem

/-- What is read without a `+` is spelled. -/
theorem Reads.spells {cs : List Char} {bs : Bytes} (h : Reads cs bs) (hplus : '+' ∉ cs) :
    Spells cs bs := by
  induction h with
  | nil => exact .nil
  | pair hc hd _ ih =>
    rw [List.mem_cons, List.mem_cons, not_or, not_or] at hplus
    exact .pair hc hd (ih hplus.2.2)
  | plus hd _ ih => exact absurd List.mem_cons_self hplus

/-- One pair after the other. -/
theorem reads_cons_iff {c d : Char} {cs : List Char} {bs : Bytes} :
    Reads (c :: d :: cs) bs ↔
      ∃ b bs', fromStrRadixU8 16 (String.ofList [c, d]) = some b ∧ Reads cs bs' ∧ bs = b :: bs' := by
  constructor
  · intro h
    cases h with
    | pair hc hd hcs => exact ⟨_, _, fromStrRadixU8_digits hc hd, hcs, rfl⟩
    | plus hd hcs => exact ⟨_, _, fromStrRadixU8_plus hd, hcs, rfl⟩
  · rintro ⟨b, bs', hb, hcs, rfl⟩
    exact fromStrRadixU8_pair_sound hb hcs

/-- What is read has characters of one byte. -/
theorem Reads.utf8Size {cs : List Char} {bs : Bytes} (h : Reads cs bs) :
    ∀ c ∈ cs, c.utf8Size = 1 := by
  induction h with
  | nil => exact fun c hc => absurd hc List.not_mem_nil
  | pair hc hd _ ih =>
    exact List.forall_mem_cons.mpr ⟨toDigit_utf8Size hc,
      List.forall_mem_cons.mpr ⟨toDigit_utf8Size hd, ih⟩⟩
  | plus hd _ ih =>
    exact List.forall_mem_cons.mpr ⟨rfl, List.forall_mem_cons.mpr ⟨toDigit_utf8Size hd, ih⟩⟩

/-- Two bytes of text are read for each byte. -/
theorem Reads.byteLen_eq {cs : List Char} {bs : Bytes} (h : Reads cs bs) :
    byteLen cs = 2 * bs.length := by
  induction h with
  | nil => rfl
  | pair hc hd _ ih =>
    rw [byteLen_cons, byteLen_cons, toDigit_utf8Size hc, toDigit_utf8Size hd, ih, List.length_cons]
    omega
  | plus hd _ ih =>
    rw [byteLen_cons, byteLen_cons, toDigit_utf8Size hd, ih, List.length_cons,
      show ('+').utf8Size = 1 from rfl]
    omega

theorem toDigit_digitChar : ∀ n < 16, toDigit 16 n.digitChar = some n := by decide

theorem hex02_toList {n : Nat} (hn : n < 256) :
    (hex02 n).toList = [(n / 16).digitChar, (n % 16).digitChar] := by
  unfold hex02
  split
  · rename_i hlt
    have hzero : "0".toList = [Nat.digitChar 0] := by decide
    rw [String.toList_append, hzero, hex, String.toList_ofList, Nat.toDigits_of_lt_base hlt,
      Nat.div_eq_of_lt hlt, Nat.mod_eq_of_lt hlt]
    rfl
  · rw [hex, String.toList_ofList, Nat.toDigits_of_base_le (by decide) (by omega),
      Nat.toDigits_of_lt_base (by omega)]
    rfl

/-- The `{:02x}` formats of bytes spell them. -/
theorem spells_hex02 (bs : Bytes) : Spells (bs.flatMap fun b => (hex02 b.toNat).toList) bs := by
  induction bs with
  | nil => exact .nil
  | cons b bs ih =>
    have hb := b.toNat_lt
    have hpair := Spells.pair (toDigit_digitChar (b.toNat / 16) (by omega))
      (toDigit_digitChar (b.toNat % 16) (by omega)) ih
    rw [Nat.div_add_mod, UInt8.ofNat_toNat] at hpair
    rw [List.flatMap_cons, hex02_toList hb]
    exact hpair

end Ruproxy.Foundation
