/-
  Foundation/Text.lean --- the string functions of the standard library that the
  modelled functions use.

  Strings are Lean's own (valid UTF-8 by construction, as in the source
  language).  `as_bytes`, `from_utf8`, `rsplit_once`, `split_once`, `lines`,
  `strip_suffix`, `trim_matches`, `trim`, the decimal `parse::<u8>()`,
  `parse::<u16>()`, `parse::<u32>()` and `parse::<u64>()` and the `{}` and `{:x}`
  formats of unsigned integers are defined here after their documentation.
-/
import Ruproxy.Foundation.Bytes

set_option autoImplicit false

namespace Ruproxy.Foundation

/-! ## UTF-8 -/

/-- `str::as_bytes`. -/
def asBytes (s : String) : Bytes := s.toByteArray.data.toList

/-- `String::from_utf8`, `none` for its error. -/
def fromUtf8 (b : Bytes) : Option String := String.fromUTF8? b.toByteArray

theorem toByteArray_asBytes (s : String) : (asBytes s).toByteArray = s.toByteArray := by
  apply ByteArray.ext
  apply Array.toList_inj.mp
  simp [asBytes]

/-- The bytes of a string decode to that string. -/
@[simp] theorem fromUtf8_asBytes (s : String) : fromUtf8 (asBytes s) = some s := by
  unfold fromUtf8 String.fromUTF8?
  rw [toByteArray_asBytes, dif_pos s.isValidUTF8]
  exact congrArg some (String.toByteArray_inj.mp rfl)

/-- What decodes to a string are its bytes. -/
theorem fromUtf8_eq_some_iff {b : Bytes} {d : String} :
    fromUtf8 b = some d ↔ b = asBytes d := by
  constructor
  · intro h
    unfold fromUtf8 String.fromUTF8? at h
    split at h
    · cases h
      exact List.toList_data_toByteArray.symm
    · cases h
  · rintro rfl
    exact fromUtf8_asBytes d

theorem asBytes_injective : Function.Injective asBytes := by
  intro s t h
  have hs := fromUtf8_asBytes s
  rw [h, fromUtf8_asBytes] at hs
  exact (Option.some.inj hs).symm

@[simp] theorem asBytes_append (s t : String) : asBytes (s ++ t) = asBytes s ++ asBytes t := by
  simp [asBytes, String.toByteArray_append]

theorem asBytes_length (s : String) : (asBytes s).length = s.utf8ByteSize := by
  rw [← String.size_toByteArray]
  exact Array.length_toList

/-- A string of one-byte characters is as long in bytes as in characters. -/
theorem asBytes_length_of_ascii {s : String} (h : ∀ c ∈ s.toList, c.utf8Size = 1) :
    (asBytes s).length = s.toList.length := by
  have key : ∀ l : List Char, (∀ c ∈ l, c.utf8Size = 1) →
      (asBytes (String.ofList l)).length = l.length := by
    intro l hl
    induction l with
    | nil => simp [asBytes]
    | cons c l ih =>
      have hcons : String.ofList (c :: l) = String.ofList [c] ++ String.ofList l := by
        apply String.toList_injective
        simp
      have hc : (asBytes (String.ofList [c])).length = 1 := by
        rw [asBytes_length, ← String.singleton_eq_ofList, String.utf8ByteSize_singleton]
        exact hl c (by simp)
      rw [hcons, asBytes_append, List.length_append, hc,
        ih fun d hd => hl d (List.mem_cons_of_mem c hd), List.length_cons]
      omega
  simpa using key s.toList h

/-! ## Splitting and trimming -/

/-- `str::rsplit_once`: what stands before and after the last `c`. -/
def rsplitOnce (c : Char) (s : String) : Option (String × String) :=
  let r := s.toList.reverse
  if c ∈ r then
    some (String.ofList (r.dropWhile (· != c)).tail.reverse,
      String.ofList (r.takeWhile (· != c)).reverse)
  else none

/-- `str::split_once`: what stands before and after the first `c`. -/
def splitOnce (c : Char) (s : String) : Option (String × String) :=
  if c ∈ s.toList then
    some (String.ofList (s.toList.takeWhile (· != c)),
      String.ofList (s.toList.dropWhile (· != c)).tail)
  else none

/-- The lines of `str::lines` after the characters `cur` of the first one. -/
def linesFrom (cur : List Char) : List Char → List String
  | [] => if cur = [] then [] else [String.ofList cur]
  | c :: rest =>
      if c = '\n' then
        -- the end of a line is a newline with or without a carriage return
        let line := if cur.getLast? = some '\r' then cur.dropLast else cur
        String.ofList line :: linesFrom [] rest
      else linesFrom (cur ++ [c]) rest

/-- `str::lines`. -/
def linesOf (s : String) : List String := linesFrom [] s.toList

/-- Each newline behind a newline is an empty line. -/
theorem linesFrom_newlines (n : Nat) :
    linesFrom [] (List.replicate n '\n') = List.replicate n "" := by
  induction n with
  | zero => rfl
  | succ n ih =>
    rw [List.replicate_succ, linesFrom, if_pos rfl, ih]
    rfl

/-- `str::strip_suffix`. -/
def stripSuffix (suffix s : String) : Option String :=
  if suffix.toList <:+ s.toList then
    some (String.ofList (s.toList.take (s.toList.length - suffix.toList.length)))
  else none

/-- `char::is_whitespace`. -/
def isWhitespace (c : Char) : Bool :=
  let n := c.toNat
  (9 ≤ n && n ≤ 13) || n = 0x20 || n = 0x85 || n = 0xA0 || n = 0x1680 ||
    (0x2000 ≤ n && n ≤ 0x200A) || n = 0x2028 || n = 0x2029 || n = 0x202F || n = 0x205F ||
    n = 0x3000

/-- `str::trim_matches`. -/
def trimMatches (p : Char → Bool) (s : String) : String :=
  String.ofList ((s.toList.dropWhile p).reverse.dropWhile p).reverse

/-- `str::trim`. -/
def trim (s : String) : String := trimMatches isWhitespace s

theorem stripSuffix_append (s suffix : String) : stripSuffix suffix (s ++ suffix) = some s := by
  unfold stripSuffix
  rw [String.toList_append, if_pos (List.suffix_append _ _), List.length_append,
    Nat.add_sub_cancel, List.take_left, String.ofList_toList]

/-- The last separator of `host ++ c ++ rest` is the one written, when the rest
has none. -/
theorem rsplitOnce_append {c : Char} {host rest : String} (h : c ∉ rest.toList) :
    rsplitOnce c (host ++ String.singleton c ++ rest) = some (host, rest) := by
  have hall : ∀ x ∈ rest.toList.reverse, (x != c) = true := by
    intro x hx
    simp only [bne_iff_ne, ne_eq]
    rintro rfl
    exact h (List.mem_reverse.mp hx)
  have hdrop : (rest.toList.reverse ++ c :: host.toList.reverse).dropWhile (· != c) =
      c :: host.toList.reverse := by
    rw [List.dropWhile_append_of_pos hall]
    simp
  have htake : (rest.toList.reverse ++ c :: host.toList.reverse).takeWhile (· != c) =
      rest.toList.reverse := by
    rw [List.takeWhile_append_of_pos hall]
    simp
  simp [rsplitOnce, hdrop, htake]

theorem dropWhile_eq_self {p : Char → Bool} {l : List Char} (h : ∀ c ∈ l, p c = false) :
    l.dropWhile p = l := by
  cases l with
  | nil => rfl
  | cons c l => simp [List.dropWhile, h c (by simp)]

/-- Nothing is trimmed from a string without matching characters. -/
theorem trimMatches_eq_self {p : Char → Bool} {s : String}
    (h : ∀ c ∈ s.toList, p c = false) : trimMatches p s = s := by
  unfold trimMatches
  rw [dropWhile_eq_self h, dropWhile_eq_self (fun c hc => h c (by simpa using hc))]
  simp

/-- Matching characters around a string without any are trimmed. -/
theorem trimMatches_delimited {p : Char → Bool} {a b : Char} {s : String}
    (ha : p a = true) (hb : p b = true) (h : ∀ c ∈ s.toList, p c = false) :
    trimMatches p (String.singleton a ++ s ++ String.singleton b) = s := by
  have hs : (s.toList ++ [b]).dropWhile p = s.toList ++ [b].dropWhile p ∨
      (s.toList ++ [b]).dropWhile p = s.toList ++ [b] := by
    cases hl : s.toList with
    | nil => left; simp
    | cons c l => right; simp [h c (by simp [hl])]
  have hrev : ∀ c ∈ s.toList.reverse, p c = false := fun c hc => h c (by simpa using hc)
  have hnil : [b].dropWhile p = [] := by simp [hb]
  unfold trimMatches
  apply String.toList_injective
  simp only [String.toList_append, String.toList_singleton, List.cons_append,
    List.nil_append, List.dropWhile_cons, ha, if_true, String.toList_ofList]
  rcases hs with hs | hs <;> rw [hs]
  · rw [hnil, List.append_nil, dropWhile_eq_self hrev, List.reverse_reverse]
  · simp [hb, dropWhile_eq_self hrev]

/-! ## Decimal and hexadecimal integers -/

/-- The `{}` format of an unsigned integer. -/
def dec (n : Nat) : String := String.ofList (Nat.toDigits 10 n)

/-- The `{:x}` format of an unsigned integer. -/
def hex (n : Nat) : String := String.ofList (Nat.toDigits 16 n)

/-- The `{:02x}` format of an unsigned integer. -/
def hex02 (n : Nat) : String := if n < 16 then "0" ++ hex n else hex n

/-- `str::parse::<u16>`: an optional `+`, then decimal digits of a value below
`2^16`. -/
def parseU16 (s : String) : Option UInt16 :=
  let digits := match s.toList with
    | '+' :: rest => rest
    | l => l
  if digits ≠ [] ∧ digits.all Char.isDigit ∧ Nat.ofDigitChars 10 digits 0 < 65536 then
    some (UInt16.ofNat (Nat.ofDigitChars 10 digits 0))
  else none

/-- `str::parse::<u8>`: an optional `+`, then decimal digits of a value below `2^8`. -/
def parseU8 (s : String) : Option UInt8 :=
  let digits := match s.toList with
    | '+' :: rest => rest
    | l => l
  if digits ≠ [] ∧ digits.all Char.isDigit ∧ Nat.ofDigitChars 10 digits 0 < 256 then
    some (UInt8.ofNat (Nat.ofDigitChars 10 digits 0))
  else none

/-- `str::parse::<u32>`: an optional `+`, then decimal digits of a value below `2^32`. -/
def parseU32 (s : String) : Option UInt32 :=
  let digits := match s.toList with
    | '+' :: rest => rest
    | l => l
  if digits ≠ [] ∧ digits.all Char.isDigit ∧ Nat.ofDigitChars 10 digits 0 < 4294967296 then
    some (UInt32.ofNat (Nat.ofDigitChars 10 digits 0))
  else none

/-- `str::parse::<u64>`: an optional `+`, then decimal digits of a value below `2^64`. -/
def parseU64 (s : String) : Option UInt64 :=
  let digits := match s.toList with
    | '+' :: rest => rest
    | l => l
  if digits ≠ [] ∧ digits.all Char.isDigit ∧
      Nat.ofDigitChars 10 digits 0 < 18446744073709551616 then
    some (UInt64.ofNat (Nat.ofDigitChars 10 digits 0))
  else none

theorem isDigit_of_mem_dec {n : Nat} {c : Char} (h : c ∈ (dec n).toList) :
    c.isDigit = true := by
  rw [dec, String.toList_ofList] at h
  exact Nat.isDigit_of_mem_toDigits (by decide) (by decide) h

theorem dec_length_le {n k : Nat} (hk : 0 < k) (h : n < 10 ^ k) :
    (dec n).toList.length ≤ k := by
  rw [dec, String.toList_ofList]
  exact (Nat.length_toDigits_le_iff (by decide) hk).mpr h

theorem hex_length_le {n k : Nat} (hk : 0 < k) (h : n < 16 ^ k) :
    (hex n).toList.length ≤ k := by
  rw [hex, String.toList_ofList]
  exact (Nat.length_toDigits_le_iff (by decide) hk).mpr h

/-- A decimal format has no sign. -/
theorem dec_digits (n : Nat) : (match (dec n).toList with
    | '+' :: rest => rest
    | l => l) = Nat.toDigits 10 n := by
  have hne : ∀ c ∈ (dec n).toList, c ≠ '+' := by
    rintro c hc rfl
    exact absurd (isDigit_of_mem_dec hc) (by decide)
  rw [dec, String.toList_ofList] at *
  split
  · rename_i rest heq
    exact absurd rfl (hne '+' (by simp [heq]))
  · rfl

theorem all_isDigit_toDigits (n : Nat) : (Nat.toDigits 10 n).all Char.isDigit = true := by
  rw [List.all_eq_true]
  intro c hc
  exact Nat.isDigit_of_mem_toDigits (by decide) (by decide) hc

/-- The decimal format of a port parses back to it. -/
theorem parseU16_dec (v : UInt16) : parseU16 (dec v.toNat) = some v := by
  unfold parseU16
  simp only [dec_digits, Nat.ofDigitChars_ten_toDigits, all_isDigit_toDigits]
  rw [if_pos ⟨Nat.toDigits_ne_nil, trivial, v.toNat_lt⟩, UInt16.ofNat_toNat]

theorem parseU64_dec {n : Nat} (hn : n < 18446744073709551616) :
    parseU64 (dec n) = some (UInt64.ofNat n) := by
  unfold parseU64
  simp only [dec_digits, Nat.ofDigitChars_ten_toDigits, all_isDigit_toDigits]
  rw [if_pos ⟨Nat.toDigits_ne_nil, trivial, hn⟩]

end Ruproxy.Foundation
