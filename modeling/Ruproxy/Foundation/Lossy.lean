/-
  Foundation/Lossy.lean --- `String::from_utf8_lossy`.

  Bytes are decoded from the front.  Where no character stands, the longest part that could
  have begun one, or else one byte, is replaced by U+FFFD.  A text without that character
  is the result for its own bytes only.
-/
import Ruproxy.Foundation.Text

set_option autoImplicit false

namespace Ruproxy.Foundation

/-- `char::REPLACEMENT_CHARACTER`. -/
def replacement : Char := '\uFFFD'

/-- The byte at `i` continues a character; behind the end no byte does. -/
def isContinuation (s : Bytes) (i : Nat) : Bool := (s.getD i 0) &&& 0xC0 == 0x80

/-- A character of three or four bytes can begin with `first` and the byte `second`. -/
def startsChar (first second : UInt8) : Bool :=
  if first = 0xE0 then 0xA0 ≤ second && second ≤ 0xBF
  else if first = 0xED then 0x80 ≤ second && second ≤ 0x9F
  else if first = 0xF0 then 0x90 ≤ second && second ≤ 0xBF
  else if first = 0xF4 then 0x80 ≤ second && second ≤ 0x8F
  else 0xE1 ≤ first && first ≤ 0xF3 && 0x80 ≤ second && second ≤ 0xBF

/-- How many of the bytes `s` behind `first` are replaced together with it, where no
character stands. -/
def replacedBehind (first : UInt8) (s : Bytes) : Nat :=
  if startsChar first (s.getD 0 0) then
    if 0xF0 ≤ first ∧ isContinuation s 1 then 2 else 1
  else 0

/-- The characters of `String::from_utf8_lossy`. -/
def lossyChars : Bytes → List Char
  | [] => []
  | first :: s =>
      match (first :: s).toByteArray.utf8DecodeChar? 0 with
      | some c => c :: lossyChars (s.drop (c.utf8Size - 1))
      | none => replacement :: lossyChars (s.drop (replacedBehind first s))
termination_by b => b.length
decreasing_by
  · rw [List.length_drop, List.length_cons]
    omega
  · rw [List.length_drop, List.length_cons]
    omega

/-- `String::from_utf8_lossy`. -/
def fromUtf8Lossy (b : Bytes) : String := String.ofList (lossyChars b)

/-! ## Text decodes to itself -/

theorem asBytes_ofList_cons (c : Char) (l : List Char) :
    asBytes (String.ofList (c :: l)) = String.utf8EncodeChar c ++ asBytes (String.ofList l) := by
  have hcons : String.ofList (c :: l) = String.ofList [c] ++ String.ofList l := by
    apply String.toList_injective
    simp
  rw [hcons, asBytes_append]
  congr 1
  rw [asBytes, String.toByteArray_ofList, List.utf8Encode_singleton, List.toList_data_toByteArray]

/-- The bytes of a text are those of its characters. -/
theorem mem_asBytes {x : UInt8} {s : String} :
    x ∈ asBytes s ↔ ∃ c ∈ s.toList, x ∈ String.utf8EncodeChar c := by
  have key : ∀ l : List Char, x ∈ asBytes (String.ofList l) ↔
      ∃ c ∈ l, x ∈ String.utf8EncodeChar c := by
    intro l
    induction l with
    | nil => simp [asBytes]
    | cons c l ih => rw [asBytes_ofList_cons, List.mem_append, ih, List.exists_mem_cons_iff]
  have hs := key s.toList
  rwa [String.ofList_toList] at hs

/-- The bytes of a character decode to it. -/
theorem lossyChars_encode (c : Char) (rest : Bytes) :
    lossyChars (String.utf8EncodeChar c ++ rest) = c :: lossyChars rest := by
  have hdecode : (String.utf8EncodeChar c ++ rest).toByteArray.utf8DecodeChar? 0 = some c := by
    rw [List.toByteArray_append]
    exact ByteArray.utf8DecodeChar?_utf8EncodeChar_append
  have hlen : (String.utf8EncodeChar c).length = c.utf8Size := String.length_utf8EncodeChar c
  have hpos := c.utf8Size_pos
  cases hc : String.utf8EncodeChar c with
  | nil =>
    rw [hc] at hlen
    simp only [List.length_nil] at hlen
    omega
  | cons first more =>
    rw [hc] at hdecode hlen
    have hmore : more.length = c.utf8Size - 1 := by
      rw [← hlen]
      rfl
    rw [List.cons_append] at hdecode ⊢
    rw [lossyChars, hdecode]
    dsimp only
    rw [← hmore, List.drop_left]

/-- The bytes of a text in front of others decode to it. -/
theorem lossyChars_asBytes_append (s : String) (rest : Bytes) :
    lossyChars (asBytes s ++ rest) = s.toList ++ lossyChars rest := by
  have key : ∀ l : List Char, lossyChars (asBytes (String.ofList l) ++ rest) =
      l ++ lossyChars rest := by
    intro l
    induction l with
    | nil => rfl
    | cons c l ih =>
      rw [asBytes_ofList_cons, List.append_assoc, lossyChars_encode, ih, List.cons_append]
  have hs := key s.toList
  rwa [String.ofList_toList] at hs

theorem fromUtf8Lossy_asBytes (s : String) : fromUtf8Lossy (asBytes s) = s := by
  have hs := lossyChars_asBytes_append s []
  rw [List.append_nil, lossyChars, List.append_nil] at hs
  rw [fromUtf8Lossy, hs, String.ofList_toList]

/-! ## What decodes without a replacement is text -/

/-- Bytes of which none was replaced are those of the characters. -/
theorem eq_asBytes_of_notMem {b : Bytes} (h : replacement ∉ lossyChars b) :
    b = asBytes (String.ofList (lossyChars b)) := by
  fun_induction lossyChars b with
  | case1 => rfl
  | case2 first s c hc ih =>
    rw [List.mem_cons, not_or] at h
    obtain ⟨l, hl⟩ := ByteArray.exists_of_utf8DecodeChar?_eq_some hc
    have hsplit : first :: s = String.utf8EncodeChar c ++ l.data.toList := by
      have hlist := congrArg (fun b : ByteArray => b.data.toList) hl
      simpa [ByteArray.toList_data_append] using hlist
    have hdrop : s.drop (c.utf8Size - 1) = l.data.toList := by
      obtain ⟨n, hn⟩ := Nat.exists_eq_succ_of_ne_zero c.utf8Size_pos.ne'
      have hlen : (String.utf8EncodeChar c).length = n + 1 :=
        (String.length_utf8EncodeChar c).trans hn
      rw [hn, Nat.succ_sub_one, ← List.drop_succ_cons (a := first), hsplit, ← hlen,
        List.drop_left]
    rw [asBytes_ofList_cons, ← ih h.2, hdrop]
    exact hsplit
  | case3 first s hc ih => exact absurd List.mem_cons_self h

/-- A text without U+FFFD is what its own bytes decode to, and no others. -/
theorem fromUtf8Lossy_eq_iff {b : Bytes} {s : String} (h : replacement ∉ s.toList) :
    fromUtf8Lossy b = s ↔ b = asBytes s := by
  constructor
  · rintro rfl
    rw [fromUtf8Lossy, String.toList_ofList] at h
    exact eq_asBytes_of_notMem h
  · rintro rfl
    exact fromUtf8Lossy_asBytes s

end Ruproxy.Foundation
