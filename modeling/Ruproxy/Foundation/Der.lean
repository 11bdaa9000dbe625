/-
  Foundation/Der.lean --- tag, length and value.

  A length below 128 is one byte.  A longer one is written in base 256 behind a byte that
  counts the digits; `lengthField` takes as few digits as there are, which is what DER
  asks for, and `EncodesLength` admits leading zeros.  A `Tlv` carries a length field
  that fits its content.
-/
import Mathlib.Data.Nat.Digits.Lemmas
import Ruproxy.Foundation.Bytes

set_option autoImplicit false

namespace Ruproxy.Foundation.Der

/-! ## Numbers in base 256 -/

/-- The value of digits, the most significant one first. -/
def ofBe (b : Bytes) : Nat := b.foldl (fun n x => n * 256 + x.toNat) 0

/-- The digits of a number, as few as there are. -/
def toBe (n : Nat) : Bytes := (Nat.digits 256 n).reverse.map UInt8.ofNat

theorem toBe_of_pos {n : Nat} (hn : 0 < n) :
    toBe n = toBe (n / 256) ++ [UInt8.ofNat (n % 256)] := by
  rw [toBe, Nat.digits_def' (by decide) hn, List.reverse_cons, List.map_append]
  rfl

theorem ofBe_toBe (n : Nat) : ofBe (toBe n) = n := by
  induction n using Nat.strongRecOn with
  | ind n ih =>
    rcases Nat.eq_zero_or_pos n with rfl | hn
    · rfl
    · have hdigit : (UInt8.ofNat (n % 256)).toNat = n % 256 := by
        rw [UInt8.toNat_ofNat']
        omega
      have hih := ih (n / 256) (Nat.div_lt_self hn (by decide))
      rw [toBe_of_pos hn, ofBe, List.foldl_append]
      show ofBe (toBe (n / 256)) * 256 + (UInt8.ofNat (n % 256)).toNat = n
      rw [hih, hdigit]
      exact Nat.div_add_mod' n 256

theorem length_toBe_le {n k : Nat} (h : n < 256 ^ k) : (toBe n).length ≤ k := by
  rw [toBe, List.length_map, List.length_reverse]
  exact (Nat.digits_length_le_iff (by decide) n).mpr h

theorem toBe_ne_nil {n : Nat} (hn : 0 < n) : toBe n ≠ [] := by
  rw [toBe_of_pos hn]
  exact List.append_ne_nil_of_right_ne_nil _ (List.cons_ne_nil _ _)

/-! ## Length fields -/

/-- The length field of DER. -/
def lengthField (n : Nat) : Bytes :=
  if n < 0x80 then [UInt8.ofNat n] else UInt8.ofNat (0x80 + (toBe n).length) :: toBe n

/-- The field is one for the length `n`. -/
inductive EncodesLength : Bytes → Nat → Prop where
  | short {b : UInt8} (h : b.toNat < 0x80) : EncodesLength [b] b.toNat
  | long {b : UInt8} {digits : Bytes} (hcount : b.toNat = 0x80 + digits.length)
      (hpos : 0 < digits.length) : EncodesLength (b :: digits) (ofBe digits)

theorem EncodesLength.length_pos {field : Bytes} {n : Nat} (h : EncodesLength field n) :
    0 < field.length := by
  cases h with
  | short _ => exact Nat.succ_pos _
  | long _ _ => exact Nat.succ_pos _

theorem encodesLength_lengthField {n : Nat} (h : n < 256 ^ 126) :
    EncodesLength (lengthField n) n := by
  unfold lengthField
  split
  · rename_i hn
    have hbyte : (UInt8.ofNat n).toNat = n := by
      rw [UInt8.toNat_ofNat']
      omega
    have hshort := EncodesLength.short (b := UInt8.ofNat n) (by omega)
    rwa [hbyte] at hshort
  · rename_i hn
    have hlen := length_toBe_le h
    have hlong := @EncodesLength.long (UInt8.ofNat (0x80 + (toBe n).length)) (toBe n)
      (by rw [UInt8.toNat_ofNat']; omega) (List.length_pos_iff.mpr (toBe_ne_nil (by omega)))
    rwa [ofBe_toBe] at hlong

theorem length_lengthField_le {n k : Nat} (h : n < 256 ^ k) :
    (lengthField n).length ≤ k + 1 := by
  unfold lengthField
  split
  · exact Nat.succ_pos _
  · exact Nat.succ_le_succ (length_toBe_le h)

/-! ## Values -/

/-- The value that DER writes. -/
def tlv (tag : UInt8) (content : Bytes) : Bytes :=
  tag :: (lengthField content.length ++ content)

/-- A tag of one byte, a length field and a content of that length. -/
structure Tlv where
  tag : UInt8
  field : Bytes
  content : Bytes
  encodes : EncodesLength field content.length

def Tlv.bytes (t : Tlv) : Bytes := t.tag :: (t.field ++ t.content)

theorem Tlv.length_bytes (t : Tlv) :
    t.bytes.length = 1 + t.field.length + t.content.length := by
  rw [Tlv.bytes, List.length_cons, List.length_append]
  omega

end Ruproxy.Foundation.Der
