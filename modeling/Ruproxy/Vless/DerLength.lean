/-
  Vless/DerLength.lean --- the length fields of `vless/tls/reality.rs`.

  `der_encode_tlv` and `der_fix_outer_sequence_length` each write a length field and
  `der_decode_length` reads one.  The reader takes every field of up to four digits, and
  what `der_encode_tlv` writes it reads back.  The other writer has no field of three
  digits: from 64 KiB on it writes two digits and loses the rest of the length.
-/
import Ruproxy.Vless.Certificate

set_option autoImplicit false

namespace Ruproxy.Vless

open Ruproxy.Foundation Ruproxy.Foundation.Der
open Ruproxy.Foundation.Outcome

/-! ## What the reader takes -/

/-- The digits that were read stand where they were read. -/
theorem derLengthFrom_sound {data : Bytes} {pos n len v : Nat}
    (h : derLengthFrom data pos n len = ok v) :
    ∃ digits, StandsAt data pos digits ∧ digits.length = n ∧
      v = digits.foldl (fun n x => n * 256 + x.toNat) len := by
  induction n generalizing pos len with
  | zero =>
    cases h
    exact ⟨[], standsAt_nil data pos, rfl, rfl⟩
  | succ n ih =>
    rw [derLengthFrom] at h
    obtain ⟨x, hx, h⟩ := bind_eq_ok.mp h
    obtain ⟨digits, hat, hlen, hv⟩ := ih h
    have hstep : (len <<< 8) ||| x.toNat = len * 256 + x.toNat := by
      rw [← Nat.shiftLeft_add_eq_or_of_lt x.toNat_lt, Nat.shiftLeft_eq]
    refine ⟨x :: digits, standsAt_cons.mpr ⟨index_eq_ok.mp hx, hat⟩, ?_, ?_⟩
    · rw [List.length_cons, hlen]
    · rw [hv, hstep]
      rfl

/-- A length that was read is the one of a field that stands there. -/
theorem derDecodeLength_sound {data : Bytes} {pos n k : Nat}
    (h : derDecodeLength data pos = ok (n, k)) :
    ∃ field, StandsAt data pos field ∧ EncodesLength field n ∧ field.length = k ∧ k ≤ 5 := by
  rw [derDecodeLength, guard_eq_ok] at h
  obtain ⟨-, h⟩ := h
  obtain ⟨b, hb, h⟩ := bind_eq_ok.mp h
  have hat : ∀ digits, StandsAt data (pos + 1) digits → StandsAt data pos (b :: digits) :=
    fun digits hdigits => standsAt_cons.mpr ⟨index_eq_ok.mp hb, hdigits⟩
  split at h
  · rename_i hshort
    cases h
    exact ⟨[b], hat [] (standsAt_nil _ _), .short (UInt8.lt_iff_toNat_lt.mp hshort), rfl,
      by decide⟩
  · rename_i hlong
    have hmod : (b &&& 0x7f).toNat = b.toNat % 128 := by
      rw [UInt8.toNat_and]
      exact Nat.and_two_pow_sub_one_eq_mod b.toNat 7
    have hge : ¬ b.toNat < 128 := fun hlt => hlong (UInt8.lt_iff_toNat_lt.mpr hlt)
    have hlt := b.toNat_lt
    rw [guard_eq_ok, not_or, not_or] at h
    obtain ⟨⟨hpos, hfour, -⟩, h⟩ := h
    obtain ⟨len, hlen, h⟩ := bind_eq_ok.mp h
    obtain ⟨digits, hdigits, hcount, rfl⟩ := derLengthFrom_sound hlen
    cases h
    rw [hmod] at hpos hfour hcount
    refine ⟨b :: digits, hat digits hdigits, .long (by omega) (by omega), ?_, ?_⟩
    · rw [List.length_cons, hmod]
      omega
    · rw [hmod]
      omega

/-- **Reading.**  `der_decode_length` takes exactly the length fields of at most four
digits. -/
theorem derDecodeLength_eq_ok {data : Bytes} {pos n k : Nat} :
    derDecodeLength data pos = ok (n, k) ↔
      ∃ field, StandsAt data pos field ∧ EncodesLength field n ∧ field.length = k ∧ k ≤ 5 := by
  constructor
  · exact derDecodeLength_sound
  · rintro ⟨field, hat, h, rfl, hle⟩
    exact derDecodeLength_eq hat h hle

/-! ## What the writers write -/

/-- What `der_encode_tlv` writes is read back. -/
theorem derDecodeLength_derEncodeTlv (tag : UInt8) {content : Bytes}
    (h : content.length < 2 ^ 24) :
    derDecodeLength (derEncodeTlv tag content) 1 =
      ok (content.length, (derEncodeTlv tag content).length - (1 + content.length)) := by
  have hat : StandsAt (tlv tag content) 1 (lengthField content.length) := List.prefix_append _ _
  have hencodes : EncodesLength (lengthField content.length) content.length :=
    encodesLength_lengthField (Nat.lt_trans h (by decide))
  have hshort : (lengthField content.length).length ≤ 5 :=
    Nat.le_succ_of_le (length_lengthField_le (k := 3) h)
  have hsize : (tlv tag content).length - (1 + content.length) =
      (lengthField content.length).length := by
    rw [tlv, List.length_cons, List.length_append]
    omega
  rw [derEncodeTlv_eq tag h, derDecodeLength_eq hat hencodes hshort, hsize]

/-- From 64 KiB on the other writer writes the count of two digits, not of three. -/
theorem newLenField_ne {n : Nat} (hge : 0x10000 ≤ n) (hlt : n < 0x1000000) :
    newLenField n ≠ lengthField n := by
  rw [newLenField, lengthField_eq hlt, if_neg (by omega), if_neg (by omega), if_neg (by omega),
    if_neg (by omega), if_neg (by omega)]
  intro h
  exact absurd (List.cons.inj h).1 (by decide)

/-- **Writing again.**  The header comes out as `der_encode_tlv` writes it exactly when
the content is below 64 KiB. -/
theorem derFixOuterSequenceLength_eq_iff {field content : Bytes} {n : Nat}
    (hcontent : content.length < 2 ^ 24) (h : EncodesLength field n) (hfield : field.length ≤ 5) :
    derFixOuterSequenceLength (0x30 :: (field ++ content)) = ok (derEncodeTlv 0x30 content) ↔
      content.length < 65536 := by
  rw [derFixOuterSequenceLength_field content h hfield, derEncodeTlv_eq 0x30 hcontent, tlv,
    ok.injEq, List.cons.injEq, List.append_left_inj]
  constructor
  · rintro ⟨-, hsame⟩
    by_contra hge
    exact newLenField_ne (by omega) hcontent hsame
  · intro hlt
    exact ⟨rfl, newLenField_eq hlt⟩

/-- **Length fields.**  For every tag and content below `2^24` bytes the length that
`der_encode_tlv` writes is read back, with the size of its field.  For every length field
that the reader takes, `der_fix_outer_sequence_length` writes the header of
`der_encode_tlv` exactly when the content is below 65536 bytes. -/
theorem derLengths_agree_iff (tag : UInt8) {content field : Bytes} {n : Nat}
    (hcontent : content.length < 2 ^ 24)
    (hfield : derDecodeLength (0x30 :: (field ++ content)) 1 = ok (n, field.length)) :
    derDecodeLength (derEncodeTlv tag content) 1 =
        ok (content.length, (derEncodeTlv tag content).length - (1 + content.length)) ∧
      (derFixOuterSequenceLength (0x30 :: (field ++ content)) = ok (derEncodeTlv 0x30 content) ↔
        content.length < 65536) := by
  obtain ⟨field', hat, hencodes, hlen, hle⟩ := derDecodeLength_eq_ok.mp hfield
  have hsame : field' = field := by
    have hprefix : field' <+: field ++ content := hat
    rw [List.prefix_iff_eq_take, hlen, List.take_left] at hprefix
    exact hprefix
  subst hsame
  exact ⟨derDecodeLength_derEncodeTlv tag hcontent,
    derFixOuterSequenceLength_eq_iff hcontent hencodes hle⟩

/-- A content of two bytes behind the length field of one. -/
theorem derLengths_agree_iff_pair :
    derFixOuterSequenceLength [0x30, 0x01, 7, 8] = ok (derEncodeTlv 0x30 [7, 8]) :=
  (@derLengths_agree_iff 0x30 [7, 8] [0x01] 1 (by decide) (by decide)).2.mpr (by decide)

/-- A content of 64 KiB behind an empty length: the header is the one of an empty
content. -/
theorem not_derLengths_agree :
    ¬ ∀ (content field : Bytes) (n : Nat), content.length < 2 ^ 24 →
      derDecodeLength (0x30 :: (field ++ content)) 1 = ok (n, field.length) →
      derFixOuterSequenceLength (0x30 :: (field ++ content)) =
        ok (derEncodeTlv 0x30 content) := by
  intro hall
  have hlen : (List.replicate 65536 (0 : UInt8)).length = 65536 := List.length_replicate
  have hlt : (List.replicate 65536 (0 : UInt8)).length < 2 ^ 24 := by omega
  have hzero : EncodesLength [0x00] 0 := .short (by decide)
  have hat : StandsAt (0x30 :: ([0x00] ++ List.replicate 65536 0)) 1 [0x00] :=
    List.prefix_append [0x00] _
  have hread : derDecodeLength (0x30 :: ([0x00] ++ List.replicate 65536 0)) 1 = ok (0, 1) :=
    derDecodeLength_eq hat hzero (by decide)
  have hfix := hall (List.replicate 65536 0) [0x00] 0 hlt hread
  have hsmall := (derFixOuterSequenceLength_eq_iff hlt hzero (by decide)).mp hfix
  omega

end Ruproxy.Vless
