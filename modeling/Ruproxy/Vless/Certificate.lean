/-
  Vless/Certificate.lean --- the signature of a Reality certificate.

  `replace_signature_in_cert_der` of `vless/tls/reality.rs` puts another signature into a
  certificate that was just made.  It replaces the third value inside the outer sequence
  and then writes the length of the sequence again; between the two the old length field
  is still there, and only its own size is read from it.
-/
import Ruproxy.Foundation.Der
import Ruproxy.Foundation.Position
import Ruproxy.Foundation.Text

set_option autoImplicit false

namespace Ruproxy.Vless

open Ruproxy.Foundation Ruproxy.Foundation.Der
open Ruproxy.Foundation.Outcome

/-! ## Errors -/

/-- The ways in which a certificate is not one. -/
inductive CertError where
  | notSequence
  | fieldMissing (number : Nat)
  | notBitString (tag : UInt8)
  | signatureMissing
  | tlvOutOfRange (pos : Nat)
  | lengthOutOfRange (pos : Nat)
  | badLength
  | outerNotSequence
  deriving DecidableEq

/-- The text of an error. -/
def CertError.text : CertError → String
  | .notSequence => "DER 首字节不是 SEQUENCE (0x30)"
  | .fieldMissing number => "DER 结构不完整：找不到第 " ++ dec number ++ " 个字段"
  | .notBitString tag => "signatureValue 不是 BIT STRING，tag=0x" ++ hex tag.toNat
  | .signatureMissing => "DER 中未找到 signatureValue（第三个字段）"
  | .tlvOutOfRange pos => "TLV 解析越界 pos=" ++ dec pos
  | .lengthOutOfRange pos => "DER length 字节越界 pos=" ++ dec pos
  | .badLength => "DER 非法 multi-byte length"
  | .outerNotSequence => "DER 首字节不是 SEQUENCE"

/-! ## Reading -/

/-- The loop of `der_decode_length`. -/
def derLengthFrom (data : Bytes) (pos : Nat) : Nat → Nat → Outcome CertError Nat
  | 0, len => return len
  | n + 1, len => do
      let b ← index data pos
      derLengthFrom data (pos + 1) n ((len <<< 8) ||| b.toNat)

/-- `der_decode_length`. -/
def derDecodeLength (data : Bytes) (pos : Nat) : Outcome CertError (Nat × Nat) :=
  if data.length ≤ pos then err (.lengthOutOfRange pos)
  else do
    let first ← index data pos
    if first < 0x80 then return (first.toNat, 1)
    else
      let n := (first &&& 0x7f).toNat
      if n = 0 ∨ 4 < n ∨ data.length < pos + 1 + n then err .badLength
      else
        let len ← derLengthFrom data (pos + 1) n 0
        return (len, 1 + n)

/-- `der_tlv_lens`. -/
def derTlvLens (data : Bytes) (pos : Nat) : Outcome CertError (Nat × Nat) :=
  if data.length ≤ pos + 1 then err (.tlvOutOfRange pos)
  else do
    let (contentLen, lenFieldBytes) ← derDecodeLength data (pos + 1)
    return (1 + lenFieldBytes + contentLen, contentLen)

/-- `der_tlv_content_start`. -/
def derTlvContentStart (data : Bytes) (pos : Nat) : Outcome CertError Nat := do
  let (_, lenFieldBytes) ← derDecodeLength data (pos + 1)
  return pos + 1 + lenFieldBytes

/-! ## Writing -/

/-- `der_encode_tlv`. -/
def derEncodeTlv (tag : UInt8) (content : Bytes) : Bytes :=
  let len := content.length
  tag :: ((if len < 0x80 then [UInt8.ofNat len]
    else if len < 0x100 then [0x81, UInt8.ofNat len]
    else if len < 0x10000 then [0x82, UInt8.ofNat (len >>> 8), UInt8.ofNat (len &&& 0xff)]
    else [0x83, UInt8.ofNat (len >>> 16), UInt8.ofNat (len >>> 8), UInt8.ofNat (len &&& 0xff)]) ++
      content)

/-- `Vec::splice` of a range. -/
def splice (v : Bytes) (i j : Nat) (new : Bytes) : Outcome CertError Bytes :=
  if i ≤ j ∧ j ≤ v.length then ok (v.take i ++ (new ++ v.drop j)) else panic

/-- `a - b` on `usize`. -/
def subUsize (a b : Nat) : Outcome CertError Nat := if b ≤ a then ok (a - b) else panic

/-- `der_fix_outer_sequence_length`. -/
def derFixOuterSequenceLength (der : Bytes) : Outcome CertError Bytes := do
  let first ← index der 0
  if first ≠ 0x30 then err .outerNotSequence
  else
    let oldContentStart ← derTlvContentStart der 0
    let newContentLen ← subUsize der.length oldContentStart
    let newLenField :=
      if newContentLen < 0x80 then [UInt8.ofNat newContentLen]
      else if newContentLen < 0x100 then [0x81, UInt8.ofNat newContentLen]
      else [0x82, UInt8.ofNat (newContentLen >>> 8), UInt8.ofNat (newContentLen &&& 0xff)]
    splice der 1 oldContentStart newLenField

/-- The loop of `replace_signature_in_cert_der`, over the fields that are left. -/
def replaceFrom (der newSig : Bytes) (pos : Nat) : List Nat → Outcome CertError Bytes
  | [] => err .signatureMissing
  | fieldIdx :: fields =>
      if der.length ≤ pos then err (.fieldMissing (fieldIdx + 1))
      else do
        let (total, _) ← derTlvLens der pos
        if fieldIdx = 2 then
          let tag ← index der pos
          if tag ≠ 0x03 then err (.notBitString tag)
          else
            let newTlv := derEncodeTlv 0x03 (0x00 :: newSig)
            let der ← splice der pos (pos + total) newTlv
            derFixOuterSequenceLength der
        else replaceFrom der newSig (pos + total) fields

/-- `replace_signature_in_cert_der`, by the vector that it leaves. -/
def replaceSignatureInCertDer (der newSig : Bytes) : Outcome CertError Bytes :=
  match der with
  | [] => err .notSequence
  | first :: _ =>
      if first ≠ 0x30 then err .notSequence
      else do
        let outerContentStart ← derTlvContentStart der 0
        replaceFrom der newSig outerContentStart (List.range 3)

/-! ## What is read -/

theorem derLengthFrom_eq {data digits : Bytes} {pos : Nat} (len : Nat)
    (hat : StandsAt data pos digits) :
    derLengthFrom data pos digits.length len =
      ok (digits.foldl (fun n x => n * 256 + x.toNat) len) := by
  induction digits generalizing pos len with
  | nil => rfl
  | cons x digits ih =>
    rw [standsAt_cons] at hat
    have hstep : (len <<< 8) ||| x.toNat = len * 256 + x.toNat := by
      rw [← Nat.shiftLeft_add_eq_or_of_lt x.toNat_lt, Nat.shiftLeft_eq]
    rw [List.length_cons, derLengthFrom, index_eq_ok.mpr hat.1, ok_bind, hstep, ih _ hat.2]
    rfl

/-- **Lengths.**  A length field of at most four digits is read where it stands. -/
theorem derDecodeLength_eq {data field : Bytes} {pos n : Nat} (hat : StandsAt data pos field)
    (h : EncodesLength field n) (hfield : field.length ≤ 5) :
    derDecodeLength data pos = ok (n, field.length) := by
  have hlen := hat.le_length_of_ne_nil (List.length_pos_iff.mp h.length_pos)
  unfold derDecodeLength
  cases h with
  | @short b hb =>
    rw [standsAt_cons] at hat
    rw [List.length_singleton] at hlen
    rw [if_neg (by omega), index_eq_ok.mpr hat.1, ok_bind, if_pos (UInt8.lt_iff_toNat_lt.mpr hb)]
    rfl
  | @long b digits hcount hpos =>
    rw [standsAt_cons] at hat
    rw [List.length_cons] at hlen hfield
    have hn : (b &&& 0x7f).toNat = digits.length := by
      have hmod : b.toNat &&& 127 = b.toNat % 128 := Nat.and_two_pow_sub_one_eq_mod b.toNat 7
      rw [UInt8.toNat_and]
      show b.toNat &&& 127 = _
      omega
    have hlong : ¬ b < 0x80 := by
      rw [UInt8.lt_iff_toNat_lt, hcount]
      show ¬ _ < 128
      omega
    rw [if_neg (by omega), index_eq_ok.mpr hat.1, ok_bind, if_neg hlong, hn]
    dsimp only
    rw [if_neg (by omega), derLengthFrom_eq 0 hat.2, ok_bind, List.length_cons, Nat.add_comm 1]
    rfl

/-- A value whose length has at most four digits is measured where it stands. -/
theorem derTlvLens_eq {data : Bytes} {pos : Nat} {t : Tlv} (hat : StandsAt data pos t.bytes)
    (hfield : t.field.length ≤ 5) :
    derTlvLens data pos = ok (t.bytes.length, t.content.length) := by
  have hlen := hat.le_length_of_ne_nil (List.cons_ne_nil _ _)
  have hpos := t.encodes.length_pos
  rw [t.length_bytes] at hlen
  rw [Tlv.bytes, standsAt_cons, standsAt_append] at hat
  rw [derTlvLens, if_neg (by omega), derDecodeLength_eq hat.2.1 t.encodes hfield, ok_bind,
    t.length_bytes]
  rfl

theorem derTlvContentStart_eq {data field : Bytes} {pos n : Nat}
    (hat : StandsAt data (pos + 1) field) (h : EncodesLength field n) (hfield : field.length ≤ 5) :
    derTlvContentStart data pos = ok (pos + 1 + field.length) := by
  rw [derTlvContentStart, derDecodeLength_eq hat h hfield]
  rfl

/-! ## What is written -/

theorem lengthField_eq {n : Nat} (h : n < 0x1000000) :
    lengthField n = if n < 0x80 then [UInt8.ofNat n]
      else if n < 0x100 then [0x81, UInt8.ofNat n]
      else if n < 0x10000 then [0x82, UInt8.ofNat (n >>> 8), UInt8.ofNat (n &&& 0xff)]
      else [0x83, UInt8.ofNat (n >>> 16), UInt8.ofNat (n >>> 8), UInt8.ofNat (n &&& 0xff)] := by
  have hlow : n &&& 0xff = n % 256 := Nat.and_two_pow_sub_one_eq_mod n 8
  have hhigh : n >>> 8 = n / 256 := Nat.shiftRight_eq_div_pow n 8
  have htop : n >>> 16 = n / 256 / 256 := by
    rw [Nat.div_div_eq_div_mul]
    exact Nat.shiftRight_eq_div_pow n 16
  unfold lengthField
  split
  · rfl
  split
  · rename_i hn
    rw [toBe_of_pos (by omega), Nat.div_eq_of_lt hn, Nat.mod_eq_of_lt hn]
    rfl
  split
  · rename_i hn
    rw [toBe_of_pos (by omega), toBe_of_pos (by omega), Nat.div_eq_of_lt (by omega),
      Nat.mod_eq_of_lt (by omega : n / 256 < 256), hlow, hhigh]
    rfl
  · rename_i hn
    have hbyte : UInt8.ofNat (n / 256) = UInt8.ofNat (n / 256 % 256) := by
      rw [← UInt8.toNat_inj, UInt8.toNat_ofNat', UInt8.toNat_ofNat']
      omega
    rw [toBe_of_pos (by omega), toBe_of_pos (by omega), toBe_of_pos (by omega),
      Nat.div_eq_of_lt (by omega), Nat.mod_eq_of_lt (by omega : n / 256 / 256 < 256), hlow, hhigh,
      htop, hbyte]
    rfl

/-- A value is written as DER has it. -/
theorem derEncodeTlv_eq (tag : UInt8) {content : Bytes} (h : content.length < 0x1000000) :
    derEncodeTlv tag content = tlv tag content := by
  rw [derEncodeTlv, tlv, lengthField_eq h]

theorem splice_eq (a b c new : Bytes) :
    splice (a ++ (b ++ c)) a.length (a.length + b.length) new = ok (a ++ (new ++ c)) := by
  rw [splice, if_pos (by simp), List.take_left, ← List.append_assoc a b c,
    List.drop_left' List.length_append]

/-- The length field that `der_fix_outer_sequence_length` writes. -/
def newLenField (n : Nat) : Bytes :=
  if n < 0x80 then [UInt8.ofNat n]
  else if n < 0x100 then [0x81, UInt8.ofNat n]
  else [0x82, UInt8.ofNat (n >>> 8), UInt8.ofNat (n &&& 0xff)]

theorem newLenField_eq {n : Nat} (h : n < 0x10000) : newLenField n = lengthField n := by
  rw [newLenField, lengthField_eq (by omega), if_pos h]

/-- The length field is written again, whatever length it had. -/
theorem derFixOuterSequenceLength_field {field : Bytes} {n : Nat} (content : Bytes)
    (h : EncodesLength field n) (hfield : field.length ≤ 5) :
    derFixOuterSequenceLength (0x30 :: (field ++ content)) =
      ok (0x30 :: (newLenField content.length ++ content)) := by
  have hat : StandsAt (0x30 :: (field ++ content)) (0 + 1) field := List.prefix_append _ _
  have hsub : subUsize (0x30 :: (field ++ content)).length (0 + 1 + field.length) =
      ok content.length := by
    rw [subUsize, List.length_cons, List.length_append, if_pos (by omega)]
    congr 1
    omega
  rw [derFixOuterSequenceLength, show (index (0x30 :: (field ++ content)) 0 : Outcome CertError _) =
    ok 0x30 from rfl, ok_bind, if_neg (not_not.mpr rfl), derTlvContentStart_eq hat h hfield, ok_bind,
    hsub, ok_bind]
  exact splice_eq [0x30] field content (newLenField content.length)

/-- With a content below 64 KiB it is the length field of DER. -/
theorem derFixOuterSequenceLength_eq {field content : Bytes} {n : Nat}
    (h : EncodesLength field n) (hfield : field.length ≤ 5) (hlt : content.length < 0x10000) :
    derFixOuterSequenceLength (0x30 :: (field ++ content)) = ok (tlv 0x30 content) := by
  rw [derFixOuterSequenceLength_field content h hfield, newLenField_eq hlt]
  rfl

/-! ## The signature -/

/-- The content of a certificate: three values, each with at most four digits to its
length, of which the last one is a BIT STRING. -/
structure Certificate where
  tbsCertificate : Tlv
  signatureAlgorithm : Tlv
  signatureValue : Tlv
  tbsCertificate_field : tbsCertificate.field.length ≤ 5
  signatureAlgorithm_field : signatureAlgorithm.field.length ≤ 5
  signatureValue_field : signatureValue.field.length ≤ 5
  bitString : signatureValue.tag = 0x03

namespace Certificate

/-- What the outer sequence contains. -/
def content (c : Certificate) : Bytes :=
  c.tbsCertificate.bytes ++ (c.signatureAlgorithm.bytes ++ c.signatureValue.bytes)

/-- What the outer sequence contains with another signature. -/
def contentWith (c : Certificate) (newSig : Bytes) : Bytes :=
  c.tbsCertificate.bytes ++ (c.signatureAlgorithm.bytes ++ tlv 0x03 (0x00 :: newSig))

end Certificate

/-- The loop goes past a value that is not the third. -/
theorem replaceFrom_skip {der newSig : Bytes} {pos fieldIdx : Nat} {fields : List Nat} {t : Tlv}
    (hat : StandsAt der pos t.bytes) (hfield : t.field.length ≤ 5) (hidx : fieldIdx ≠ 2) :
    replaceFrom der newSig pos (fieldIdx :: fields) =
      replaceFrom der newSig (pos + t.bytes.length) fields := by
  have hlen := hat.le_length_of_ne_nil (List.cons_ne_nil _ _)
  rw [t.length_bytes] at hlen
  rw [replaceFrom, if_neg (by omega), derTlvLens_eq hat hfield, ok_bind]
  exact if_neg hidx

/-- The third value is replaced and the length of the sequence written again. -/
theorem replaceFrom_signature {newSig field before : Bytes} {n : Nat} {t : Tlv}
    (h : EncodesLength field n) (hfield : field.length ≤ 5) (htfield : t.field.length ≤ 5)
    (htag : t.tag = 0x03)
    (hlt : (before ++ tlv 0x03 (0x00 :: newSig)).length < 0x10000) :
    replaceFrom (0x30 :: (field ++ (before ++ t.bytes))) newSig
        (1 + field.length + before.length) [2] =
      ok (tlv 0x30 (before ++ tlv 0x03 (0x00 :: newSig))) := by
  have hat : StandsAt (0x30 :: (field ++ (before ++ t.bytes)))
      (1 + field.length + before.length) t.bytes := by
    have hall : StandsAt (0x30 :: (field ++ (before ++ t.bytes))) 0
        (0x30 :: (field ++ (before ++ t.bytes))) := standsAt_zero.mpr (List.prefix_refl _)
    rw [standsAt_cons, standsAt_append, standsAt_append, Nat.zero_add] at hall
    exact hall.2.2.2
  have hlen := hat.le_length_of_ne_nil (List.cons_ne_nil _ _)
  have hindex : (index (0x30 :: (field ++ (before ++ t.bytes)))
      (1 + field.length + before.length) : Outcome CertError UInt8) = ok 0x03 := by
    have hhead := (standsAt_cons.mp hat).1
    rw [htag] at hhead
    exact index_eq_ok.mpr hhead
  have hsig : (0x00 :: newSig).length < 0x10000 := by
    rw [List.length_append, tlv, List.length_cons, List.length_append] at hlt
    omega
  have hsplice : splice (0x30 :: (field ++ (before ++ t.bytes)))
      (1 + field.length + before.length) (1 + field.length + before.length + t.bytes.length)
      (tlv 0x03 (0x00 :: newSig)) =
        ok (0x30 :: (field ++ (before ++ tlv 0x03 (0x00 :: newSig)))) := by
    have hsplit := splice_eq (0x30 :: (field ++ before)) t.bytes [] (tlv 0x03 (0x00 :: newSig))
    simp only [List.length_cons, List.length_append, List.append_nil, List.cons_append,
      List.append_assoc] at hsplit
    rwa [show field.length + before.length + 1 = 1 + field.length + before.length by omega]
      at hsplit
  rw [t.length_bytes] at hlen
  rw [replaceFrom, if_neg (by omega), derTlvLens_eq hat htfield, ok_bind]
  dsimp only
  rw [if_pos rfl, hindex, ok_bind, if_neg (not_not.mpr rfl), derEncodeTlv_eq 0x03 (Nat.lt_trans hsig (by decide)), hsplice,
    ok_bind]
  exact derFixOuterSequenceLength_eq h hfield hlt

/-- **Signatures.**  The signature of a certificate is replaced and its outer sequence has
again the length field of DER, of whatever size the two length fields are. -/
theorem replaceSignatureInCertDer_eq (c : Certificate) (newSig : Bytes)
    (hold : c.content.length < 65536) (hnew : (c.contentWith newSig).length < 65536) :
    replaceSignatureInCertDer (tlv 0x30 c.content) newSig =
      ok (tlv 0x30 (c.contentWith newSig)) := by
  obtain ⟨field, hfield⟩ : ∃ field, field = lengthField c.content.length := ⟨_, rfl⟩
  have hencodes : EncodesLength field c.content.length := by
    rw [hfield]
    exact encodesLength_lengthField (Nat.lt_trans hold (by decide))
  have hshort : field.length ≤ 5 := by
    rw [hfield]
    exact Nat.le_trans (length_lengthField_le (k := 2) hold) (by decide)
  obtain ⟨der, hder⟩ : ∃ der, der = 0x30 :: (field ++ c.content) := ⟨_, rfl⟩
  have hall : StandsAt der 0 (0x30 :: (field ++ c.content)) := by
    rw [hder]
    exact standsAt_zero.mpr (List.prefix_refl _)
  rw [standsAt_cons, standsAt_append, Certificate.content, standsAt_append, standsAt_append] at hall
  obtain ⟨-, hlength, htbs, halg, -⟩ := hall
  have hstart := derTlvContentStart_eq hlength hencodes hshort
  have hthird := @replaceFrom_signature newSig field
    (c.tbsCertificate.bytes ++ c.signatureAlgorithm.bytes) _ c.signatureValue hencodes hshort
    c.signatureValue_field c.bitString (by rw [List.append_assoc]; exact hnew)
  rw [List.append_assoc, List.append_assoc, List.length_append] at hthird
  have hreplace : replaceSignatureInCertDer der newSig =
      derTlvContentStart der 0 >>= fun start => replaceFrom der newSig start (List.range 3) := by
    rw [hder]
    unfold replaceSignatureInCertDer
    exact if_neg (not_not.mpr rfl)
  rw [tlv, ← hfield, ← hder, hreplace, hstart, ok_bind, show List.range 3 = [0, 1, 2] from rfl,
    replaceFrom_skip htbs c.tbsCertificate_field (by decide),
    replaceFrom_skip halg c.signatureAlgorithm_field (by decide), hder]
  rw [Nat.zero_add, Nat.add_assoc (1 + field.length)]
  exact hthird

/-- A certificate of two empty sequences and a signature of one byte. -/
def emptyCertificate : Certificate where
  tbsCertificate := ⟨0x30, [0], [], .short (by decide)⟩
  signatureAlgorithm := ⟨0x30, [0], [], .short (by decide)⟩
  signatureValue := ⟨0x03, [2], [0, 1], .short (by decide)⟩
  tbsCertificate_field := by decide
  signatureAlgorithm_field := by decide
  signatureValue_field := by decide
  bitString := rfl

/-- With a signature of 200 bytes the length field of the sequence grows by one byte. -/
theorem replaceSignatureInCertDer_eq_emptyCertificate :
    replaceSignatureInCertDer (tlv 0x30 emptyCertificate.content) (List.replicate 200 7) =
      ok (tlv 0x30 (emptyCertificate.contentWith (List.replicate 200 7))) :=
  replaceSignatureInCertDer_eq emptyCertificate (List.replicate 200 7) (by decide)
    (by decide +kernel)

end Ruproxy.Vless
