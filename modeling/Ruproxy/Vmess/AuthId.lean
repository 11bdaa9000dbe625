/-
  Vmess/AuthId.lean --- how fresh an auth id has to be.

  `validate_auth_id` subtracts the clock from the time stamp, which is any `i64`, and
  takes the absolute value.  Of the differences that do not fit, only the one whose
  wrapped value is `i64::MIN` stays negative under `abs`; a build without overflow
  checks takes it for fresh, a build with them panics there and on all the others.
-/
import Ruproxy.Vmess.RequestHeader

set_option autoImplicit false

namespace Ruproxy.Vmess

open Ruproxy.Foundation
open Ruproxy.Foundation.Outcome

/-! ## The property -/

/-- The decrypted auth id. -/
def authIdPlain (crypto : HeaderCrypto) (authId cmdKey : Bytes) : Vector UInt8 16 :=
  crypto.aesDecryptBlock (kdf16 crypto.toCrypto cmdKey [kdfAuthId]) authId

/-- The time stamp of a decrypted auth id. -/
def authIdTs (plain : Vector UInt8 16) : Int64 := i64OfBe (plain.toList.take 8)

/-- The stored checksum matches. -/
def CrcMatches (crypto : HeaderCrypto) (plain : Vector UInt8 16) : Prop :=
  crypto.crc32 (plain.toList.take 12) = u32OfArray (plain.drop 12)

instance (crypto : HeaderCrypto) (plain : Vector UInt8 16) :
    Decidable (CrcMatches crypto plain) := inferInstanceAs (Decidable (_ = _))

/-- The time stamp is at most two minutes from the clock. -/
def Fresh (plain : Vector UInt8 16) (now : UInt64) : Prop :=
  |(authIdTs plain).toInt - (now.toNat : Int)| ≤ 120

/-! ## The difference of two times -/

theorem toInt_abs (x : Int64) :
    x.abs.toInt = if x = Int64.minValue then -2 ^ 63 else |x.toInt| := by
  split
  · rename_i hx
    rw [hx]
    rfl
  · rename_i hx
    have hne : x.toBitVec ≠ BitVec.intMin 64 := fun h => hx (Int64.toBitVec_inj.mp h)
    have habs : x.abs.toInt = x.toInt.natAbs := BitVec.toInt_abs_eq_natAbs_of_ne_intMin hne
    rw [habs, Int.natCast_natAbs]

theorem toInt_toInt64 {now : UInt64} (hnow : now.toNat < 2 ^ 62) :
    now.toInt64.toInt = now.toNat := by
  apply BitVec.toInt_eq_toNat_of_lt
  have hbits : now.toInt64.toBitVec.toNat = now.toNat := rfl
  omega

section Difference

variable {ts now : Int64} (hlo : 0 ≤ now.toInt) (hhi : now.toInt < 2 ^ 62)
include hlo hhi

theorem sub_eq_minValue_iff :
    ts - now = Int64.minValue ↔ ts.toInt = now.toInt - 2 ^ 63 := by
  have hts := ts.le_toInt
  have hts' := ts.toInt_lt
  rw [← Int64.toInt_inj, Int64.toInt_sub, Int64.toInt_minValue, Int.bmod_def]
  omega

/-- **Wrapping.**  The wrapped difference looks fresh exactly if the difference is, or if
it is `-2^63`. -/
theorem abs_sub_gt_iff :
    (ts - now).abs > 120 ↔
      ¬ |ts.toInt - now.toInt| ≤ 120 ∧ ts.toInt ≠ now.toInt - 2 ^ 63 := by
  have hts := ts.le_toInt
  have hts' := ts.toInt_lt
  have h120 : (120 : Int64).toInt = 120 := rfl
  have hmin := @sub_eq_minValue_iff ts now hlo hhi
  rw [gt_iff_lt, Int64.lt_iff_toInt_lt, h120, toInt_abs]
  split
  · rename_i h
    exact iff_of_false (by decide) fun hne => hne.2 (hmin.mp h)
  · rename_i h
    rw [hmin] at h
    rw [Int64.toInt_sub, Int.bmod_def, abs_le, lt_abs]
    omega

/-- A build with overflow checks computes the difference unless it is `-2^63` or less. -/
theorem absI64_subI64_checked :
    (subI64 true ts now >>= absI64 true) =
      if ts.toInt ≤ now.toInt - 2 ^ 63 then panic else ok (ts - now).abs := by
  have hts := ts.le_toInt
  have hts' := ts.toInt_lt
  have hfits : (ts - now).toInt = ts.toInt - now.toInt ↔ now.toInt - 2 ^ 63 ≤ ts.toInt := by
    rw [Int64.toInt_sub, Int.bmod_def]
    omega
  have hmin := @sub_eq_minValue_iff ts now hlo hhi
  unfold subI64
  rcases lt_trichotomy ts.toInt (now.toInt - 2 ^ 63) with hlt | heq | hgt
  · rw [if_pos ⟨rfl, fun h => by omega⟩, if_pos (by omega), panic_bind]
  · rw [if_neg (fun h => h.2 (hfits.mpr (by omega))), if_pos (by omega), ok_bind, absI64,
      if_pos ⟨rfl, hmin.mpr heq⟩]
  · rw [if_neg (fun h => h.2 (hfits.mpr (by omega))), if_neg (by omega), ok_bind, absI64,
      if_neg (fun h => by have := hmin.mp h.2; omega)]

omit hlo hhi in
theorem absI64_subI64_unchecked :
    (subI64 false ts now >>= absI64 false) = ok (ts - now).abs := by
  simp [subI64, absI64]

end Difference

/-! ## The check -/

theorem tryInto_stored (plain : Vector UInt8 16) :
    tryInto 4 (plain.toList.drop 12) = some (plain.drop 12) := by
  rw [tryInto_eq_some, Vector.toList_drop]

section Check

variable {crypto : HeaderCrypto} {checks : Bool} {now : UInt64} {authId cmdKey : Bytes}

theorem validateAuthId_of_crc (hcrc : CrcMatches crypto (authIdPlain crypto authId cmdKey)) :
    validateAuthId crypto ⟨some now, checks⟩ authId cmdKey =
      (subI64 checks (authIdTs (authIdPlain crypto authId cmdKey)) now.toInt64 >>=
        absI64 checks) >>= fun age => if age > 120 then err .authIdStale else ok () := by
  unfold validateAuthId
  unfold CrcMatches at hcrc
  dsimp only
  rw [← authIdPlain, tryInto_stored, unwrap_some, ok_bind, if_neg (not_not.mpr hcrc),
    orErr_some, ok_bind, authIdTs]
  cases subI64 checks (i64OfBe ((authIdPlain crypto authId cmdKey).toList.take 8))
    now.toInt64 with
  | ok d => rfl
  | err e => rfl
  | panic => rfl

theorem validateAuthId_of_not_crc
    (hcrc : ¬ CrcMatches crypto (authIdPlain crypto authId cmdKey)) :
    validateAuthId crypto ⟨some now, checks⟩ authId cmdKey = err .authIdBadChecksum := by
  unfold validateAuthId
  unfold CrcMatches at hcrc
  dsimp only
  rw [← authIdPlain, tryInto_stored, unwrap_some, ok_bind, if_pos hcrc]

variable (hnow : now.toNat < 2 ^ 62)
include hnow

/-- What a build without overflow checks accepts. -/
theorem validateAuthId_unchecked_eq_ok_iff :
    validateAuthId crypto ⟨some now, false⟩ authId cmdKey = ok () ↔
      CrcMatches crypto (authIdPlain crypto authId cmdKey) ∧
        (Fresh (authIdPlain crypto authId cmdKey) now ∨
          (authIdTs (authIdPlain crypto authId cmdKey)).toInt = now.toNat - 2 ^ 63) := by
  by_cases hcrc : CrcMatches crypto (authIdPlain crypto authId cmdKey)
  · have hint := toInt_toInt64 hnow
    have hgt := @abs_sub_gt_iff (authIdTs (authIdPlain crypto authId cmdKey)) now.toInt64
      (by omega) (by omega)
    rw [hint] at hgt
    rw [validateAuthId_of_crc hcrc, absI64_subI64_unchecked, ok_bind, guard_eq_ok, hgt, Fresh]
    simp [hcrc, or_iff_not_imp_left]
  · rw [validateAuthId_of_not_crc hcrc]
    simp [hcrc]

/-- What a build with overflow checks accepts. -/
theorem validateAuthId_checked_eq_ok_iff :
    validateAuthId crypto ⟨some now, true⟩ authId cmdKey = ok () ↔
      CrcMatches crypto (authIdPlain crypto authId cmdKey) ∧
        Fresh (authIdPlain crypto authId cmdKey) now := by
  by_cases hcrc : CrcMatches crypto (authIdPlain crypto authId cmdKey)
  · have hint := toInt_toInt64 hnow
    have hgt := @abs_sub_gt_iff (authIdTs (authIdPlain crypto authId cmdKey)) now.toInt64
      (by omega) (by omega)
    rw [validateAuthId_of_crc hcrc, absI64_subI64_checked (by omega) (by omega)]
    rw [hint] at hgt ⊢
    split
    · rename_i hle
      refine iff_of_false (by simp) fun h => ?_
      have hfresh := abs_le.mp h.2
      omega
    · rename_i hle
      rw [ok_bind, guard_eq_ok, hgt, Fresh]
      constructor
      · rintro ⟨hage, -⟩
        refine ⟨hcrc, not_not.mp fun hfresh => hage ⟨hfresh, ?_⟩⟩
        omega
      · rintro ⟨-, hfresh⟩
        exact ⟨fun hage => hage.1 hfresh, rfl⟩
  · rw [validateAuthId_of_not_crc hcrc]
    simp [hcrc]

/-- A build with overflow checks panics where the difference is `-2^63` or less. -/
theorem validateAuthId_checked_ne_panic_iff :
    validateAuthId crypto ⟨some now, true⟩ authId cmdKey ≠ panic ↔
      (CrcMatches crypto (authIdPlain crypto authId cmdKey) →
        (now.toNat : Int) - 2 ^ 63 < (authIdTs (authIdPlain crypto authId cmdKey)).toInt) := by
  by_cases hcrc : CrcMatches crypto (authIdPlain crypto authId cmdKey)
  · have hint := toInt_toInt64 hnow
    rw [validateAuthId_of_crc hcrc, absI64_subI64_checked (by omega) (by omega), hint]
    split
    · rename_i hle
      exact iff_of_false (fun h => h rfl) fun h => absurd (h hcrc) (not_lt.mpr hle)
    · rename_i hle
      refine iff_of_true ?_ fun _ => not_le.mp hle
      rw [ok_bind]
      split <;> simp
  · rw [validateAuthId_of_not_crc hcrc]
    simp [hcrc]

omit hnow in
theorem validateAuthId_unchecked_ne_panic :
    validateAuthId crypto ⟨some now, false⟩ authId cmdKey ≠ panic := by
  by_cases hcrc : CrcMatches crypto (authIdPlain crypto authId cmdKey)
  · rw [validateAuthId_of_crc hcrc, absI64_subI64_unchecked, ok_bind]
    split <;> simp
  · rw [validateAuthId_of_not_crc hcrc]
    simp

/-- **Freshness.**  For every decrypted auth id and every time below `2^62`, the check
accepts what it should, and nothing else, exactly if a build without overflow checks does
not meet the difference `-2^63`; and a build with overflow checks decides exactly if the
difference is more than that. -/
theorem validateAuthId_fresh_iff (platform : Platform) (hclock : platform.now = some now) :
    ((validateAuthId crypto platform authId cmdKey = ok () ↔
        CrcMatches crypto (authIdPlain crypto authId cmdKey) ∧
          Fresh (authIdPlain crypto authId cmdKey) now) ↔
      (CrcMatches crypto (authIdPlain crypto authId cmdKey) → platform.overflowChecks = false →
        (authIdTs (authIdPlain crypto authId cmdKey)).toInt ≠ now.toNat - 2 ^ 63)) ∧
    (validateAuthId crypto platform authId cmdKey ≠ panic ↔
      (CrcMatches crypto (authIdPlain crypto authId cmdKey) → platform.overflowChecks = true →
        (now.toNat : Int) - 2 ^ 63 < (authIdTs (authIdPlain crypto authId cmdKey)).toInt)) := by
  obtain ⟨clock, checks⟩ := platform
  obtain rfl : clock = some now := hclock
  cases checks with
  | false =>
    refine ⟨?_, iff_of_true validateAuthId_unchecked_ne_panic fun _ h => by cases h⟩
    rw [validateAuthId_unchecked_eq_ok_iff hnow]
    have hstale : Fresh (authIdPlain crypto authId cmdKey) now →
        (authIdTs (authIdPlain crypto authId cmdKey)).toInt ≠ now.toNat - 2 ^ 63 := by
      intro hfresh heq
      have := abs_le.mp hfresh
      omega
    constructor
    · intro hiff hcrc _ heq
      exact hstale (hiff.mp ⟨hcrc, .inr heq⟩).2 heq
    · intro hne
      exact and_congr_right fun hcrc => or_iff_left (hne hcrc rfl)
  | true =>
    rw [validateAuthId_checked_ne_panic_iff hnow, validateAuthId_checked_eq_ok_iff hnow]
    simp

end Check

/-! ## Instances -/

/-- A time stamp of `2^63` seconds before 1700000000, with its checksum. -/
def wrappedPlain : Vector UInt8 16 :=
  #v[0x80, 0, 0, 0, 0x65, 0x53, 0xf1, 0, 0, 0, 0, 0, 0x4f, 0xea, 0x3e, 0xc6]

/-- Primitives under which an auth id decrypts to that time stamp. -/
def wrappedCrypto : HeaderCrypto where
  encrypt _ _ _ plain := some (plain ++ List.replicate 16 0)
  decrypt _ _ _ ct := some (ct.take (ct.length - 16))
  md5 _ := 0
  hmacSha256 _ _ := 0
  shake128 _ _ := 0
  aesGcmOpen _ _ _ ct := some (ct.take (ct.length - 16))
  aesDecryptBlock _ _ := wrappedPlain
  sha256 _ := 0
  crc32 b := if b = wrappedPlain.toList.take 12 then 0x4fea3ec6 else 0

/-- A build without overflow checks accepts it. -/
theorem validateAuthId_wrapped :
    ¬ ∀ (crypto : HeaderCrypto) (platform : Platform) (now : UInt64) (authId cmdKey : Bytes),
      platform.now = some now → now.toNat < 2 ^ 62 →
      (validateAuthId crypto platform authId cmdKey = ok () ↔
        CrcMatches crypto (authIdPlain crypto authId cmdKey) ∧
          Fresh (authIdPlain crypto authId cmdKey) now) := by
  intro hall
  have hiff := hall wrappedCrypto ⟨some 1700000000, false⟩ 1700000000 (List.replicate 16 0)
    (List.replicate 16 0) rfl (by decide)
  have hok : validateAuthId wrappedCrypto ⟨some 1700000000, false⟩ (List.replicate 16 0)
      (List.replicate 16 0) = ok () := by decide
  have hfresh := abs_le.mp (hiff.mp hok).2
  have hts : (authIdTs (authIdPlain wrappedCrypto (List.replicate 16 0)
      (List.replicate 16 0))).toInt = 1700000000 - 2 ^ 63 := by decide
  rw [hts] at hfresh
  exact absurd hfresh.1 (by decide)

/-- The check at the same auth id on a build with overflow checks. -/
theorem validateAuthId_fresh_iff_wrapped :
    validateAuthId wrappedCrypto ⟨some 1700000000, true⟩ (List.replicate 16 0)
      (List.replicate 16 0) = panic := by
  by_contra hne
  have hiff := (@validateAuthId_fresh_iff wrappedCrypto 1700000000 (List.replicate 16 0)
    (List.replicate 16 0) (by decide) ⟨some 1700000000, true⟩ rfl).2
  have hlt := hiff.mp hne (by decide) rfl
  exact absurd hlt (by decide)

end Ruproxy.Vmess
