/-
  Vless/Reality.lean --- `verify_reality_client` and `accept` of `vless/tls/reality.rs`.

  A Reality client seals a short id into the session id of its ClientHello.  The key
  comes from the X25519 key share of the hello, and the associated data are the bytes
  behind the record header with the session id set to zero.  `accept` looks at the
  bytes of one peek: a seal that opens makes the connection a Reality one, anything
  else is forwarded to `dest`.

  `RealityHello` says what a seal is without the order of the checks, and
  `verifyRealityClient_eq_ok_iff` that the function looks for just that.  X25519,
  HKDF-SHA256, the two AEAD ciphers, base64 and hex come from crates outside the
  repository and are a parameter.
-/
import Ruproxy.Vless.ClientHello

set_option autoImplicit false

namespace Ruproxy.Vless

open Ruproxy.Foundation
open Ruproxy.Foundation.Outcome

/-- The functions taken from other crates. -/
structure RealityCrypto where
  /-- `URL_SAFE_NO_PAD.decode` -/
  base64UrlSafeNoPad : String → Option Bytes
  /-- `STANDARD.decode` of base64 -/
  base64Standard : String → Option Bytes
  /-- `hex::decode` -/
  hexDecode : String → Option Bytes
  /-- `StaticSecret::diffie_hellman` -/
  diffieHellman : X25519Key → X25519Key → X25519Key
  /-- `Hkdf::<Sha256>` of a salt and a key, expanded with an info to 32 bytes -/
  hkdfSha256 : Bytes → Bytes → Bytes → Option (Vector UInt8 32)
  /-- `Aes256Gcm::decrypt` under a key and a nonce, of a message with associated data -/
  aes256GcmOpen : Vector UInt8 32 → Bytes → Bytes → Bytes → Option Bytes
  /-- `ChaCha20Poly1305::decrypt`, likewise -/
  chacha20Poly1305Open : Vector UInt8 32 → Bytes → Bytes → Bytes → Option Bytes

/-- The fields of `RealityConfig` that are read here. -/
structure RealityConfig where
  privateKey : String
  shortIds : List String

/-! ## Errors -/

/-- The ways in which a ClientHello is not that of a Reality client. -/
inductive RealityError where
  | recordTooShort
  | notHandshake (type : UInt8)
  | notClientHello
  | sessionIdLen (len : UInt8)
  | keyShare (cause : KeyShareError)
  | privateKeyBase64
  | privateKeyLength
  | hkdfExpand
  | aesGcm
  | chaCha20Poly1305
  | shortIdHex (sidHex : String)
  | shortIdTooLong (sidHex : String)
  | shortIdMismatch
  deriving DecidableEq

/-- The text of an error; one with a cause shows its context only. -/
def RealityError.text : RealityError → String
  | .recordTooShort => "record 太短，不是合法 ClientHello"
  | .notHandshake type => "非 TLS Handshake record (type=0x" ++ hex type.toNat ++ ")"
  | .notClientHello => "非 ClientHello"
  | .sessionIdLen len =>
      "session_id_len=" ++ dec len.toNat ++ " != 32，不是 uTLS Reality 客户端"
  | .keyShare _ => "从 KeyShare 扩展提取 x25519 公钥失败"
  | .privateKeyBase64 => "解码 private_key"
  | .privateKeyLength => "private_key 须为 32 字节"
  | .hkdfExpand => "HKDF expand 失败"
  | .aesGcm => "AES-GCM 解密失败，非 Reality 客户端"
  | .chaCha20Poly1305 => "ChaCha20-Poly1305 解密失败，非 Reality 客户端"
  | .shortIdHex sidHex => "解码 short_id '" ++ sidHex ++ "'"
  | .shortIdTooLong sidHex => "short_id '" ++ sidHex ++ "' 超过 8 字节"
  | .shortIdMismatch => "short_id 不匹配"

section Verify

variable (crypto : RealityCrypto) (cfg : RealityConfig)

/-! ## The verification -/

/-- `base64_url_decode`. -/
def base64UrlDecode (s : String) : Option Bytes :=
  match crypto.base64UrlSafeNoPad (trim s) with
  | some v => some v
  | none => crypto.base64Standard (trim s)

/-- `[i..j].fill(0)`. -/
def fillZero (b : Bytes) (i j : Nat) : Outcome RealityError Bytes :=
  if i ≤ j ∧ j ≤ b.length then
    ok (b.take i ++ List.replicate (j - i) 0 ++ b.drop j)
  else panic

/-- The decryption of the session id by one of the two ciphers. -/
def openSessionId (useAes : Bool) (authKey : Vector UInt8 32) (nonce aad sessionId : Bytes) :
    Outcome RealityError Bytes :=
  if useAes then orErr .aesGcm (crypto.aes256GcmOpen authKey nonce aad sessionId)
  else orErr .chaCha20Poly1305 (crypto.chacha20Poly1305Open authKey nonce aad sessionId)

/-- The loop over `short_ids`. -/
def matchShortIds (plaintext : Bytes) : List String → Outcome RealityError Unit
  | [] => err .shortIdMismatch
  | sidHex :: shortIds => do
      let sidBytes ← orErr (.shortIdHex sidHex) (crypto.hexDecode sidHex)
      let n := sidBytes.length
      if 8 < n then err (.shortIdTooLong sidHex)
      else if n = 0 then return ()
      else if 8 + n ≤ plaintext.length then
        if (← slice plaintext 8 (8 + n)) = sidBytes then return ()
        else matchShortIds plaintext shortIds
      else matchShortIds plaintext shortIds

/-- The info of the HKDF. -/
def realityInfo : Bytes := asBytes "REALITY"

/-- `verify_reality_client`. -/
def verifyRealityClient (record : Bytes) : Outcome RealityError (Vector UInt8 32) :=
  if record.length < sidOffset + 32 + 4 then err .recordTooShort
  else do
    let type ← index record 0
    if type ≠ 0x16 then err (.notHandshake type)
    else
    let message ← index record recordHdr
    if message ≠ 0x01 then err .notClientHello
    else
    let sidLen ← index record sidLenOffset
    if sidLen ≠ 32 then err (.sessionIdLen sidLen)
    else
    let random ← slice record randomOffset (randomOffset + randomLen)
    let sessionId ← slice record sidOffset (sidOffset + 32)
    let ecdhePub ← (extractX25519FromKeyShare record).mapErr .keyShare
    let privBytes ← orErr .privateKeyBase64 (base64UrlDecode crypto cfg.privateKey)
    if privBytes.length ≠ 32 then err .privateKeyLength
    else
    let serverPrivate ← unwrap (tryInto 32 privBytes)
    let rawAuthKey := crypto.diffieHellman serverPrivate ecdhePub
    let salt ← slice random 0 20
    let authKey ← orErr .hkdfExpand (crypto.hkdfSha256 salt rawAuthKey.toList realityInfo)
    let nonce ← slice random 20 32
    let useAes ← cipherSuitePrefersAes record
    let aadSidStart := sidOffset - recordHdr
    let aad ← fillZero (← slice record recordHdr record.length) aadSidStart (aadSidStart + 32)
    let plaintext ← openSessionId crypto useAes authKey nonce aad sessionId
    matchShortIds crypto plaintext cfg.shortIds
    return authKey

/-- What `accept` does with the bytes of its peek. -/
inductive Branch where
  /-- a handshake with a certificate made for the key -/
  | reality (authKey : Vector UInt8 32)
  | forwardToDest
  deriving DecidableEq

/-- The `match` of `accept`. -/
def branchOf : Outcome RealityError (Vector UInt8 32) → Outcome RealityError Branch
  | ok authKey => ok (.reality authKey)
  | err _ => ok .forwardToDest
  | .panic => .panic

/-- `accept`, on the bytes of its peek. -/
def accept (clientHello : Bytes) : Outcome RealityError Branch :=
  branchOf (verifyRealityClient crypto cfg clientHello)

/-! ## What a seal is -/

/-- The random of the hello. -/
def helloRandom (x : Bytes) : Bytes := (x.drop 11).take 32

/-- The bytes behind the record header, with the session id set to zero. -/
def associatedData (x : Bytes) : Bytes := (x.drop 5).take 39 ++ List.replicate 32 0 ++ x.drop 76

/-- A short id is admitted that the plaintext has behind its first 8 bytes.  The ids before
it have to be well formed. -/
def Admitted (shortIds : List String) (plaintext : Bytes) : Prop :=
  ∃ before sidHex after sid, shortIds = before ++ sidHex :: after ∧
    (∀ s ∈ before, ∃ b, crypto.hexDecode s = some b ∧ b.length ≤ 8) ∧
    crypto.hexDecode sidHex = some sid ∧ sid.length ≤ 8 ∧ sid <+: plaintext.drop 8

/-- The bytes are a ClientHello that agrees on the key and whose session id is sealed
over these bytes. -/
structure RealityHello (x : Bytes) (authKey : Vector UInt8 32) : Prop where
  length : 80 ≤ x.length
  handshake : x[0]? = some 0x16
  clientHello : x[5]? = some 0x01
  sessionIdLen : x[43]? = some 32
  agreed : ∃ share priv, extractX25519FromKeyShare x = ok share ∧
    base64UrlDecode crypto cfg.privateKey = some priv.toList ∧
    crypto.hkdfSha256 ((helloRandom x).take 20) (crypto.diffieHellman priv share).toList
      realityInfo = some authKey
  sealed : ∃ useAes plaintext, (cipherSuitePrefersAes x : Outcome RealityError Bool) = ok useAes ∧
    openSessionId crypto useAes authKey ((helloRandom x).drop 20) (associatedData x)
      ((x.drop 44).take 32) = ok plaintext ∧ Admitted crypto cfg.shortIds plaintext

/-- The session id is sealed over these bytes. -/
def SealedOver (x : Bytes) : Prop := ∃ authKey, RealityHello crypto cfg x authKey

end Verify

variable {crypto : RealityCrypto} {cfg : RealityConfig}

/-! ## The short ids -/

theorem matchShortIds_ne_panic (plaintext : Bytes) (shortIds : List String) :
    matchShortIds crypto plaintext shortIds ≠ panic := by
  induction shortIds with
  | nil => simp [matchShortIds]
  | cons sidHex shortIds ih =>
    unfold matchShortIds
    refine bind_ne_panic (orErr_ne_panic _ _) fun sid _ => ?_
    dsimp only
    split
    · simp
    split
    · simp
    split
    · refine bind_ne_panic (slice_ne_panic (by omega) (by omega)) fun s _ => ?_
      split
      · simp
      · exact ih
    · exact ih

/-- A slice behind 8 bytes that is a short id. -/
theorem slice_eq_iff_prefix {plaintext sid : Bytes} (hsid : sid.length ≠ 0) :
    (8 + sid.length ≤ plaintext.length ∧
      (slice plaintext 8 (8 + sid.length) : Outcome RealityError Bytes) = ok sid) ↔
      sid <+: plaintext.drop 8 := by
  rw [slice_eq_ok, Nat.add_sub_cancel_left, List.prefix_iff_eq_take]
  constructor
  · rintro ⟨-, -, h⟩
    exact h.symm
  · intro h
    have hlen := congrArg List.length h
    rw [List.length_take, List.length_drop] at hlen
    exact ⟨by omega, ⟨by omega, by omega⟩, h.symm⟩

/-- One turn of the loop over the short ids. -/
theorem matchShortIds_cons_eq_ok_iff {plaintext : Bytes} {sidHex : String}
    {shortIds : List String} :
    matchShortIds crypto plaintext (sidHex :: shortIds) = ok () ↔
      ∃ sid, crypto.hexDecode sidHex = some sid ∧ sid.length ≤ 8 ∧
        (sid <+: plaintext.drop 8 ∨ matchShortIds crypto plaintext shortIds = ok ()) := by
  rw [matchShortIds, bind_eq_ok]
  refine exists_congr fun sid => ?_
  rw [orErr_eq_ok]
  refine and_congr_right fun _ => ?_
  dsimp only
  split
  · rename_i hlong
    exact iff_of_false (by simp) fun h => absurd h.1 (by omega)
  rename_i hshort
  rw [and_iff_right (Nat.le_of_not_lt hshort)]
  split
  · rename_i hempty
    obtain rfl := List.length_eq_zero_iff.mp hempty
    simp
  rename_i hsid
  rw [← slice_eq_iff_prefix hsid]
  split
  · rename_i hlen
    rw [slice_of_le (by omega) hlen, ok_bind, Nat.add_sub_cancel_left]
    split
    · rename_i heq
      simp [hlen, heq]
    · rename_i hne
      simp [hne]
  · rename_i hlen
    simp [hlen]

theorem admitted_cons_iff {plaintext : Bytes} {sidHex : String} {shortIds : List String} :
    Admitted crypto (sidHex :: shortIds) plaintext ↔
      ∃ sid, crypto.hexDecode sidHex = some sid ∧ sid.length ≤ 8 ∧
        (sid <+: plaintext.drop 8 ∨ Admitted crypto shortIds plaintext) := by
  constructor
  · rintro ⟨before, sidHex', after, sid, hshortIds, hbefore, hdecode, hlen, hpre⟩
    cases before with
    | nil =>
      obtain ⟨rfl, rfl⟩ := List.cons.inj hshortIds
      exact ⟨sid, hdecode, hlen, .inl hpre⟩
    | cons s before =>
      obtain ⟨rfl, hrest⟩ := List.cons.inj hshortIds
      obtain ⟨b, hb, hblen⟩ := hbefore sidHex List.mem_cons_self
      exact ⟨b, hb, hblen, .inr ⟨before, sidHex', after, sid, hrest,
        fun s hs => hbefore s (List.mem_cons_of_mem _ hs), hdecode, hlen, hpre⟩⟩
  · rintro ⟨sid, hdecode, hlen, hpre | hrest⟩
    · exact ⟨[], sidHex, shortIds, sid, rfl, fun s hs => absurd hs List.not_mem_nil, hdecode,
        hlen, hpre⟩
    · obtain ⟨before, sidHex', after, sid', rfl, hbefore, hrest⟩ := hrest
      refine ⟨sidHex :: before, sidHex', after, sid', rfl, fun s hs => ?_, hrest⟩
      rcases List.mem_cons.mp hs with rfl | hs
      · exact ⟨sid, hdecode, hlen⟩
      · exact hbefore s hs

/-- The loop admits what it should. -/
theorem matchShortIds_eq_ok_iff {plaintext : Bytes} {shortIds : List String} :
    matchShortIds crypto plaintext shortIds = ok () ↔ Admitted crypto shortIds plaintext := by
  induction shortIds with
  | nil =>
    refine iff_of_false (by simp [matchShortIds]) ?_
    rintro ⟨before, sidHex, after, sid, hnil, -⟩
    cases before <;> cases hnil
  | cons sidHex shortIds ih => rw [matchShortIds_cons_eq_ok_iff, admitted_cons_iff, ih]

/-! ## The verification -/

theorem openSessionId_ne_panic (useAes : Bool) (authKey : Vector UInt8 32)
    (nonce aad sessionId : Bytes) :
    openSessionId crypto useAes authKey nonce aad sessionId ≠ panic := by
  unfold openSessionId
  split
  · exact orErr_ne_panic _ _
  · exact orErr_ne_panic _ _

/-- What is left of the verification behind the checks of the first bytes. -/
theorem verifyRealityClient_eq {x : Bytes} (hlen : 80 ≤ x.length) (h0 : x[0]? = some 0x16)
    (h5 : x[5]? = some 0x01) (h43 : x[43]? = some 32) :
    verifyRealityClient crypto cfg x = (do
      let ecdhePub ← (extractX25519FromKeyShare x).mapErr RealityError.keyShare
      let privBytes ← orErr .privateKeyBase64 (base64UrlDecode crypto cfg.privateKey)
      if privBytes.length ≠ 32 then err .privateKeyLength
      else
      let serverPrivate ← unwrap (tryInto 32 privBytes)
      let authKey ← orErr .hkdfExpand (crypto.hkdfSha256 ((helloRandom x).take 20)
        (crypto.diffieHellman serverPrivate ecdhePub).toList realityInfo)
      let useAes ← cipherSuitePrefersAes x
      let plaintext ← openSessionId crypto useAes authKey ((helloRandom x).drop 20)
        (associatedData x) ((x.drop 44).take 32)
      matchShortIds crypto plaintext cfg.shortIds
      return authKey) := by
  have hrandom : (helloRandom x).length = 32 := by
    rw [helloRandom, List.length_take, List.length_drop]
    omega
  have hsalt : (slice (helloRandom x) 0 20 : Outcome RealityError Bytes) =
      ok ((helloRandom x).take 20) := slice_of_le (by omega) (by omega)
  have hnonce : (slice (helloRandom x) 20 32 : Outcome RealityError Bytes) =
      ok ((helloRandom x).drop 20) := by
    rw [slice_of_le (by omega) (by omega), List.take_of_length_le]
    rw [List.length_drop]
    omega
  have hbehind : (slice x 5 x.length : Outcome RealityError Bytes) = ok (x.drop 5) := by
    rw [slice_of_le (by omega) (Nat.le_refl _), List.take_of_length_le]
    rw [List.length_drop]
  have haad : fillZero (x.drop 5) 39 71 = ok (associatedData x) := by
    have hle : 71 ≤ (x.drop 5).length := by
      rw [List.length_drop]
      omega
    rw [fillZero, if_pos ⟨by omega, hle⟩, List.drop_drop, associatedData]
  have hslice : (slice x 11 43 : Outcome RealityError Bytes) = ok (helloRandom x) :=
    slice_of_le (by omega) (by omega)
  have hsid : (slice x 44 76 : Outcome RealityError Bytes) = ok ((x.drop 44).take 32) :=
    slice_of_le (by omega) (by omega)
  have hshort : ¬ x.length < 44 + 32 + 4 := by omega
  unfold verifyRealityClient
  simp only [randomOffset_eq, sidLenOffset_eq, sidOffset_eq, recordHdr, randomLen, if_neg hshort,
    index_eq_ok.mpr h0, index_eq_ok.mpr h5, index_eq_ok.mpr h43, ok_bind, ne_eq, not_true,
    if_false, hslice, hsid, hsalt, hnonce, hbehind, haad]

/-- Without the first bytes of a ClientHello with a long session id there is an error. -/
theorem verifyRealityClient_of_not {x : Bytes}
    (h : ¬ (80 ≤ x.length ∧ x[0]? = some 0x16 ∧ x[5]? = some 0x01 ∧ x[43]? = some 32)) :
    ∃ e, verifyRealityClient crypto cfg x = err e := by
  unfold verifyRealityClient
  split
  · exact ⟨_, rfl⟩
  rename_i hlen
  rw [sidOffset_eq] at hlen
  have hlen : 80 ≤ x.length := by omega
  have hmessage : (index x recordHdr : Outcome RealityError UInt8) = ok x[5] :=
    index_of_lt (i := 5) (by omega)
  have hsidLen : (index x sidLenOffset : Outcome RealityError UInt8) = ok x[43] :=
    index_of_lt (i := 43) (by omega)
  rw [index_of_lt (by omega), ok_bind]
  split
  · exact ⟨_, rfl⟩
  rename_i h0
  rw [hmessage, ok_bind]
  split
  · exact ⟨_, rfl⟩
  rename_i h5
  rw [hsidLen, ok_bind]
  split
  · exact ⟨_, rfl⟩
  rename_i h43
  rw [not_not] at h0 h5 h43
  refine absurd ⟨hlen, ?_, ?_, ?_⟩ h
  · rw [List.getElem?_eq_getElem (by omega), h0]
  · rw [List.getElem?_eq_getElem (by omega), h5]
  · rw [List.getElem?_eq_getElem (by omega), h43]

/-- The verification panics on no bytes. -/
theorem verifyRealityClient_ne_panic (x : Bytes) : verifyRealityClient crypto cfg x ≠ panic := by
  rcases Classical.em
    (80 ≤ x.length ∧ x[0]? = some 0x16 ∧ x[5]? = some 0x01 ∧ x[43]? = some 32) with
    ⟨hlen, h0, h5, h43⟩ | hnot
  · rw [verifyRealityClient_eq hlen h0 h5 h43]
    refine bind_ne_panic (mapErr_ne_panic (extractX25519FromKeyShare_ne_panic x)) fun share _ => ?_
    refine bind_ne_panic (orErr_ne_panic _ _) fun priv _ => ?_
    split
    · simp
    rename_i hpriv
    rw [not_not] at hpriv
    rw [tryInto_of_length hpriv, unwrap_some, ok_bind]
    refine bind_ne_panic (orErr_ne_panic _ _) fun authKey _ => ?_
    refine bind_ne_panic (cipherSuitePrefersAes_ne_panic x) fun useAes _ => ?_
    refine bind_ne_panic (openSessionId_ne_panic _ _ _ _ _) fun plaintext _ => ?_
    exact bind_ne_panic (matchShortIds_ne_panic _ _) fun _ _ => by simp
  · obtain ⟨e, he⟩ := @verifyRealityClient_of_not crypto cfg x hnot
    rw [he]
    simp

/-- **The verification.**  It accepts the hellos that are sealed over their own bytes. -/
theorem verifyRealityClient_eq_ok_iff {x : Bytes} {authKey : Vector UInt8 32} :
    verifyRealityClient crypto cfg x = ok authKey ↔ RealityHello crypto cfg x authKey := by
  rcases Classical.em
    (80 ≤ x.length ∧ x[0]? = some 0x16 ∧ x[5]? = some 0x01 ∧ x[43]? = some 32) with
    ⟨hlen, h0, h5, h43⟩ | hnot
  · rw [verifyRealityClient_eq hlen h0 h5 h43]
    constructor
    · intro h
      obtain ⟨share, hshare, h⟩ := bind_eq_ok.mp h
      obtain ⟨privBytes, hpriv, h⟩ := bind_eq_ok.mp h
      split at h
      · cases h
      obtain ⟨priv, hinto, h⟩ := bind_eq_ok.mp h
      obtain ⟨key, hkey, h⟩ := bind_eq_ok.mp h
      obtain ⟨useAes, haes, h⟩ := bind_eq_ok.mp h
      obtain ⟨plaintext, hopen, h⟩ := bind_eq_ok.mp h
      obtain ⟨u, hmatch, h⟩ := bind_eq_ok.mp h
      cases h
      obtain rfl := tryInto_eq_some.mp (unwrap_eq_ok.mp hinto)
      exact ⟨hlen, h0, h5, h43,
        ⟨share, priv, mapErr_eq_ok.mp hshare, orErr_eq_ok.mp hpriv, orErr_eq_ok.mp hkey⟩,
        ⟨useAes, plaintext, haes, hopen, matchShortIds_eq_ok_iff.mp hmatch⟩⟩
    · intro h
      obtain ⟨share, priv, hshare, hpriv, hkey⟩ := h.agreed
      obtain ⟨useAes, plaintext, haes, hopen, hadmitted⟩ := h.sealed
      refine bind_eq_ok.mpr ⟨share, mapErr_eq_ok.mpr hshare, ?_⟩
      refine bind_eq_ok.mpr ⟨priv.toList, orErr_eq_ok.mpr hpriv, ?_⟩
      rw [if_neg (not_not.mpr priv.length_toList)]
      refine bind_eq_ok.mpr ⟨priv, unwrap_eq_ok.mpr (tryInto_eq_some.mpr rfl), ?_⟩
      refine bind_eq_ok.mpr ⟨authKey, orErr_eq_ok.mpr hkey, ?_⟩
      refine bind_eq_ok.mpr ⟨useAes, haes, bind_eq_ok.mpr ⟨plaintext, hopen, ?_⟩⟩
      exact bind_eq_ok.mpr ⟨(), matchShortIds_eq_ok_iff.mpr hadmitted, rfl⟩
  · obtain ⟨e, he⟩ := @verifyRealityClient_of_not crypto cfg x hnot
    rw [he]
    refine iff_of_false (by simp) fun h => hnot ?_
    exact ⟨h.length, h.handshake, h.clientHello, h.sessionIdLen⟩

/-- `accept` forwards the bytes that carry no seal. -/
theorem accept_eq_forward_iff {x : Bytes} :
    accept crypto cfg x = ok .forwardToDest ↔ ¬ SealedOver crypto cfg x := by
  have hseal : ∀ {authKey}, verifyRealityClient crypto cfg x = ok authKey ↔
      RealityHello crypto cfg x authKey := verifyRealityClient_eq_ok_iff
  unfold accept
  cases h : verifyRealityClient crypto cfg x with
  | ok authKey =>
    rw [h] at hseal
    exact iff_of_false (by simp [branchOf]) (not_not.mpr ⟨authKey, hseal.mp rfl⟩)
  | err e =>
    rw [h] at hseal
    refine iff_of_true rfl ?_
    rintro ⟨authKey, hsealed⟩
    cases hseal.mpr hsealed
  | panic => exact absurd h (verifyRealityClient_ne_panic x)

end Ruproxy.Vless
