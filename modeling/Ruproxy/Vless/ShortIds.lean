/-
  Vless/ShortIds.lean --- which short ids `verify_reality_client` admits.

  `build` checks when the server starts that the configured short ids are well formed,
  which leaves the loop of the verification with one question: a client is admitted whose
  short id begins with a configured one.  The client's id has 8 bytes, a configured one
  may have fewer, and the bytes behind it are not looked at.
-/
import Ruproxy.Vless.Peek

set_option autoImplicit false

namespace Ruproxy.Vless

open Ruproxy.Foundation
open Ruproxy.Foundation.Outcome

section Build

variable (crypto : RealityCrypto) (cfg : RealityConfig)

/-! ## The configuration -/

/-- The loop of `build` over `short_ids`. -/
def checkShortIds : List String → Outcome RealityError Unit
  | [] => return ()
  | sidHex :: shortIds => do
      let sid ← orErr (.shortIdHex sidHex) (crypto.hexDecode sidHex)
      if 8 < sid.length then err (.shortIdTooLong sidHex)
      else checkShortIds shortIds

/-- `build`, up to its placeholder configuration. -/
def build : Outcome RealityError Unit := do
  let privBytes ← orErr .privateKeyBase64 (base64UrlDecode crypto cfg.privateKey)
  if privBytes.length ≠ 32 then err .privateKeyLength
  else checkShortIds crypto cfg.shortIds

/-! ## The client -/

/-- The bytes are a ClientHello that agrees on a key, under which its session id decrypts. -/
structure DecryptsTo (x : Bytes) (authKey : Vector UInt8 32) (plaintext : Bytes) : Prop where
  length : 80 ≤ x.length
  handshake : x[0]? = some 0x16
  clientHello : x[5]? = some 0x01
  sessionIdLen : x[43]? = some 32
  agreed : ∃ share priv, extractX25519FromKeyShare x = ok share ∧
    base64UrlDecode crypto cfg.privateKey = some priv.toList ∧
    crypto.hkdfSha256 ((helloRandom x).take 20) (crypto.diffieHellman priv share).toList
      realityInfo = some authKey
  opened : ∃ useAes, (cipherSuitePrefersAes x : Outcome RealityError Bool) = ok useAes ∧
    openSessionId crypto useAes authKey ((helloRandom x).drop 20) (associatedData x)
      ((x.drop 44).take 32) = ok plaintext

/-- A configured short id stands, padded with zeros, behind the first 8 bytes. -/
def PaddedMatch (plaintext : Bytes) : Prop :=
  ∃ sidHex ∈ cfg.shortIds, ∃ sid, crypto.hexDecode sidHex = some sid ∧
    sid ++ List.replicate (8 - sid.length) 0 = (plaintext.drop 8).take 8

/-- A configured short id begins what stands behind the first 8 bytes. -/
def BeginsMatch (plaintext : Bytes) : Prop :=
  ∃ sidHex ∈ cfg.shortIds, ∃ sid, crypto.hexDecode sidHex = some sid ∧
    sid <+: (plaintext.drop 8).take 8

end Build

variable {crypto : RealityCrypto} {cfg : RealityConfig}

theorem checkShortIds_eq_ok_iff {shortIds : List String} :
    checkShortIds crypto shortIds = ok () ↔
      ∀ s ∈ shortIds, ∃ b, crypto.hexDecode s = some b ∧ b.length ≤ 8 := by
  induction shortIds with
  | nil => simp [checkShortIds]
  | cons sidHex shortIds ih =>
    rw [checkShortIds, bind_eq_ok, List.forall_mem_cons]
    constructor
    · rintro ⟨sid, hdecode, h⟩
      obtain ⟨hlen, h⟩ := guard_eq_ok.mp h
      exact ⟨⟨sid, orErr_eq_ok.mp hdecode, Nat.le_of_not_lt hlen⟩, ih.mp h⟩
    · rintro ⟨⟨sid, hdecode, hlen⟩, h⟩
      exact ⟨sid, orErr_eq_ok.mpr hdecode, guard_eq_ok.mpr ⟨Nat.not_lt.mpr hlen, ih.mpr h⟩⟩

/-- Of well-formed short ids any one may be the one that is admitted. -/
theorem admitted_iff {shortIds : List String} {plaintext : Bytes}
    (hformed : ∀ s ∈ shortIds, ∃ b, crypto.hexDecode s = some b ∧ b.length ≤ 8) :
    Admitted crypto shortIds plaintext ↔
      ∃ sidHex ∈ shortIds, ∃ sid, crypto.hexDecode sidHex = some sid ∧
        sid <+: plaintext.drop 8 := by
  constructor
  · rintro ⟨before, sidHex, after, sid, rfl, -, hdecode, -, hpre⟩
    exact ⟨sidHex, by simp, sid, hdecode, hpre⟩
  · rintro ⟨sidHex, hmem, sid, hdecode, hpre⟩
    obtain ⟨b, hb, hlen⟩ := hformed sidHex hmem
    obtain rfl := Option.some.inj (hdecode.symm.trans hb)
    obtain ⟨before, after, rfl⟩ := List.append_of_mem hmem
    exact ⟨before, sidHex, after, sid, rfl,
      fun s hs => hformed s (List.mem_append_left _ hs), hdecode, hlen, hpre⟩

/-- Behind the decryption the short ids decide. -/
theorem DecryptsTo.verify_eq {x plaintext : Bytes} {authKey : Vector UInt8 32}
    (h : DecryptsTo crypto cfg x authKey plaintext) :
    verifyRealityClient crypto cfg x =
      matchShortIds crypto plaintext cfg.shortIds >>= fun _ => ok authKey := by
  obtain ⟨share, priv, hshare, hpriv, hkey⟩ := h.agreed
  obtain ⟨useAes, haes, hopen⟩ := h.opened
  rw [verifyRealityClient_eq h.length h.handshake h.clientHello h.sessionIdLen,
    mapErr_eq_ok.mpr hshare, ok_bind, hpriv, orErr_some, ok_bind,
    if_neg (not_not.mpr priv.length_toList), tryInto_eq_some.mpr rfl, unwrap_some, ok_bind, hkey,
    orErr_some, ok_bind, haes, ok_bind, hopen, ok_bind]
  rfl

/-- **Short ids.**  Under a configuration that `build` accepts, a client whose session id
decrypts to 16 bytes is accepted exactly if a configured short id begins its own. -/
theorem verifyRealityClient_accepts_iff (hbuild : build crypto cfg = ok ()) {x plaintext : Bytes}
    {authKey : Vector UInt8 32} (h : DecryptsTo crypto cfg x authKey plaintext)
    (hlen : plaintext.length = 16) :
    (∃ key, verifyRealityClient crypto cfg x = ok key) ↔ BeginsMatch crypto cfg plaintext := by
  obtain ⟨privBytes, -, hcheck⟩ := bind_eq_ok.mp hbuild
  have hformed := checkShortIds_eq_ok_iff.mp (guard_eq_ok.mp hcheck).2
  have hid : (plaintext.drop 8).take 8 = plaintext.drop 8 :=
    List.take_of_length_le (by rw [List.length_drop]; omega)
  have haccepts : (∃ key, verifyRealityClient crypto cfg x = ok key) ↔
      matchShortIds crypto plaintext cfg.shortIds = ok () := by
    rw [h.verify_eq]
    constructor
    · rintro ⟨key, hkey⟩
      obtain ⟨⟨⟩, hmatch, -⟩ := bind_eq_ok.mp hkey
      exact hmatch
    · intro hmatch
      exact ⟨authKey, bind_eq_ok.mpr ⟨(), hmatch, rfl⟩⟩
  rw [haccepts, matchShortIds_eq_ok_iff, admitted_iff hformed, BeginsMatch, hid]

/-! ## A client with a longer short id -/

/-- Crypto under which the session id of `plainHello` decrypts to the short id `abcd`. -/
def abcdCrypto : RealityCrypto where
  base64UrlSafeNoPad _ := some (List.replicate 32 0)
  base64Standard _ := none
  hexDecode s := if s = "ab" then some [0xab] else none
  diffieHellman _ share := share
  hkdfSha256 _ _ _ := some (.replicate 32 0)
  aes256GcmOpen _ _ _ _ := some (List.replicate 8 0 ++ [0xab, 0xcd, 0, 0, 0, 0, 0, 0])
  chacha20Poly1305Open _ _ _ _ := none

/-- A server that admits the short id `ab`. -/
def abConfig : RealityConfig := ⟨"", ["ab"]⟩

/-- What the session id decrypts to. -/
def abcdPlaintext : Bytes := List.replicate 8 0 ++ [0xab, 0xcd, 0, 0, 0, 0, 0, 0]

theorem decryptsTo_plainHello :
    DecryptsTo abcdCrypto abConfig plainHello (.replicate 32 0) abcdPlaintext where
  length := by
    rw [plainHello_length]
    decide
  handshake := rfl
  clientHello := rfl
  sessionIdLen := by decide
  agreed := ⟨.replicate 32 5, .replicate 32 0, by decide +kernel, by decide +kernel, rfl⟩
  opened := ⟨true, by decide +kernel, rfl⟩

theorem verifyRealityClient_accepts_iff_plainHello :
    (∃ key, verifyRealityClient abcdCrypto abConfig plainHello = ok key) ↔
      BeginsMatch abcdCrypto abConfig abcdPlaintext :=
  verifyRealityClient_accepts_iff (by decide +kernel) decryptsTo_plainHello (by decide)

/-- The short id `abcd` is accepted where `ab` is configured. -/
theorem not_accepts_iff_padded :
    ¬ ∀ (crypto : RealityCrypto) (cfg : RealityConfig) (x plaintext : Bytes)
      (authKey : Vector UInt8 32), build crypto cfg = ok () →
      DecryptsTo crypto cfg x authKey plaintext → plaintext.length = 16 →
      ((∃ key, verifyRealityClient crypto cfg x = ok key) ↔ PaddedMatch crypto cfg plaintext) := by
  intro hall
  have hiff := hall abcdCrypto abConfig plainHello abcdPlaintext (.replicate 32 0)
    (by decide +kernel) decryptsTo_plainHello (by decide)
  obtain ⟨sidHex, hmem, sid, hdecode, hpadded⟩ := hiff.mp ⟨.replicate 32 0, by decide +kernel⟩
  obtain rfl := List.mem_singleton.mp hmem
  obtain rfl : [0xab] = sid := Option.some.inj hdecode
  exact absurd hpadded (by decide)

end Ruproxy.Vless
