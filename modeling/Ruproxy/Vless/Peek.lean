/-
  Vless/Peek.lean --- the one peek of `accept` and the record it stands for.

  A ClientHello record may arrive in pieces, or with bytes of the client behind it, and
  `accept` decides on whatever its single peek returns.  The key agreed on is the same
  then, but the associated data of the session id are not: they end where the peeked
  bytes end.  So a Reality client, who seals its session id over its record, is taken for
  one exactly if the peek is the record and nothing else.
-/
import Ruproxy.Vless.KeyShare
import Ruproxy.Vless.Reality

set_option autoImplicit false

namespace Ruproxy.Vless

open Ruproxy.Foundation
open Ruproxy.Foundation.Outcome

/-- `r` is a ClientHello record at the start of what a client sends, and `p` is what a peek
into a buffer of 2048 bytes returns of it. -/
structure PeekOf (r p : Bytes) : Prop where
  handshake : r[0]? = some 0x16
  clientHello : r[5]? = some 0x01
  delimited : ∃ hi lo, r[3]? = some hi ∧ r[4]? = some lo ∧ r.length = 5 + (u16OfBe hi lo).toNat
  record : r.length ≤ 2048
  nonempty : p ≠ []
  buffer : p.length ≤ 2048
  along : p <+: r ∨ r <+: p

variable {crypto : RealityCrypto} {cfg : RealityConfig}

/-! ## The client -/

/-- `Aes256Gcm::encrypt` and `ChaCha20Poly1305::encrypt` of a plaintext with associated data,
which a client uses; the server opens what they give and nothing else. -/
structure ClientCiphers (crypto : RealityCrypto) where
  aes256GcmSeal : Vector UInt8 32 → Bytes → Bytes → Bytes → Bytes
  chacha20Poly1305Seal : Vector UInt8 32 → Bytes → Bytes → Bytes → Bytes
  aes256GcmOpen_iff : ∀ key nonce aad sessionId plaintext,
    crypto.aes256GcmOpen key nonce aad sessionId = some plaintext ↔
      sessionId = aes256GcmSeal key nonce aad plaintext
  chacha20Poly1305Open_iff : ∀ key nonce aad sessionId plaintext,
    crypto.chacha20Poly1305Open key nonce aad sessionId = some plaintext ↔
      sessionId = chacha20Poly1305Seal key nonce aad plaintext

/-- The seal of one of the two ciphers. -/
def ClientCiphers.seal (ciphers : ClientCiphers crypto) (useAes : Bool) (key : Vector UInt8 32)
    (nonce aad plaintext : Bytes) : Bytes :=
  if useAes then ciphers.aes256GcmSeal key nonce aad plaintext
  else ciphers.chacha20Poly1305Seal key nonce aad plaintext

/-- The key that client and server agree on by the key share of the hello. -/
def AgreedKey (crypto : RealityCrypto) (cfg : RealityConfig) (x : Bytes)
    (authKey : Vector UInt8 32) : Prop :=
  ∃ share priv, extractX25519FromKeyShare x = ok share ∧
    base64UrlDecode crypto cfg.privateKey = some priv.toList ∧
    crypto.hkdfSha256 ((helloRandom x).take 20) (crypto.diffieHellman priv share).toList
      realityInfo = some authKey

/-- `x` is the hello of a Reality client: its session id is the seal of an admitted plaintext over
`x`, under the key agreed on. -/
structure ClientCiphers.MadeByClient (ciphers : ClientCiphers crypto) (cfg : RealityConfig)
    (x : Bytes) : Prop where
  length : 80 ≤ x.length
  handshake : x[0]? = some 0x16
  clientHello : x[5]? = some 0x01
  sessionIdLen : x[43]? = some 32
  sealed : ∃ authKey useAes plaintext, AgreedKey crypto cfg x authKey ∧
    (cipherSuitePrefersAes x : Outcome RealityError Bool) = ok useAes ∧
    (x.drop 44).take 32 =
      ciphers.seal useAes authKey ((helloRandom x).drop 20) (associatedData x) plaintext ∧
    Admitted crypto cfg.shortIds plaintext

/-- The ciphers authenticate the associated data: the session id of `r` does not open both with
those of `r` and with others, those of `p`. -/
def BindsAad (crypto : RealityCrypto) (cfg : RealityConfig) (r p : Bytes) : Prop :=
  ∀ useAes authKey plaintext plaintext', AgreedKey crypto cfg r authKey →
    openSessionId crypto useAes authKey ((helloRandom r).drop 20) (associatedData r)
      ((r.drop 44).take 32) = ok plaintext →
    openSessionId crypto useAes authKey ((helloRandom r).drop 20) (associatedData p)
      ((r.drop 44).take 32) = ok plaintext' →
    associatedData p = associatedData r

theorem ClientCiphers.openSessionId_eq_ok_iff (ciphers : ClientCiphers crypto) {useAes : Bool}
    {authKey : Vector UInt8 32} {nonce aad sessionId plaintext : Bytes} :
    openSessionId crypto useAes authKey nonce aad sessionId = ok plaintext ↔
      sessionId = ciphers.seal useAes authKey nonce aad plaintext := by
  cases useAes with
  | true => exact orErr_eq_ok.trans (ciphers.aes256GcmOpen_iff ..)
  | false => exact orErr_eq_ok.trans (ciphers.chacha20Poly1305Open_iff ..)

/-- The server takes a hello for that of a Reality client exactly if it is one. -/
theorem ClientCiphers.madeByClient_iff (ciphers : ClientCiphers crypto) {x : Bytes} :
    ciphers.MadeByClient cfg x ↔ SealedOver crypto cfg x := by
  constructor
  · rintro ⟨hlen, h0, h5, h43, authKey, useAes, plaintext, hagreed, haes, hsid, hadmitted⟩
    exact ⟨authKey, hlen, h0, h5, h43, hagreed, useAes, plaintext, haes,
      ciphers.openSessionId_eq_ok_iff.mpr hsid, hadmitted⟩
  · rintro ⟨authKey, hlen, h0, h5, h43, hagreed, useAes, plaintext, haes, hopen, hadmitted⟩
    exact ⟨hlen, h0, h5, h43, authKey, useAes, plaintext, hagreed, haes,
      ciphers.openSessionId_eq_ok_iff.mp hopen, hadmitted⟩

/-! ## Two seals in one stream -/

section Prefix

variable {x y : Bytes} {authKey authKey' : Vector UInt8 32}

/-- Of two hellos in one stream the session id was sealed under one key, by one cipher and with
one nonce. -/
theorem RealityHello.opened_along (hx : RealityHello crypto cfg x authKey)
    (hy : RealityHello crypto cfg y authKey') (h : x <+: y) :
    authKey' = authKey ∧ helloRandom y = helloRandom x ∧
      (y.drop 44).take 32 = (x.drop 44).take 32 ∧
      ∃ useAes plaintext plaintext',
        openSessionId crypto useAes authKey ((helloRandom x).drop 20) (associatedData x)
          ((x.drop 44).take 32) = ok plaintext ∧
        openSessionId crypto useAes authKey ((helloRandom x).drop 20) (associatedData y)
          ((x.drop 44).take 32) = ok plaintext' := by
  have hlen := hx.length
  obtain ⟨share, priv, hshare, hpriv, hkey⟩ := hx.agreed
  obtain ⟨share', priv', hshare', hpriv', hkey'⟩ := hy.agreed
  rw [extractX25519FromKeyShare_below h _ hshare] at hshare'
  cases hshare'
  rw [hpriv] at hpriv'
  have hpriv : priv = priv' := Vector.toList_inj.mp (Option.some.inj hpriv')
  have hrandom : helloRandom y = helloRandom x := take_drop_of_prefix h (by omega)
  have hsid : (y.drop 44).take 32 = (x.drop 44).take 32 := take_drop_of_prefix h (by omega)
  rw [hrandom, ← hpriv, hkey] at hkey'
  cases hkey'
  obtain ⟨useAes, plaintext, haes, hopen, -⟩ := hx.sealed
  obtain ⟨useAes', plaintext', haes', hopen', -⟩ := hy.sealed
  rw [cipherSuitePrefersAes_below h hshare _ haes] at haes'
  cases haes'
  rw [hrandom, hsid] at hopen'
  exact ⟨rfl, hrandom, hsid, useAes, plaintext, plaintext', hopen, hopen'⟩

end Prefix

/-- The associated data are as long as what is behind the record header. -/
theorem length_associatedData {x : Bytes} (hlen : 80 ≤ x.length) :
    (associatedData x).length = x.length - 5 := by
  simp only [associatedData, List.length_append, List.length_take, List.length_drop,
    List.length_replicate]
  omega

/-- A stream does not carry the hellos of two Reality clients. -/
theorem eq_of_sealedOver {r p : Bytes} (halong : p <+: r ∨ r <+: p)
    (hbinds : BindsAad crypto cfg r p) (hr : SealedOver crypto cfg r)
    (hp : SealedOver crypto cfg p) : p = r := by
  obtain ⟨authKey, hr⟩ := hr
  obtain ⟨authKey', hp⟩ := hp
  have haad : associatedData p = associatedData r := by
    rcases halong with h | h
    · obtain ⟨rfl, hrandom, hsid, useAes, plaintext', plaintext, hopen', hopen⟩ :=
        hp.opened_along hr h
      rw [← hrandom, ← hsid] at hopen hopen'
      exact hbinds useAes authKey plaintext plaintext' hr.agreed hopen hopen'
    · obtain ⟨rfl, -, -, useAes, plaintext, plaintext', hopen, hopen'⟩ := hr.opened_along hp h
      exact hbinds useAes _ plaintext plaintext' hr.agreed hopen hopen'
  have hlen := congrArg List.length haad
  have hplen := hp.length
  have hrlen := hr.length
  rw [length_associatedData hp.length, length_associatedData hr.length] at hlen
  rcases halong with h | h
  · exact h.eq_of_length (by omega)
  · exact (h.eq_of_length (by omega)).symm

/-! ## The branch of a peek -/

/-- **The peek.**  Its branch is that of the record exactly if it is the record, or if neither of
the two is the hello of a Reality client. -/
theorem accept_peek_iff (ciphers : ClientCiphers crypto) (cfg : RealityConfig) {r p : Bytes}
    (h : PeekOf r p) (hbinds : BindsAad crypto cfg r p) :
    accept crypto cfg p = branchOf (verifyRealityClient crypto cfg r) ↔
      p = r ∨ (¬ ciphers.MadeByClient cfg r ∧ ¬ ciphers.MadeByClient cfg p) := by
  change accept crypto cfg p = accept crypto cfg r ↔ _
  rw [ciphers.madeByClient_iff, ciphers.madeByClient_iff]
  constructor
  · intro heq
    have hforward : accept crypto cfg p = ok .forwardToDest ↔ ¬ SealedOver crypto cfg p :=
      accept_eq_forward_iff
    rw [heq, accept_eq_forward_iff, not_iff_not] at hforward
    by_cases hr : SealedOver crypto cfg r
    · exact .inl (eq_of_sealedOver h.along hbinds hr (hforward.mp hr))
    · exact .inr ⟨hr, fun hp => hr (hforward.mpr hp)⟩
  · rintro (rfl | ⟨hr, hp⟩)
    · rfl
    · rw [accept_eq_forward_iff.mpr hp, accept_eq_forward_iff.mpr hr]

/-- **A cut hello.**  A peek that ends inside a well-formed hello is always forwarded, and so it is
right exactly where the hello is not that of a Reality client. -/
theorem accept_cut_iff (ciphers : ClientCiphers crypto) (cfg : RealityConfig) (h : ClientHello)
    {p : Bytes} (hp : p <+: h.bytes) (hne : p ≠ h.bytes) :
    accept crypto cfg p = branchOf (verifyRealityClient crypto cfg h.bytes) ↔
      ¬ ciphers.MadeByClient cfg h.bytes := by
  have hcut : ¬ SealedOver crypto cfg p := by
    rintro ⟨authKey, hsealed⟩
    obtain ⟨share, -, hshare, -⟩ := hsealed.agreed
    exact hne (h.eq_of_extract_eq_ok hp hshare)
  rw [accept_eq_forward_iff.mpr hcut, ciphers.madeByClient_iff, ← accept_eq_forward_iff]
  exact eq_comm

/-! ## A ClientHello in two pieces -/

/-- A ClientHello with an X25519 key share and nothing else. -/
def plainHello : Bytes :=
  [0x16, 3, 1, 0, 121, 1, 0, 0, 117, 3, 3] ++ List.replicate 32 7 ++ [32] ++
    List.replicate 32 9 ++ [0, 2, 0x13, 0x01, 1, 0, 0, 42, 0, 0x33, 0, 38, 0, 36, 0, 0x1d, 0, 32] ++
    List.replicate 32 5

/-- Ciphers that open what was sealed with associated data as long as those of the hello. -/
def lengthCrypto : RealityCrypto where
  base64UrlSafeNoPad _ := some (List.replicate 32 0)
  base64Standard _ := none
  hexDecode _ := some []
  diffieHellman _ share := share
  hkdfSha256 _ _ _ := some (.replicate 32 0)
  aes256GcmOpen _ _ aad sessionId := if aad.length = 121 then some (sessionId.take 16) else none
  chacha20Poly1305Open _ _ _ _ := none

/-- A server that admits the empty short id. -/
def openConfig : RealityConfig := ⟨"", [""]⟩

theorem plainHello_length : plainHello.length = 126 := by
  simp [plainHello]

theorem peekOf_take {r : Bytes} (hlen : r.length = 126) (h0 : r[0]? = some 0x16)
    (h3 : r[3]? = some 0) (h4 : r[4]? = some 121) (h5 : r[5]? = some 0x01) {n : Nat}
    (hn : 0 < n) : PeekOf r (r.take n) where
  handshake := h0
  clientHello := h5
  delimited := by
    refine ⟨0, 121, h3, h4, ?_⟩
    rw [hlen]
    decide
  record := by omega
  nonempty := by
    rw [← List.length_pos_iff, List.length_take]
    omega
  buffer := by
    rw [List.length_take]
    omega
  along := .inl (List.take_prefix _ _)

/-- The tag of associated data. -/
def lengthTag (aad : Bytes) : Bytes := List.replicate 16 (UInt8.ofNat (aad.length - 112))

/-- What stands in front of the tag. -/
def openTagged (aad sessionId : Bytes) : Option Bytes :=
  if sessionId.drop (sessionId.length - 16) = lengthTag aad then
    some (sessionId.take (sessionId.length - 16))
  else none

theorem openTagged_iff (aad sessionId plaintext : Bytes) :
    openTagged aad sessionId = some plaintext ↔ sessionId = plaintext ++ lengthTag aad := by
  rw [openTagged]
  constructor
  · intro h
    obtain ⟨htag, h⟩ := Option.ite_none_right_eq_some.mp h
    rw [← Option.some.inj h, ← htag, List.take_append_drop]
  · rintro rfl
    have htag : (lengthTag aad).length = 16 := List.length_replicate
    rw [List.length_append, htag, Nat.add_sub_cancel, List.drop_left, if_pos rfl, List.take_left]

/-- Ciphers that put a tag behind the plaintext. -/
def tagCrypto : RealityCrypto where
  base64UrlSafeNoPad _ := some (List.replicate 32 0)
  base64Standard _ := none
  hexDecode _ := some []
  diffieHellman _ share := share
  hkdfSha256 _ _ _ := some (.replicate 32 0)
  aes256GcmOpen _ _ aad sessionId := openTagged aad sessionId
  chacha20Poly1305Open _ _ aad sessionId := openTagged aad sessionId

/-- What a client uses. -/
def tagCiphers : ClientCiphers tagCrypto where
  aes256GcmSeal _ _ aad plaintext := plaintext ++ lengthTag aad
  chacha20Poly1305Seal _ _ aad plaintext := plaintext ++ lengthTag aad
  aes256GcmOpen_iff _ _ := openTagged_iff
  chacha20Poly1305Open_iff _ _ := openTagged_iff

/-- No session id has two tags. -/
theorem tagCrypto_bindsAad {r p : Bytes}
    (hne : lengthTag (associatedData p) ≠ lengthTag (associatedData r)) :
    BindsAad tagCrypto openConfig r p := by
  intro useAes authKey plaintext plaintext' _ hopen hopen'
  have hseal : ∀ {aad sessionId plaintext}, openSessionId tagCrypto useAes authKey
      ((helloRandom r).drop 20) aad sessionId = ok plaintext →
      sessionId = plaintext ++ lengthTag aad := by
    intro aad sessionId plaintext h
    cases useAes <;> exact (openTagged_iff ..).mp (orErr_eq_ok.mp h)
  have hsame := (hseal hopen').symm.trans (hseal hopen)
  exact absurd (List.append_inj' hsame (by simp [lengthTag])).2 hne

/-- `plainHello` with a session id that is no seal. -/
def browserHello : Bytes := plainHello.take 44 ++ List.replicate 32 8 ++ plainHello.drop 76

/-- Of a hello that comes in two pieces, the first is right for a browser and wrong for a Reality
client. -/
theorem accept_peek_iff_split :
    accept tagCrypto openConfig (browserHello.take 100) =
      branchOf (verifyRealityClient tagCrypto openConfig browserHello) ∧
    accept tagCrypto openConfig (plainHello.take 100) ≠
      branchOf (verifyRealityClient tagCrypto openConfig plainHello) := by
  constructor
  · refine (accept_peek_iff tagCiphers openConfig (peekOf_take (by decide +kernel) rfl rfl rfl rfl
      (by decide)) (tagCrypto_bindsAad (by decide +kernel))).mpr (.inr ⟨?_, ?_⟩)
    · rw [tagCiphers.madeByClient_iff, ← accept_eq_forward_iff]
      decide +kernel
    · rw [tagCiphers.madeByClient_iff, ← accept_eq_forward_iff]
      decide +kernel
  · intro h
    rcases (accept_peek_iff tagCiphers openConfig (peekOf_take plainHello_length rfl rfl rfl rfl
      (by decide)) (tagCrypto_bindsAad (by decide +kernel))).mp h with hwhole | ⟨hclient, -⟩
    · exact absurd (congrArg List.length hwhole) (by decide +kernel)
    · rw [tagCiphers.madeByClient_iff] at hclient
      exact hclient ⟨.replicate 32 0, verifyRealityClient_eq_ok_iff.mp (by decide +kernel)⟩

/-- With 26 bytes missing, a Reality client is forwarded. -/
theorem not_accept_peek_split :
    ¬ ∀ (crypto : RealityCrypto) (_ : ClientCiphers crypto) (cfg : RealityConfig) (r p : Bytes),
      PeekOf r p → accept crypto cfg p = branchOf (verifyRealityClient crypto cfg r) := by
  intro h
  have hsplit := h tagCrypto tagCiphers openConfig plainHello _
    (peekOf_take plainHello_length rfl rfl rfl rfl (show 0 < 100 by decide))
  revert hsplit
  decide +kernel

end Ruproxy.Vless
