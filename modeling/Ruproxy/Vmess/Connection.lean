/-
  Vmess/Connection.lean --- a VMess connection from its first byte to its last.

  `process` decodes the request, connects to the target, writes the response header and
  joins `relay_up` and `relay_down`.  A client that seals its header and its body in the
  format of the module, and opens what comes back in the same format, gets its bytes to the
  target and the bytes of the target back, for every header that it can write.

  The reads of the target are given, as they are for `relay_down`.
-/
import Ruproxy.Vmess.AuthId
import Ruproxy.Vmess.BodyRoundTrip
import Ruproxy.Vmess.HeaderGrammar

set_option autoImplicit false

namespace Ruproxy.Vmess

open Ruproxy.Foundation
open Ruproxy.Foundation.Outcome

/-- The primitives of a connection, beside those of the request header. -/
structure SessionCrypto extends HeaderCrypto where
  /-- `Aes128Gcm::encrypt` under a key and a nonce, with associated data -/
  aesGcmSeal : Bytes → Bytes → Bytes → Bytes → Option Bytes

/-- The documented behaviour of the primitives: every short message is sealed, with a tag of
16 bytes, opening it under the same key, nonce and associated data returns it, and nothing
but what sealing gives is opened. -/
structure SessionCrypto.Lawful (crypto : SessionCrypto) : Prop where
  body : crypto.toCrypto.Lawful
  seal_isSome : ∀ key nonce aad plain, plain.length < 2 ^ 36 →
    (crypto.aesGcmSeal key nonce aad plain).isSome
  seal_length : ∀ key nonce aad plain ct,
    crypto.aesGcmSeal key nonce aad plain = some ct → ct.length = plain.length + 16
  open_seal : ∀ key nonce aad plain ct,
    crypto.aesGcmSeal key nonce aad plain = some ct →
      crypto.aesGcmOpen key nonce aad ct = some plain
  seal_open : ∀ key nonce aad plain ct,
    crypto.aesGcmOpen key nonce aad ct = some plain →
      crypto.aesGcmSeal key nonce aad plain = some ct

theorem SessionCrypto.Lawful.sealed {crypto : SessionCrypto} (h : crypto.Lawful)
    (key nonce aad : Bytes) {plain : Bytes} (hlen : plain.length < 2 ^ 36) :
    ∃ ct, crypto.aesGcmSeal key nonce aad plain = some ct ∧ ct.length = plain.length + 16 ∧
      crypto.aesGcmOpen key nonce aad ct = some plain := by
  obtain ⟨ct, hct⟩ := Option.isSome_iff_exists.mp (h.seal_isSome key nonce aad plain hlen)
  exact ⟨ct, hct, h.seal_length _ _ _ _ _ hct, h.open_seal _ _ _ _ _ hct⟩

/-! ## The response header -/

/-- `KDF_RESP_LEN_KEY`. -/
def kdfRespLenKey : Bytes := "AEAD Resp Header Len Key".toUTF8.toList
/-- `KDF_RESP_LEN_IV`. -/
def kdfRespLenIv : Bytes := "AEAD Resp Header Len IV".toUTF8.toList
/-- `KDF_RESP_PAY_KEY`. -/
def kdfRespPayKey : Bytes := "AEAD Resp Header Key".toUTF8.toList
/-- `KDF_RESP_PAY_IV`. -/
def kdfRespPayIv : Bytes := "AEAD Resp Header IV".toUTF8.toList

/-- How a connection ended. -/
inductive ProcessError where
  /-- the decoder of the request failed, or it panicked -/
  | decode (e : Outcome HeaderError Unit)
  | connect
  /-- `aead encrypt` -/
  | aeadEncrypt
  deriving DecidableEq

section

variable (crypto : SessionCrypto)

/-- `encode_response_header`: what it writes, and its result. -/
def encodeResponseHeader (req : VmessRequest) : Bytes × Except ProcessError Unit :=
  let rk := req.responseBodyKey.toList
  let ri := req.responseBodyIv.toList
  let payload : Bytes := [req.responseToken, req.option, 0x00, 0x00]
  let lenKey := kdf16 crypto.toCrypto rk [kdfRespLenKey]
  let lenIv := kdf12 crypto.toCrypto ri [kdfRespLenIv]
  match crypto.aesGcmSeal lenKey lenIv [] (u16ToBe (UInt16.ofNat payload.length)) with
  | none => ([], .error .aeadEncrypt)
  | some encLen =>
      let payKey := kdf16 crypto.toCrypto rk [kdfRespPayKey]
      let payIv := kdf12 crypto.toCrypto ri [kdfRespPayIv]
      match crypto.aesGcmSeal payKey payIv [] payload with
      | none => (encLen, .error .aeadEncrypt)
      | some encPay => (encLen ++ encPay, .ok ())

/-! ## The connection -/

/-- What became of a connection. -/
structure Processed where
  /-- the target that it tried to connect to -/
  dialed : Option String
  toTarget : Bytes
  toClient : Bytes
  /-- the results of `relay_up` and `relay_down`, which are only logged -/
  result : Except ProcessError (Except BodyError Unit × Except BodyError Unit)

/-- `process`.  `connect` gives the reads of a target that is connected, and `rng` the
padding of `relay_down`. -/
def process (platform : Platform) (connect : String → Option (List Bytes))
    (rng : Nat → Nat → UInt8) (cmdKey client : Bytes) : Processed :=
  match decodeRequestHeader crypto.toHeaderCrypto platform cmdKey client with
  | .err e => ⟨none, [], [], .error (.decode (.err e))⟩
  | .panic => ⟨none, [], [], .error (.decode .panic)⟩
  | .ok (req, inR) =>
      match connect req.target with
      | none => ⟨some req.target, [], [], .error .connect⟩
      | some outR =>
          match encodeResponseHeader crypto req with
          | (header, .error e) => ⟨some req.target, [], header, .error e⟩
          | (header, .ok ()) =>
              let up := relayUp crypto.toCrypto req.requestBodyKey req.requestBodyIv req.option
                req.security inR
              let dn := relayDown crypto.toCrypto rng req.responseBodyKey req.responseBodyIv
                req.option req.security outR
              ⟨some req.target, up.written, header ++ dn.written, .ok (up.result, dn.result)⟩

/-! ## The client -/

/-- A header as a client seals it: the auth id, the length, the nonce, the header. -/
def sealHeader (cmdKey authId nonce header : Bytes) : Option Bytes := do
  let lenKey := kdf16 crypto.toCrypto cmdKey [kdfHdrLenKey, authId, nonce]
  let lenIv := kdf12 crypto.toCrypto cmdKey [kdfHdrLenIv, authId, nonce]
  let encLen ← crypto.aesGcmSeal lenKey lenIv authId (u16ToBe (UInt16.ofNat header.length))
  let hdrKey := kdf16 crypto.toCrypto cmdKey [kdfHdrKey, authId, nonce]
  let hdrIv := kdf12 crypto.toCrypto cmdKey [kdfHdrIv, authId, nonce]
  let encHdr ← crypto.aesGcmSeal hdrKey hdrIv authId header
  return authId ++ (encLen ++ (nonce ++ encHdr))

/-- A response header as a client of `key` and `iv` opens it, with what follows it. -/
def openResponse (key iv : Vector UInt8 16) (s : Bytes) : Option (Bytes × Bytes) := do
  let rk := (sha256x16 crypto.toHeaderCrypto key).toList
  let ri := (sha256x16 crypto.toHeaderCrypto iv).toList
  let (encLen, s) ← readExact 18 s
  let lenKey := kdf16 crypto.toCrypto rk [kdfRespLenKey]
  let lenIv := kdf12 crypto.toCrypto ri [kdfRespLenIv]
  let len ← crypto.aesGcmOpen lenKey lenIv [] encLen
  let (encPay, s) ← readExact (beValue len + 16) s
  let payKey := kdf16 crypto.toCrypto rk [kdfRespPayKey]
  let payIv := kdf12 crypto.toCrypto ri [kdfRespPayIv]
  let payload ← crypto.aesGcmOpen payKey payIv [] encPay
  return (payload, s)

end

/-! ## The headers -/

section

variable {crypto : SessionCrypto} {platform : Platform} {cmdKey authId nonce : Bytes}

/-- A header is never refused for its length. -/
theorem HeaderFields.encode_length_le (r : HeaderFields) :
    41 ≤ r.encode.length ∧ r.encode.length ≤ 2048 := by
  have hpadding := r.padding_le
  have haddr : r.addr.bytes.length ≤ 256 := by
    cases r.addr with
    | ipv4 octets => simp [HeaderAddr.bytes]
    | domain d short =>
      rw [HeaderAddr.bytes, List.length_cons]
      omega
    | ipv6 octets => simp [HeaderAddr.bytes]
  rw [HeaderFields.encode_length]
  omega

/-- Every header of a length that is not refused can be sealed. -/
theorem exists_sealHeader (hcrypto : crypto.Lawful) (cmdKey authId nonce : Bytes) {header : Bytes}
    (hmax : header.length ≤ 2048) :
    ∃ head, sealHeader crypto cmdKey authId nonce header = some head := by
  obtain ⟨encLen, hsealLen, -⟩ := hcrypto.sealed
    (kdf16 crypto.toCrypto cmdKey [kdfHdrLenKey, authId, nonce])
    (kdf12 crypto.toCrypto cmdKey [kdfHdrLenIv, authId, nonce]) authId
    (show (u16ToBe (UInt16.ofNat header.length)).length < 2 ^ 36 by simp)
  obtain ⟨encHdr, hsealHdr, -⟩ := hcrypto.sealed
    (kdf16 crypto.toCrypto cmdKey [kdfHdrKey, authId, nonce])
    (kdf12 crypto.toCrypto cmdKey [kdfHdrIv, authId, nonce]) authId
    (show header.length < 2 ^ 36 by omega)
  refine ⟨authId ++ (encLen ++ (nonce ++ encHdr)), ?_⟩
  simp only [sealHeader, hsealLen, hsealHdr, Option.bind_eq_bind, Option.bind_some]
  rfl

/-- **Sealed headers.**  What is opened is a header of 41 to 2048 bytes, sealed behind a valid
auth id, and everything behind it is left. -/
theorem openRequestHeader_eq_ok (hcrypto : crypto.Lawful) {s header rest : Bytes} :
    openRequestHeader crypto.toHeaderCrypto platform cmdKey s = ok (header, rest) ↔
      ∃ authId nonce head, authId.length = 16 ∧ nonce.length = 8 ∧
        validateAuthId crypto.toHeaderCrypto platform authId cmdKey = ok () ∧
          (41 ≤ header.length ∧ header.length ≤ 2048) ∧
            sealHeader crypto cmdKey authId nonce header = some head ∧ s = head ++ rest := by
  constructor
  · intro h
    obtain ⟨⟨authId, s1⟩, hid, h⟩ := bind_eq_ok.mp h
    obtain ⟨⟨⟩, hauth, h⟩ := bind_eq_ok.mp h
    obtain ⟨⟨encLen, s2⟩, hlen, h⟩ := bind_eq_ok.mp h
    obtain ⟨⟨nonce, s3⟩, hnonce, h⟩ := bind_eq_ok.mp h
    obtain ⟨plen, hplen, h⟩ := bind_eq_ok.mp h
    obtain ⟨a, ha, h⟩ := bind_eq_ok.mp h
    obtain ⟨b, hb, h⟩ := bind_eq_ok.mp h
    obtain ⟨hrange, h⟩ := guard_eq_ok.mp h
    obtain ⟨⟨encHdr, s4⟩, hhdr, h⟩ := bind_eq_ok.mp h
    obtain ⟨header', hopen, h⟩ := bind_eq_ok.mp h
    cases h
    obtain ⟨rfl, hidLen⟩ := readExact_eq_some.mp (orErr_eq_ok.mp hid)
    obtain ⟨rfl, hencLen⟩ := readExact_eq_some.mp (orErr_eq_ok.mp hlen)
    obtain ⟨rfl, hnonceLen⟩ := readExact_eq_some.mp (orErr_eq_ok.mp hnonce)
    obtain ⟨rfl, hencHdr⟩ := readExact_eq_some.mp (orErr_eq_ok.mp hhdr)
    have hsealLen := hcrypto.seal_open _ _ _ _ _ (orErr_eq_ok.mp hplen)
    have hsealHdr := hcrypto.seal_open _ _ _ _ _ (orErr_eq_ok.mp hopen)
    have hplain := hcrypto.seal_length _ _ _ _ _ hsealLen
    have hheader := hcrypto.seal_length _ _ _ _ _ hsealHdr
    -- the length field has two bytes, which are those of the length of the header
    have htwo : plen.length = 2 := by omega
    obtain ⟨x, y, rfl⟩ := List.length_eq_two.mp htwo
    obtain rfl : x = a := by simpa using index_eq_ok.mp ha
    obtain rfl : y = b := by simpa using index_eq_ok.mp hb
    rw [not_not] at hrange
    have hvalue : header.length = (u16OfBe x y).toNat := by omega
    have hbytes : u16ToBe (UInt16.ofNat header.length) = [x, y] := by
      rw [hvalue, UInt16.ofNat_toNat, u16ToBe_ofBe]
    refine ⟨authId, nonce, authId ++ (encLen ++ (nonce ++ encHdr)), hidLen, hnonceLen, hauth,
      by rwa [hvalue], ?_, by simp⟩
    simp only [sealHeader, hbytes, hsealLen, hsealHdr, Option.bind_eq_bind, Option.bind_some]
    rfl
  · rintro ⟨authId, nonce, head, hid, hnonce, hauth, hrange, hseal, rfl⟩
    obtain ⟨encLen, hsealLen, hseal⟩ := Option.bind_eq_some_iff.mp hseal
    obtain ⟨encHdr, hsealHdr, hseal⟩ := Option.bind_eq_some_iff.mp hseal
    obtain rfl := Option.some.inj hseal
    have hlenLen := hcrypto.seal_length _ _ _ _ _ hsealLen
    have hlenHdr := hcrypto.seal_length _ _ _ _ _ hsealHdr
    rw [u16ToBe_length] at hlenLen
    have hread : (u16OfBe (UInt8.ofNat ((UInt16.ofNat header.length).toNat / 256))
        (UInt8.ofNat (UInt16.ofNat header.length).toNat)).toNat = header.length := by
      rw [u16OfBe_toBe, UInt16.toNat_ofNat_of_lt' (show _ < 65536 by omega)]
    simp only [List.append_assoc]
    refine bind_eq_ok.mpr ⟨_, orErr_eq_ok.mpr (readExact_append hid _), ?_⟩
    refine bind_eq_ok.mpr ⟨(), hauth, ?_⟩
    refine bind_eq_ok.mpr ⟨_, orErr_eq_ok.mpr (readExact_append hlenLen _), ?_⟩
    refine bind_eq_ok.mpr ⟨_, orErr_eq_ok.mpr (readExact_append hnonce _), ?_⟩
    refine bind_eq_ok.mpr ⟨_, orErr_eq_ok.mpr (hcrypto.open_seal _ _ _ _ _ hsealLen), ?_⟩
    refine bind_eq_ok.mpr ⟨_, index_eq_ok.mpr rfl, bind_eq_ok.mpr ⟨_, index_eq_ok.mpr rfl, ?_⟩⟩
    dsimp only
    rw [hread, if_neg (not_not.mpr hrange)]
    refine bind_eq_ok.mpr ⟨_, orErr_eq_ok.mpr (readExact_append hlenHdr _), ?_⟩
    exact bind_eq_ok.mpr ⟨_, orErr_eq_ok.mpr (hcrypto.open_seal _ _ _ _ _ hsealHdr), rfl⟩

/-- **Requests.**  What is decoded is a request at the front of a sealed header, and everything
behind the header is left. -/
theorem decodeRequestHeader_eq_ok (hcrypto : crypto.Lawful) {s rest : Bytes}
    {req : VmessRequest} :
    decodeRequestHeader crypto.toHeaderCrypto platform cmdKey s = ok (req, rest) ↔
      ∃ authId nonce header head, authId.length = 16 ∧ nonce.length = 8 ∧
        validateAuthId crypto.toHeaderCrypto platform authId cmdKey = ok () ∧
          (41 ≤ header.length ∧ header.length ≤ 2048) ∧
            sealHeader crypto cmdKey authId nonce header = some head ∧ s = head ++ rest ∧
              ∃ r : HeaderFields, r.encode <+: header ∧ req = r.request crypto.toHeaderCrypto := by
  constructor
  · intro h
    obtain ⟨⟨header, rest'⟩, hopen, h⟩ := bind_eq_ok.mp h
    obtain ⟨req', hparse, h⟩ := bind_eq_ok.mp h
    cases h
    obtain ⟨authId, nonce, head, hid, hnonce, hauth, hrange, hseal, rfl⟩ :=
      (openRequestHeader_eq_ok hcrypto).mp hopen
    exact ⟨authId, nonce, header, head, hid, hnonce, hauth, hrange, hseal, rfl,
      exists_encode_of_parsePlainHeader hparse⟩
  · rintro ⟨authId, nonce, header, head, hid, hnonce, hauth, hrange, hseal, rfl, r, hat, rfl⟩
    refine bind_eq_ok.mpr ⟨(header, rest), (openRequestHeader_eq_ok hcrypto).mpr
      ⟨authId, nonce, head, hid, hnonce, hauth, hrange, hseal, rfl⟩, ?_⟩
    exact bind_eq_ok.mpr ⟨_, parsePlainHeader_of_encode crypto.toHeaderCrypto hat, rfl⟩

/-- **Responses.**  The client opens the response header to the token and the option of its
request, and what follows it is left. -/
theorem openResponse_encodeResponseHeader (hcrypto : crypto.Lawful) (r : HeaderFields) :
    ∃ header, encodeResponseHeader crypto (r.request crypto.toHeaderCrypto) = (header, .ok ()) ∧
      ∀ rest, openResponse crypto r.key r.iv (header ++ rest) =
        some ([r.token, r.option, 0, 0], rest) := by
  obtain ⟨encLen, hsealLen, hlenLen, hopenLen⟩ := hcrypto.sealed
    (kdf16 crypto.toCrypto (sha256x16 crypto.toHeaderCrypto r.key).toList [kdfRespLenKey])
    (kdf12 crypto.toCrypto (sha256x16 crypto.toHeaderCrypto r.iv).toList [kdfRespLenIv]) []
    (show (u16ToBe 4).length < 2 ^ 36 by decide)
  obtain ⟨encPay, hsealPay, hlenPay, hopenPay⟩ := hcrypto.sealed
    (kdf16 crypto.toCrypto (sha256x16 crypto.toHeaderCrypto r.key).toList [kdfRespPayKey])
    (kdf12 crypto.toCrypto (sha256x16 crypto.toHeaderCrypto r.iv).toList [kdfRespPayIv]) []
    (show ([r.token, r.option, 0, 0] : Bytes).length < 2 ^ 36 by simp)
  rw [u16ToBe_length] at hlenLen
  refine ⟨encLen ++ encPay, ?_, fun rest => ?_⟩
  · have hlen : (UInt16.ofNat ([r.token, r.option, 0, 0] : Bytes).length) = 4 := rfl
    simp only [encodeResponseHeader, HeaderFields.request, hlen, hsealLen, hsealPay]
  · have hvalue : beValue (u16ToBe 4) + 16 = encPay.length := by
      rw [hlenPay]
      rfl
    rw [List.append_assoc]
    simp only [openResponse, readExact_append hlenLen, hopenLen, hvalue, readExact_append rfl,
      hopenPay, Option.bind_eq_bind, Option.bind_some]
    rfl

/-! ## The connection -/

/-- The bodies of both directions, in one place: what `relay_down` writes of the reads,
`relay_up` undoes. -/
theorem relayUp_undoes (hcrypto : crypto.Lawful) (key iv : Vector UInt8 16) {opt sec : UInt8}
    (hsec : Supported sec) (hopt : opt &&& optAuthLen = 0) (rng : Nat → Nat → UInt8)
    {reads : List Bytes} (hreads : ∀ b ∈ reads, 1 ≤ b.length ∧ b.length ≤ chunkSize) :
    (relayDown crypto.toCrypto rng key iv opt sec reads).result = .ok () ∧
      ∃ calls, relayUp crypto.toCrypto key iv opt sec
        (relayDown crypto.toCrypto rng key iv opt sec reads).written =
          ⟨reads.flatten, calls, .ok ()⟩ := by
  unfold relayDown relayUp
  split
  · exact ⟨rfl, [], by rw [copyReads_eq_flatten fun b hb => (hreads b hb).1]⟩
  · have hauth : (BodyParams.new crypto.toCrypto key iv opt sec).authLenKey = none := by
      simp [BodyParams.new, hopt]
    obtain ⟨hdown, hwritten, hresult⟩ := @relayUpLoop_relayDownLoop _
      (.new crypto.toCrypto key iv opt sec) hcrypto.body hsec hauth reads hreads (.new iv opt) rng
    exact ⟨hdown, _, by rw [← hwritten, ← hresult]⟩

/-- The target that is dialed is the one of the decoded request. -/
theorem process_dialed (crypto : SessionCrypto) (platform : Platform)
    (connect : String → Option (List Bytes)) (rng : Nat → Nat → UInt8) (cmdKey client : Bytes) :
    (process crypto platform connect rng cmdKey client).dialed =
      match decodeRequestHeader crypto.toHeaderCrypto platform cmdKey client with
      | .ok (req, _) => some req.target
      | _ => none := by
  unfold process
  cases decodeRequestHeader crypto.toHeaderCrypto platform cmdKey client with
  | err e => rfl
  | panic => rfl
  | ok decoded =>
    dsimp only
    cases connect decoded.1.target with
    | none => rfl
    | some outR =>
      dsimp only
      split
      · rfl
      · rfl

/-- **The gate.**  A target is dialed exactly if the stream of the client begins with a header
that is sealed behind a valid auth id, and that with a request for the target; where nothing is
dialed, nobody gets a byte. -/
theorem vmess_gate (hcrypto : crypto.Lawful) (platform : Platform)
    (connect : String → Option (List Bytes)) (rng : Nat → Nat → UInt8) (cmdKey client : Bytes) :
    (∀ target, (process crypto platform connect rng cmdKey client).dialed = some target ↔
      ∃ authId nonce header head rest, authId.length = 16 ∧ nonce.length = 8 ∧
        validateAuthId crypto.toHeaderCrypto platform authId cmdKey = ok () ∧
          (41 ≤ header.length ∧ header.length ≤ 2048) ∧
            sealHeader crypto cmdKey authId nonce header = some head ∧ client = head ++ rest ∧
              ∃ r : HeaderFields, r.encode <+: header ∧
                r.addr.host ++ ":" ++ dec r.port.toNat = target) ∧
    ((process crypto platform connect rng cmdKey client).dialed = none →
      (process crypto platform connect rng cmdKey client).toTarget = [] ∧
        (process crypto platform connect rng cmdKey client).toClient = []) := by
  refine ⟨fun target => ?_, fun hnone => ?_⟩
  · rw [process_dialed]
    constructor
    · intro h
      split at h
      · rename_i req rest hdecode
        obtain rfl := Option.some.inj h
        obtain ⟨authId, nonce, header, head, hid, hnonce, hauth, hrange, hseal, hclient, r, hat,
          rfl⟩ := (decodeRequestHeader_eq_ok hcrypto).mp hdecode
        exact ⟨authId, nonce, header, head, rest, hid, hnonce, hauth, hrange, hseal, hclient, r,
          hat, rfl⟩
      · cases h
    · rintro ⟨authId, nonce, header, head, rest, hid, hnonce, hauth, hrange, hseal, hclient, r,
        hat, rfl⟩
      have hdecode := (decodeRequestHeader_eq_ok hcrypto).mpr ⟨authId, nonce, header, head, hid,
        hnonce, hauth, hrange, hseal, hclient, r, hat, rfl⟩
      rw [hdecode]
      rfl
  · rw [process_dialed] at hnone
    unfold process
    split at hnone
    · cases hnone
    · rename_i hne
      cases hdecode : decodeRequestHeader crypto.toHeaderCrypto platform cmdKey client with
      | err e => exact ⟨rfl, rfl⟩
      | panic => exact ⟨rfl, rfl⟩
      | ok decoded => exact absurd hdecode (hne decoded.1 decoded.2)

end

/-! ## Instances -/

/-- Primitives that seal with a tag of zeros, and under which every auth id is of the epoch. -/
def sessionCrypto : SessionCrypto where
  encrypt _ _ _ plain := some (plain ++ List.replicate 16 0)
  decrypt _ _ _ ct := some (ct.take (ct.length - 16))
  md5 _ := 0
  hmacSha256 _ _ := 0
  shake128 _ _ := 0
  aesGcmOpen _ _ _ ct :=
    if ct.drop (ct.length - 16) = List.replicate 16 0 then some (ct.take (ct.length - 16)) else none
  aesDecryptBlock _ _ := 0
  sha256 _ := 0
  crc32 _ := 0
  aesGcmSeal _ _ _ plain := some (plain ++ List.replicate 16 0)

theorem sessionCrypto_lawful : sessionCrypto.Lawful where
  body := {
    encrypt_isSome := fun _ _ _ _ _ => rfl
    encrypt_length := fun _ _ _ plain ct h => by
      obtain rfl := Option.some.inj h
      rw [List.length_append, List.length_replicate]
    decrypt_encrypt := fun _ _ _ plain ct h => by
      obtain rfl := Option.some.inj h
      simp [sessionCrypto] }
  seal_isSome _ _ _ _ _ := rfl
  seal_length _ _ _ plain ct h := by
    obtain rfl := Option.some.inj h
    rw [List.length_append, List.length_replicate]
  open_seal _ _ _ plain ct h := by
    obtain rfl := Option.some.inj h
    simp [sessionCrypto]
  seal_open _ _ _ plain ct h := by
    obtain ⟨htag, hplain⟩ := Option.ite_none_right_eq_some.mp h
    obtain rfl := Option.some.inj hplain
    refine congrArg some ?_
    rw [← htag]
    exact List.take_append_drop _ _

theorem sampleSecurity_lt : (3 : UInt8) < 16 := by decide

theorem samplePadding_le : ([] : Bytes).length ≤ 15 := Nat.zero_le 15

theorem sampleAddr_size : (#[127, 0, 0, 1] : Array UInt8).size = 4 := rfl

/-- A request for `127.0.0.1:80` with masking and padding. -/
def sampleFields : HeaderFields where
  iv := 0
  key := 0
  token := 7
  option := 0x0d
  security := 3
  security_lt := sampleSecurity_lt
  reserved := 0
  port := 80
  addr := .ipv4 ⟨#[127, 0, 0, 1], sampleAddr_size⟩
  padding := []
  padding_le := samplePadding_le

/-- A sealed request is dialed. -/
theorem vmess_gate_hi :
    ∃ head, sealHeader sessionCrypto [] (List.replicate 16 0) (List.replicate 8 0)
        sampleFields.encode = some head ∧
      (process sessionCrypto ⟨some 0, true⟩ (fun _ => some [[111, 107]]) (fun _ _ => 0) []
        (head ++ [0])).dialed = some "127.0.0.1:80" := by
  obtain ⟨hmin, hmax⟩ := sampleFields.encode_length_le
  obtain ⟨head, hseal⟩ := exists_sealHeader sessionCrypto_lawful [] (List.replicate 16 0)
    (List.replicate 8 0) hmax
  refine ⟨head, hseal, ?_⟩
  exact ((vmess_gate sessionCrypto_lawful ⟨some 0, true⟩ (fun _ => some [[111, 107]])
    (fun _ _ => 0) [] (head ++ [0])).1 _).mpr
      ⟨List.replicate 16 0, List.replicate 8 0, sampleFields.encode, head, [0], rfl, rfl,
        by decide, ⟨hmin, hmax⟩, hseal, rfl, sampleFields, List.prefix_rfl, by decide +kernel⟩

section

variable {crypto : SessionCrypto} {platform : Platform} {cmdKey authId nonce : Bytes}

/-- **Sessions.**  A client seals a header behind a valid auth id, and its body as `relay_down`
does.  The server connects to its target and writes the body to it as it was cut out of the
chunks; the client opens the response header to its token and its option, and the body behind
that to what the target sent.  All four loops end well. -/
theorem vmess_session (hcrypto : crypto.Lawful) (hid : authId.length = 16)
    (hnonce : nonce.length = 8)
    (hauth : validateAuthId crypto.toHeaderCrypto platform authId cmdKey = ok ())
    (r : HeaderFields) (hsec : Supported r.security) (hopt : r.option &&& optAuthLen = 0)
    (rng rng' : Nat → Nat → UInt8) {sent back : List Bytes}
    (hsent : ∀ b ∈ sent, 1 ≤ b.length ∧ b.length ≤ chunkSize)
    (hback : ∀ b ∈ back, 1 ≤ b.length ∧ b.length ≤ chunkSize)
    {connect : String → Option (List Bytes)}
    (hconnect : connect (r.addr.host ++ ":" ++ dec r.port.toNat) = some back) :
    ∃ head, sealHeader crypto cmdKey authId nonce r.encode = some head ∧
      let client := head ++
        (relayDown crypto.toCrypto rng r.key r.iv r.option r.security sent).written
      let served := process crypto platform connect rng' cmdKey client
      served.dialed = some (r.addr.host ++ ":" ++ dec r.port.toNat) ∧
        served.toTarget = sent.flatten ∧ served.result = .ok (.ok (), .ok ()) ∧
        ∃ body calls, openResponse crypto r.key r.iv served.toClient =
            some ([r.token, r.option, 0, 0], body) ∧
          relayUp crypto.toCrypto (sha256x16 crypto.toHeaderCrypto r.key)
            (sha256x16 crypto.toHeaderCrypto r.iv) r.option r.security body =
              ⟨back.flatten, calls, .ok ()⟩ := by
  obtain ⟨hmin, hmax⟩ := r.encode_length_le
  obtain ⟨head, hseal⟩ := exists_sealHeader hcrypto cmdKey authId nonce hmax
  have hdecode : ∀ rest, decodeRequestHeader crypto.toHeaderCrypto platform cmdKey (head ++ rest) =
      ok (r.request crypto.toHeaderCrypto, rest) := fun rest =>
    (decodeRequestHeader_eq_ok hcrypto).mpr ⟨authId, nonce, r.encode, head, hid, hnonce, hauth,
      ⟨hmin, hmax⟩, hseal, rfl, r, List.prefix_rfl, rfl⟩
  obtain ⟨header, hencode, hopen⟩ := openResponse_encodeResponseHeader hcrypto r
  obtain ⟨-, upCalls, hup⟩ := relayUp_undoes hcrypto r.key r.iv hsec hopt rng hsent
  obtain ⟨hdown, downCalls, hbackUp⟩ :=
    relayUp_undoes hcrypto (sha256x16 crypto.toHeaderCrypto r.key)
      (sha256x16 crypto.toHeaderCrypto r.iv) hsec hopt rng' hback
  refine ⟨head, hseal, ?_⟩
  dsimp only
  have htarget : (r.request crypto.toHeaderCrypto).target =
      r.addr.host ++ ":" ++ dec r.port.toNat := rfl
  unfold process
  rw [hdecode]
  dsimp only
  rw [htarget, hconnect]
  dsimp only
  rw [hencode]
  dsimp only [HeaderFields.request]
  rw [hup, hdown]
  exact ⟨rfl, rfl, rfl, _, downCalls, hopen _, hbackUp⟩

end

/-- `hi` for the target, `ok` for the client. -/
theorem vmess_session_hi :
    ∃ head, sealHeader sessionCrypto [] (List.replicate 16 0) (List.replicate 8 0)
        sampleFields.encode = some head ∧
      (process sessionCrypto ⟨some 0, true⟩ (fun _ => some [[111, 107]]) (fun _ _ => 0) []
        (head ++ (relayDown sessionCrypto.toCrypto (fun _ _ => 0) 0 0 0x0d 3
          [[104, 105]]).written)).toTarget = [104, 105] := by
  obtain ⟨head, hseal, -, hwritten, -⟩ := @vmess_session _ ⟨some 0, true⟩ []
    (List.replicate 16 0) (List.replicate 8 0) sessionCrypto_lawful rfl rfl (by decide)
    sampleFields (.inr (.inl rfl)) (by decide) (fun _ _ => 0) (fun _ _ => 0) [[104, 105]]
    [[111, 107]] (by simp [chunkSize]) (by simp [chunkSize]) (fun _ => some [[111, 107]]) rfl
  exact ⟨head, hseal, hwritten⟩

end Ruproxy.Vmess
