/-
  Vmess/RequestHeader.lean --- the request header of a VMess connection.

  `decode_request_header` opens the length and the header behind an auth id, and
  `parse_plain_header` takes the opened header apart.  The parser checks the
  length of the header once, for its fixed part, and then moves a cursor by
  amounts that the header itself gives.  Every index and slice of it is an
  `Outcome` here, which panics where the source would.

  AES-128-GCM, the AES block cipher, SHA-256 and CRC-32 come from crates outside
  the repository and are a parameter, as in `Vmess/Crypto.lean`; so is the clock.
-/
import Ruproxy.Foundation.Net
import Ruproxy.Foundation.Outcome
import Ruproxy.Vmess.Crypto

set_option autoImplicit false

namespace Ruproxy.Vmess

open Ruproxy.Foundation
open Ruproxy.Foundation.Outcome

/-- The primitives of the header, beside those of the body. -/
structure HeaderCrypto extends Crypto where
  /-- `Aes128Gcm::decrypt` under a key and a nonce, with associated data -/
  aesGcmOpen : Bytes → Bytes → Bytes → Bytes → Option Bytes
  /-- `Aes128::decrypt_block` under a key -/
  aesDecryptBlock : Bytes → Bytes → Vector UInt8 16
  /-- `Sha256::digest` -/
  sha256 : Bytes → Vector UInt8 32
  /-- `crc32fast::hash` -/
  crc32 : Bytes → UInt32

/-! ## Errors -/

/-- The ways in which a header is refused. -/
inductive HeaderError where
  /-- `read_exact` met the end of the stream -/
  | unexpectedEof
  | authIdBadChecksum
  | authIdStale
  /-- the clock stands before the epoch -/
  | systemTime
  | headerLenAead
  | badHeaderLen (headerLen : Nat)
  | headerAead
  | headerTooShort
  | unsupportedVersion (version : UInt8)
  | udpNotSupported (cmd : UInt8)
  /-- `TryFromSliceError` of an address -/
  | tryFromSlice
  /-- `FromUtf8Error` of a domain -/
  | fromUtf8
  | unsupportedAtyp (t : UInt8)
  | missingFnv
  | fnvMismatch
  deriving DecidableEq

/-- The text of an error, as far as the repository gives it. -/
def HeaderError.text : HeaderError → String
  | .unexpectedEof => "early eof"
  | .authIdBadChecksum => "auth id bad checksum"
  | .authIdStale => "auth id stale"
  | .systemTime => "second time provided was later than self"
  | .headerLenAead => "header len"
  | .badHeaderLen headerLen => "bad header len " ++ dec headerLen
  | .headerAead => "header"
  | .headerTooShort => "header too short"
  | .unsupportedVersion version => "unsupported version " ++ dec version.toNat
  | .udpNotSupported cmd => "UDP not supported (cmd=0x" ++ hex cmd.toNat ++ ")"
  | .tryFromSlice => "could not convert slice to array"
  | .fromUtf8 => "invalid utf-8 sequence"
  | .unsupportedAtyp t => "unsupported atyp 0x" ++ hex t.toNat
  | .missingFnv => "missing fnv"
  | .fnvMismatch => "fnv mismatch"

/-! ## The plain header -/

/-- `VmessRequest`. -/
structure VmessRequest where
  target : String
  requestBodyKey : Vector UInt8 16
  requestBodyIv : Vector UInt8 16
  responseBodyKey : Vector UInt8 16
  responseBodyIv : Vector UInt8 16
  responseToken : UInt8
  option : UInt8
  security : UInt8
  deriving DecidableEq

/-- `fnv1a32`. -/
def fnv1a32 (data : Bytes) : UInt32 :=
  data.foldl (fun h b => (h ^^^ b.toUInt32) * 16777619) 2166136261

/-- `u32::from_be_bytes` of an array. -/
def u32OfArray (b : Vector UInt8 4) : UInt32 :=
  UInt32.ofNat (b.toList.foldl (fun n x => n * 256 + x.toNat) 0)

/-- `sha256_16`. -/
def sha256x16 (crypto : HeaderCrypto) (b : Vector UInt8 16) : Vector UInt8 16 :=
  (crypto.sha256 b.toList).take 16

/-- The address of `parse_plain_header`: the text of the host, and the cursor
behind the address. -/
def parseHost (h : Bytes) (atyp : UInt8) (idx : Nat) : Outcome HeaderError (String × Nat) :=
  if atyp = 0x01 then do
    let octets ← orErr .tryFromSlice (tryInto 4 (← slice h idx (idx + 4)))
    return ((Ipv4Addr.mk octets).fmt, idx + 4)
  else if atyp = 0x02 then do
    let l := (← index h idx).toNat
    let idx := idx + 1
    let d ← orErr .fromUtf8 (fromUtf8 (← slice h idx (idx + l)))
    return (d, idx + l)
  else if atyp = 0x03 then do
    let octets ← orErr .tryFromSlice (tryInto 16 (← slice h idx (idx + 16)))
    return ("[" ++ (Ipv6Addr.ofOctets octets).fmt ++ "]", idx + 16)
  else err (.unsupportedAtyp atyp)

/-- The checksum of `parse_plain_header`, behind the padding. -/
def checkFnv (h : Bytes) (idx : Nat) : Outcome HeaderError Unit :=
  if h.length < idx + 4 then err .missingFnv
  else do
    let exp ← unwrap (tryInto 4 (← slice h idx (idx + 4)))
    if fnv1a32 (← slice h 0 idx) ≠ u32OfArray exp then
      err .fnvMismatch
    else
      return ()

/-- `parse_plain_header`. -/
def parsePlainHeader (crypto : HeaderCrypto) (h : Bytes) : Outcome HeaderError VmessRequest :=
  if h.length < 41 then err .headerTooShort
  else do
    let version ← index h 0
    if version ≠ 1 then
      err (.unsupportedVersion version)
    else
      let reqIv ← unwrap (tryInto 16 (← slice h 1 17))
      let reqKey ← unwrap (tryInto 16 (← slice h 17 33))
      let responseToken ← index h 33
      let option ← index h 34
      let padLen := ((← index h 35) >>> 4).toNat
      let security := (← index h 35) &&& 0x0f
      let cmd ← index h 37
      if cmd ≠ 0x01 then
        err (.udpNotSupported cmd)
      else
        let port := u16OfBe (← index h 38) (← index h 39)
        let (host, idx) ← parseHost h (← index h 40) 41
        checkFnv h (idx + padLen)
        return { target := host ++ ":" ++ dec port.toNat
                 requestBodyKey := reqKey
                 requestBodyIv := reqIv
                 responseBodyKey := sha256x16 crypto reqKey
                 responseBodyIv := sha256x16 crypto reqIv
                 responseToken := responseToken
                 option := option
                 security := security }

/-! ## The sealed header -/

/-- `KDF_AUTH_ID`. -/
def kdfAuthId : Bytes := "AES Auth ID Encryption".toUTF8.toList
/-- `KDF_HDR_LEN_KEY`. -/
def kdfHdrLenKey : Bytes := "VMess Header AEAD Key_Length".toUTF8.toList
/-- `KDF_HDR_LEN_IV`. -/
def kdfHdrLenIv : Bytes := "VMess Header AEAD Nonce_Length".toUTF8.toList
/-- `KDF_HDR_KEY`. -/
def kdfHdrKey : Bytes := "VMess Header AEAD Key".toUTF8.toList
/-- `KDF_HDR_IV`. -/
def kdfHdrIv : Bytes := "VMess Header AEAD Nonce".toUTF8.toList

/-- `kdf12`. -/
def kdf12 (crypto : Crypto) (key : Bytes) (path : List Bytes) : Bytes :=
  (vmessKdf crypto key path).toList.take 12

/-- `i64::from_be_bytes`. -/
def i64OfBe (b : Bytes) : Int64 :=
  (UInt64.ofNat (b.foldl (fun n x => n * 256 + x.toNat) 0)).toInt64

/-- `-` on `i64`: a build with overflow checks panics where one without wraps. -/
def subI64 (checks : Bool) (a b : Int64) : Outcome HeaderError Int64 :=
  if checks = true ∧ (a - b).toInt ≠ a.toInt - b.toInt then panic else ok (a - b)

/-- `i64::abs`, with the same two behaviours. -/
def absI64 (checks : Bool) (a : Int64) : Outcome HeaderError Int64 :=
  if checks = true ∧ a = Int64.minValue then panic else ok a.abs

/-- The clock of the machine, in seconds since the epoch, and whether the build
checks for overflow. -/
structure Platform where
  now : Option UInt64
  overflowChecks : Bool

/-- `validate_auth_id`. -/
def validateAuthId (crypto : HeaderCrypto) (platform : Platform) (authId cmdKey : Bytes) :
    Outcome HeaderError Unit := do
  let plain := (crypto.aesDecryptBlock (kdf16 crypto.toCrypto cmdKey [kdfAuthId]) authId).toList
  let stored ← unwrap (tryInto 4 (plain.drop 12))
  if crypto.crc32 (plain.take 12) ≠ u32OfArray stored then
    err .authIdBadChecksum
  else
    let ts := i64OfBe (plain.take 8)
    let now ← orErr .systemTime platform.now
    let age ← absI64 platform.overflowChecks
      (← subI64 platform.overflowChecks ts now.toInt64)
    if age > 120 then err .authIdStale else return ()

/-- `decode_request_header` up to the opened header, with what follows on the stream. -/
def openRequestHeader (crypto : HeaderCrypto) (platform : Platform) (cmdKey s : Bytes) :
    Outcome HeaderError (Bytes × Bytes) := do
  let (authId, s) ← orErr .unexpectedEof (readExact 16 s)
  validateAuthId crypto platform authId cmdKey
  let (encLen, s) ← orErr .unexpectedEof (readExact 18 s)
  let (nonce, s) ← orErr .unexpectedEof (readExact 8 s)
  let lenKey := kdf16 crypto.toCrypto cmdKey [kdfHdrLenKey, authId, nonce]
  let lenIv := kdf12 crypto.toCrypto cmdKey [kdfHdrLenIv, authId, nonce]
  let plen ← orErr .headerLenAead (crypto.aesGcmOpen lenKey lenIv authId encLen)
  let headerLen := (u16OfBe (← index plen 0) (← index plen 1)).toNat
  if ¬ (41 ≤ headerLen ∧ headerLen ≤ 2048) then
    err (.badHeaderLen headerLen)
  else
    let (encHdr, s) ← orErr .unexpectedEof (readExact (headerLen + 16) s)
    let hdrKey := kdf16 crypto.toCrypto cmdKey [kdfHdrKey, authId, nonce]
    let hdrIv := kdf12 crypto.toCrypto cmdKey [kdfHdrIv, authId, nonce]
    let header ← orErr .headerAead (crypto.aesGcmOpen hdrKey hdrIv authId encHdr)
    return (header, s)

/-- `decode_request_header`. -/
def decodeRequestHeader (crypto : HeaderCrypto) (platform : Platform) (cmdKey s : Bytes) :
    Outcome HeaderError (VmessRequest × Bytes) := do
  let (header, s) ← openRequestHeader crypto platform cmdKey s
  let req ← parsePlainHeader crypto header
  return (req, s)

/-! ## Where the parser panics -/

/-- The address whose type is `h[40]` ends inside the header. -/
def AddressFits (h : Bytes) : Prop :=
  (h[40]? = some 0x01 → 45 ≤ h.length) ∧
  (h[40]? = some 0x02 → ∃ l, h[41]? = some l ∧ 42 + l.toNat ≤ h.length) ∧
  (h[40]? = some 0x03 → 57 ≤ h.length)

/-- The checksum is only read behind a check of the length. -/
theorem checkFnv_ne_panic (h : Bytes) (idx : Nat) : checkFnv h idx ≠ panic := by
  unfold checkFnv
  split
  · simp
  · have hlen : ((h.drop idx).take (idx + 4 - idx)).length = 4 := by
      rw [length_slice (by omega) (by omega)]
      omega
    rw [slice_of_le (by omega) (by omega), ok_bind, tryInto_of_length hlen, unwrap_some, ok_bind,
      slice_of_le (by omega) (by omega), ok_bind]
    split <;> simp

theorem parseHost_v4_ne_panic_iff {h : Bytes} {idx : Nat} :
    parseHost h 0x01 idx ≠ panic ↔ idx + 4 ≤ h.length := by
  rw [parseHost, if_pos rfl]
  rcases Nat.lt_or_ge h.length (idx + 4) with hlt | hle
  · rw [slice_of_lt hlt]
    simp [hlt]
  · rw [slice_of_le (by omega) hle]
    simp [hle, bind_eq_panic]

theorem parseHost_v6_ne_panic_iff {h : Bytes} {idx : Nat} :
    parseHost h 0x03 idx ≠ panic ↔ idx + 16 ≤ h.length := by
  rw [parseHost, if_neg (by decide), if_neg (by decide), if_pos rfl]
  rcases Nat.lt_or_ge h.length (idx + 16) with hlt | hle
  · rw [slice_of_lt hlt]
    simp [hlt]
  · rw [slice_of_le (by omega) hle]
    simp [hle, bind_eq_panic]

theorem parseHost_domain_ne_panic_iff {h : Bytes} {idx : Nat} :
    parseHost h 0x02 idx ≠ panic ↔
      ∃ l, h[idx]? = some l ∧ idx + 1 + l.toNat ≤ h.length := by
  rw [parseHost, if_neg (by decide), if_pos rfl]
  cases hl : h[idx]? with
  | none => simp [index, hl]
  | some l =>
    rcases Nat.lt_or_ge h.length (idx + 1 + l.toNat) with hlt | hle
    · simp [index, hl, slice_of_lt hlt, hlt]
    · simp [index, hl, slice_of_le (by omega : idx + 1 ≤ idx + 1 + l.toNat) hle, hle,
        bind_eq_panic]

/-- The address is read without a panic exactly when it ends inside the header. -/
theorem parseHost_ne_panic_iff {h : Bytes} (hlen : 41 ≤ h.length) :
    parseHost h h[40] 41 ≠ panic ↔ AddressFits h := by
  have hget : h[40]? = some h[40] := List.getElem?_eq_getElem (by omega)
  rw [AddressFits, hget]
  generalize h[40] = atyp
  rcases eq_or_ne atyp 0x01 with rfl | h1
  · rw [parseHost_v4_ne_panic_iff]
    simp
  rcases eq_or_ne atyp 0x02 with rfl | h2
  · rw [parseHost_domain_ne_panic_iff]
    simp
  rcases eq_or_ne atyp 0x03 with rfl | h3
  · rw [parseHost_v6_ne_panic_iff]
    simp
  · simp [parseHost, h1, h2, h3]

/-- The parser keeps inside the header exactly when the address does: the length of
the fixed part is checked, the cursor behind an address is not moved past the end by
the padding unnoticed, but the address itself is read unchecked. -/
theorem parsePlainHeader_ne_panic_iff (crypto : HeaderCrypto) (h : Bytes) :
    parsePlainHeader crypto h ≠ panic ↔
      (h[0]? = some 1 → h[37]? = some 1 → AddressFits h) := by
  unfold parsePlainHeader
  split
  · rename_i hlt
    have h40 : h[40]? = none := List.getElem?_eq_none (by omega)
    simp [AddressFits, h40]
  · rename_i hge
    have hlen : 41 ≤ h.length := by omega
    have hiv : ((h.drop 1).take (17 - 1)).length = 16 := length_slice (by omega) (by omega)
    have hkey : ((h.drop 17).take (33 - 17)).length = 16 := length_slice (by omega) (by omega)
    have h0 : h[0]? = some h[0] := List.getElem?_eq_getElem (by omega)
    have h37 : h[37]? = some h[37] := List.getElem?_eq_getElem (by omega)
    rw [← parseHost_ne_panic_iff hlen, h0, h37]
    simp (disch := omega) only [index_of_lt, slice_of_le, ok_bind]
    rw [tryInto_of_length hiv, tryInto_of_length hkey]
    simp only [unwrap_some, ok_bind]
    split
    · rename_i hversion
      simp [hversion]
    · rename_i hversion
      split
      · rename_i hcmd
        simp [hcmd]
      · rename_i hcmd
        rw [not_not] at hversion hcmd
        have htail : ∀ r : String × Nat, ∀ req : VmessRequest,
            (checkFnv h (r.2 + (h[35] >>> 4).toNat) >>= fun _ => pure req) ≠ panic := by
          intro r req
          rw [bind_ne_panic_iff fun _ => by simp]
          exact checkFnv_ne_panic h _
        rw [bind_ne_panic_iff fun r => htail r _, hversion, hcmd]
        simp

/-- A header of 41 bytes that ends with the type of an IPv4 address. -/
def headerWithoutAddress : Bytes := 1 :: List.replicate 36 0 ++ [1, 0, 80, 1]

/-- It has a length that is handed to the parser, and the parser panics on it. -/
theorem parsePlainHeader_headerWithoutAddress :
    41 ≤ headerWithoutAddress.length ∧ headerWithoutAddress.length ≤ 2048 ∧
      ∀ crypto : HeaderCrypto, parsePlainHeader crypto headerWithoutAddress = panic :=
  ⟨by decide, by decide, fun _ => rfl⟩

end Ruproxy.Vmess
