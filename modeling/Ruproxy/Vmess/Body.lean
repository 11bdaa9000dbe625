/-
  Vmess/Body.lean --- the body loops of `vmess/mod.rs`.

  `relay_down` seals what it reads into chunks, `relay_up` opens chunks.  Both
  return the bytes they wrote, the calls they made to the ciphers, and how they
  ended.  The other side never fails a read or a write except by ending; the
  log output is left out.  It has a `count - 1` behind each chunk, so with overflow checks
  and the trace level on `relay_down` panics where the counter wraps, at the 65536th chunk; the
  model is the program without overflow checks or without that level.
-/
import Ruproxy.Vmess.Crypto

set_option autoImplicit false

namespace Ruproxy.Vmess

open Ruproxy.Foundation

/-! ## Constants -/

/-- `OPT_CHUNK_STREAM`. -/
def optChunkStream : UInt8 := 0x01
/-- `OPT_CHUNK_MASKING`. -/
def optChunkMasking : UInt8 := 0x04
/-- `OPT_GLOBAL_PADDING`. -/
def optGlobalPadding : UInt8 := 0x08
/-- `OPT_AUTH_LEN`. -/
def optAuthLen : UInt8 := 0x10

/-- `SEC_NONE`. -/
def secNone : UInt8 := 0x00
/-- `SEC_AES128_GCM`. -/
def secAes128Gcm : UInt8 := 0x03
/-- `SEC_CHACHA20`. -/
def secChacha20 : UInt8 := 0x04
/-- `SEC_AUTO`. -/
def secAuto : UInt8 := 0x05

/-- `CHUNK_SIZE`: the most `relay_down` reads at once. -/
def chunkSize : Nat := 8192

/-! ## State and outcome of a loop -/

/-- How a loop failed; each text is the one of the source. -/
inductive BodyError where
  /-- the error of `read_exact` -/
  | unexpectedEof
  /-- `auth_len decrypt` -/
  | authLenDecrypt
  /-- the panic of `plain[0]` or `plain[1]` -/
  | indexOutOfBounds
  /-- `chunk too small: {encrypted_len}` -/
  | aesChunkTooSmall (encryptedLen : Nat)
  /-- `aes-gcm decrypt at {count}` -/
  | aesDecrypt (count : UInt16)
  /-- `chunk too small` -/
  | chachaChunkTooSmall
  /-- `chacha decrypt` -/
  | chachaDecrypt
  /-- `unsupported security {sec}` -/
  | unsupportedSecurity (sec : UInt8)
  /-- `aes-gcm encrypt` -/
  | aesEncrypt
  /-- `chacha encrypt` -/
  | chachaEncrypt
  /-- `len encrypt` -/
  | lenEncrypt
  deriving DecidableEq

/-- A successful call of a cipher. -/
structure AeadCall where
  cipher : Cipher
  key : Bytes
  nonce : Vector UInt8 12
  plain : Bytes
  deriving DecidableEq

/-- What a loop did: the bytes written, the calls of the ciphers, the result. -/
structure Relayed where
  written : Bytes
  calls : List AeadCall
  result : Except BodyError Unit

/-- What came before a further part of the loop. -/
def Relayed.after (r : Relayed) (written : Bytes) (calls : List AeadCall) : Relayed :=
  { r with written := written ++ r.written, calls := calls ++ r.calls }

/-- What both loops compute before they start. -/
structure BodyParams where
  key : Vector UInt8 16
  iv : Vector UInt8 16
  sec : UInt8
  usePadding : Bool
  authLenKey : Option Bytes

/-- The locals a loop carries from chunk to chunk. -/
structure BodyState where
  shake : Option Shake128Reader
  count : UInt16

section Loops

variable (crypto : Crypto)

/-- The bindings before the loops. -/
def BodyParams.new (key iv : Vector UInt8 16) (opt sec : UInt8) : BodyParams where
  key := key
  iv := iv
  sec := sec
  usePadding := opt &&& optGlobalPadding ≠ 0
  authLenKey :=
    if opt &&& optAuthLen ≠ 0 then
      some (kdf16 crypto key.toList ["auth_len".toUTF8.toList])
    else none

/-- The loop variables at the start. -/
def BodyState.new (iv : Vector UInt8 16) (opt : UInt8) : BodyState where
  shake := if opt &&& optChunkMasking ≠ 0 then some (.new iv.toList) else none
  count := 0

/-- The padding length of the next chunk. -/
def nextPadLen (p : BodyParams) (st : BodyState) : Nat × BodyState :=
  if p.usePadding then
    match st.shake with
    | some s =>
        let (v, s) := s.nextU16 crypto
        ((v % 64).toNat, { st with shake := some s })
    | none => (0, st)
  else (0, st)

/-! ## Downlink -/

/-- The ciphertext of a chunk (step 2 of `relay_down`). -/
def encryptPayload (p : BodyParams) (count : UInt16) (plain : Bytes) :
    Except BodyError (Bytes × List AeadCall) :=
  let nonce := chunkNonce p.iv count
  if p.sec = secNone then .ok (plain, [])
  else if p.sec = secAes128Gcm ∨ p.sec = secAuto then
    match crypto.encrypt .aes128Gcm p.key.toList nonce plain with
    | some ct => .ok (ct, [⟨.aes128Gcm, p.key.toList, nonce, plain⟩])
    | none => .error .aesEncrypt
  else if p.sec = secChacha20 then
    let ck := chachaKey crypto p.key
    match crypto.encrypt .chaCha20Poly1305 ck nonce plain with
    | some ct => .ok (ct, [⟨.chaCha20Poly1305, ck, nonce, plain⟩])
    | none => .error .chachaEncrypt
  else .error (.unsupportedSecurity p.sec)

/-- The size field of a chunk (step 3 of `relay_down`). -/
def encodeSize (p : BodyParams) (st : BodyState) (totalSize : UInt16) :
    Except BodyError (Bytes × BodyState × List AeadCall) :=
  match p.authLenKey with
  | some key =>
      let nonce := chunkNonce p.iv st.count
      let plain := u16ToBe totalSize
      match crypto.encrypt .aes128Gcm key nonce plain with
      | some encLen =>
          .ok (encLen, { st with count := st.count + 1 }, [⟨.aes128Gcm, key, nonce, plain⟩])
      | none => .error .lenEncrypt
  | none =>
      match st.shake with
      | some sk =>
          let (v, sk) := sk.nextU16 crypto
          .ok (u16ToBe (totalSize ^^^ v), { st with shake := some sk }, [])
      | none => .ok (u16ToBe totalSize, st, [])

/-- One turn of the loop of `relay_down`: the bytes of the chunk that carries
`plain`.  `pad` holds the random bytes it draws. -/
def sealChunk (p : BodyParams) (st : BodyState) (pad : Nat → UInt8) (plain : Bytes) :
    Except BodyError (Bytes × BodyState × List AeadCall) :=
  let (padLen, st) := nextPadLen crypto p st
  match encryptPayload crypto p st.count plain with
  | .error e => .error e
  | .ok (ct, payloadCalls) =>
      let totalSize := UInt16.ofNat (ct.length + padLen)
      match encodeSize crypto p { st with count := st.count + 1 } totalSize with
      | .error e => .error e
      | .ok (size, st, sizeCalls) =>
          .ok (size ++ ct ++ (List.range padLen).map pad, st, payloadCalls ++ sizeCalls)

/-- The loop of `relay_down` over what the upstream reads return; the list ends
with the end of the stream, as does a read of no bytes.  `rng i` holds the random
bytes of the `i`-th chunk from here on. -/
def relayDownLoop (p : BodyParams) :
    BodyState → (Nat → Nat → UInt8) → List Bytes → Relayed
  | st, rng, [] =>
      match sealChunk crypto p st (rng 0) [] with
      | .error e => ⟨[], [], .error e⟩
      | .ok (chunk, _, calls) => ⟨chunk, calls, .ok ()⟩
  | st, rng, plain :: reads =>
      match sealChunk crypto p st (rng 0) plain with
      | .error e => ⟨[], [], .error e⟩
      | .ok (chunk, st, calls) =>
          if plain.isEmpty then ⟨chunk, calls, .ok ()⟩
          else (relayDownLoop p st (fun i => rng (i + 1)) reads).after chunk calls

/-- `tokio::io::copy` of a sequence of reads. -/
def copyReads : List Bytes → Bytes
  | [] => []
  | plain :: reads => if plain.isEmpty then [] else plain ++ copyReads reads

/-- `relay_down`. -/
def relayDown (rng : Nat → Nat → UInt8) (key iv : Vector UInt8 16) (opt sec : UInt8)
    (reads : List Bytes) : Relayed :=
  if sec = secNone ∧ opt &&& optChunkStream = 0 then
    ⟨copyReads reads, [], .ok ()⟩
  else
    relayDownLoop crypto (.new crypto key iv opt sec) (.new iv opt) rng reads

/-! ## Uplink -/

/-- The size field of the next chunk (step 2 of `relay_up`). -/
def decodeSize (p : BodyParams) (st : BodyState) (input : Bytes) :
    Except BodyError (Nat × BodyState × Bytes × List AeadCall) :=
  match p.authLenKey with
  | some key =>
      match readExact 18 input with
      | none => .error .unexpectedEof
      | some (buf, input) =>
          let nonce := chunkNonce p.iv st.count
          match crypto.decrypt .aes128Gcm key nonce buf with
          | none => .error .authLenDecrypt
          | some (a :: b :: rest) =>
              .ok ((u16OfBe a b).toNat, { st with count := st.count + 1 }, input,
                [⟨.aes128Gcm, key, nonce, a :: b :: rest⟩])
          | some _ => .error .indexOutOfBounds
  | none =>
      match input with
      | a :: b :: input =>
          let raw := u16OfBe a b
          match st.shake with
          | some sk =>
              let (v, sk) := sk.nextU16 crypto
              .ok ((raw ^^^ v).toNat, { st with shake := some sk }, input, [])
          | none => .ok (raw.toNat, st, input, [])
      | _ => .error .unexpectedEof

/-- The plaintext of a chunk (step 3 of `relay_up`). -/
def decryptPayload (p : BodyParams) (count : UInt16) (encryptedLen : Nat) (input : Bytes) :
    Except BodyError (Bytes × Bytes × List AeadCall) :=
  let nonce := chunkNonce p.iv count
  if p.sec = secNone then
    match readExact encryptedLen input with
    | none => .error .unexpectedEof
    | some (buf, input) => .ok (buf, input, [])
  else if p.sec = secAes128Gcm ∨ p.sec = secAuto then
    if encryptedLen < 16 then .error (.aesChunkTooSmall encryptedLen)
    else
      match readExact encryptedLen input with
      | none => .error .unexpectedEof
      | some (ct, input) =>
          match crypto.decrypt .aes128Gcm p.key.toList nonce ct with
          | none => .error (.aesDecrypt count)
          | some plain => .ok (plain, input, [⟨.aes128Gcm, p.key.toList, nonce, plain⟩])
  else if p.sec = secChacha20 then
    if encryptedLen < 16 then .error .chachaChunkTooSmall
    else
      match readExact encryptedLen input with
      | none => .error .unexpectedEof
      | some (ct, input) =>
          let ck := chachaKey crypto p.key
          match crypto.decrypt .chaCha20Poly1305 ck nonce ct with
          | none => .error .chachaDecrypt
          | some plain => .ok (plain, input, [⟨.chaCha20Poly1305, ck, nonce, plain⟩])
  else .error (.unsupportedSecurity p.sec)

/-- What one turn of the loop of `relay_up` found. -/
inductive Opened where
  /-- `encrypted_len == 0`: the loop breaks -/
  | zeroLength (calls : List AeadCall)
  /-- a chunk, the state and the input after it -/
  | chunk (plain : Bytes) (st : BodyState) (input : Bytes) (calls : List AeadCall)

/-- One turn of the loop of `relay_up`, up to the padding. -/
def openChunk (p : BodyParams) (st : BodyState) (input : Bytes) : Except BodyError Opened :=
  let (padLen, st) := nextPadLen crypto p st
  match decodeSize crypto p st input with
  | .error e => .error e
  | .ok (totalLen, st, input, sizeCalls) =>
      let encryptedLen := totalLen - padLen
      if encryptedLen = 0 then .ok (.zeroLength sizeCalls)
      else
        match decryptPayload crypto p st.count encryptedLen input with
        | .error e => .error e
        | .ok (plain, input, payloadCalls) =>
            match readExact padLen input with
            | none => .error .unexpectedEof
            | some (_, input) =>
                .ok (.chunk plain { st with count := st.count + 1 } input
                  (sizeCalls ++ payloadCalls))

/-! ## Every turn of `relay_up` consumes input -/

theorem decodeSize_length_lt {p : BodyParams} {st st' : BodyState} {input input' : Bytes}
    {totalLen : Nat} {calls : List AeadCall}
    (h : decodeSize crypto p st input = .ok (totalLen, st', input', calls)) :
    input'.length < input.length := by
  unfold decodeSize at h
  split at h
  · split at h
    · simp at h
    · rename_i buf rest hread
      obtain ⟨rfl, hlen⟩ := readExact_eq_some.mp hread
      dsimp only at h
      split at h
      · simp at h
      · simp only [Except.ok.injEq, Prod.mk.injEq] at h
        obtain ⟨-, -, rfl, -⟩ := h
        rw [List.length_append]
        omega
      · simp at h
  · split at h
    · dsimp only at h
      split at h
      all_goals
        simp only [Except.ok.injEq, Prod.mk.injEq] at h
        obtain ⟨-, -, rfl, -⟩ := h
        simp only [List.length_cons]
        omega
    · simp at h

theorem decryptPayload_length_le {p : BodyParams} {count : UInt16} {encryptedLen : Nat}
    {input input' plain : Bytes} {calls : List AeadCall}
    (h : decryptPayload crypto p count encryptedLen input = .ok (plain, input', calls)) :
    input'.length ≤ input.length := by
  have hread : ∃ ct, readExact encryptedLen input = some (ct, input') := by
    unfold decryptPayload at h
    dsimp only at h
    repeat' split at h
    all_goals simp_all
  obtain ⟨ct, hread⟩ := hread
  obtain ⟨rfl, -⟩ := readExact_eq_some.mp hread
  simp

theorem openChunk_length_lt {p : BodyParams} {st st' : BodyState} {input input' plain : Bytes}
    {calls : List AeadCall} (h : openChunk crypto p st input = .ok (.chunk plain st' input' calls)) :
    input'.length < input.length := by
  unfold openChunk at h
  dsimp only at h
  split at h
  · simp at h
  · rename_i hsize
    split at h
    · simp at h
    · split at h
      · simp at h
      · rename_i hpayload
        split at h
        · simp at h
        · rename_i hpad
          obtain ⟨hrest, -⟩ := readExact_eq_some.mp hpad
          simp only [Except.ok.injEq, Opened.chunk.injEq] at h
          obtain ⟨-, -, rfl, -⟩ := h
          have hsize := decodeSize_length_lt crypto hsize
          have hpayload := decryptPayload_length_le crypto hpayload
          rw [hrest, List.length_append] at hpayload
          omega

/-- The loop of `relay_up`. -/
def relayUpLoop (p : BodyParams) (st : BodyState) (input : Bytes) : Relayed :=
  match _h : openChunk crypto p st input with
  | .error e => ⟨[], [], .error e⟩
  | .ok (.zeroLength calls) => ⟨[], calls, .ok ()⟩
  | .ok (.chunk plain st input calls) =>
      if plain.isEmpty then ⟨[], calls, .ok ()⟩
      else (relayUpLoop p st input).after plain calls
termination_by input.length
decreasing_by exact openChunk_length_lt crypto _h

theorem relayUpLoop_error {p : BodyParams} {st : BodyState} {input : Bytes} {e : BodyError}
    (h : openChunk crypto p st input = .error e) :
    relayUpLoop crypto p st input = ⟨[], [], .error e⟩ := by
  rw [relayUpLoop]
  split <;> simp_all

theorem relayUpLoop_zeroLength {p : BodyParams} {st : BodyState} {input : Bytes}
    {calls : List AeadCall} (h : openChunk crypto p st input = .ok (.zeroLength calls)) :
    relayUpLoop crypto p st input = ⟨[], calls, .ok ()⟩ := by
  rw [relayUpLoop]
  split <;> simp_all

theorem relayUpLoop_chunk {p : BodyParams} {st st' : BodyState} {input input' plain : Bytes}
    {calls : List AeadCall}
    (h : openChunk crypto p st input = .ok (.chunk plain st' input' calls)) :
    relayUpLoop crypto p st input =
      if plain.isEmpty then ⟨[], calls, .ok ()⟩
      else (relayUpLoop crypto p st' input').after plain calls := by
  rw [relayUpLoop]
  split <;> simp_all

/-- `relay_up`. -/
def relayUp (key iv : Vector UInt8 16) (opt sec : UInt8) (input : Bytes) : Relayed :=
  if sec = secNone ∧ opt &&& optChunkStream = 0 then
    ⟨input, [], .ok ()⟩
  else
    relayUpLoop crypto (.new crypto key iv opt sec) (.new iv opt) input

end Loops

end Ruproxy.Vmess
