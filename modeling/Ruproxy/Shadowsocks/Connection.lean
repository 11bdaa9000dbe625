/-
  Shadowsocks/Connection.lean --- a Shadowsocks connection from its salt to its end.

  `process` reads the salt of the client, derives the subkey of its direction, opens the
  header and connects to the target that it names.  It answers with a salt of its own and a
  header that names the salt of the client, and then each direction is a stream of chunks.
  A client that writes in this format, and reads what comes back in it, gets its bytes to the
  target and the bytes of the target back.

  BLAKE3 is a parameter, beside the ciphers; so are the two readings of the clock, the salt
  of the answer and the reads of the target.
-/
import Ruproxy.Shadowsocks.RequestHeader
import Ruproxy.Shadowsocks.StreamRoundTrip

set_option autoImplicit false

namespace Ruproxy.Shadowsocks

open Ruproxy.Foundation Ruproxy.Address
open Ruproxy.Foundation.Outcome

/-- The primitives of a connection. -/
structure SessionCrypto extends Crypto where
  /-- `blake3::derive_key` -/
  blake3DeriveKey : String → Bytes → Vector UInt8 32

/-- The documented behaviour of the ciphers, and that they open nothing but what they seal. -/
structure SessionCrypto.Lawful (crypto : SessionCrypto) : Prop where
  aead : crypto.toCrypto.Lawful
  encrypt_decrypt : ∀ c key nonce plain ct,
    crypto.decrypt c key nonce ct = some plain → crypto.encrypt c key nonce plain = some ct

/-! ## Keys and headers -/

/-- `ShadowsocksCipher::salt_len`. -/
def ShadowsocksCipher.saltLen (c : ShadowsocksCipher) : Nat := c.keyLen

/-- `STREAM_TYPE_RESPONSE`. -/
def streamTypeResponse : UInt8 := 0x01

/-- `derive_session_subkey`; the slice of the derived key panics where it has fewer bytes. -/
def deriveSessionSubkey {ε : Type} (crypto : SessionCrypto) (masterKey salt : Bytes)
    (keyLen : Nat) : Outcome ε Bytes :=
  let ikm := masterKey ++ salt
  let derived := crypto.blake3DeriveKey "shadowsocks 2022 session subkey" ikm
  slice derived.toList 0 keyLen

/-- `build_response_header`, with the clock. -/
def buildResponseHeader (now : UInt64) (requestSalt : Bytes) : Bytes :=
  streamTypeResponse :: (u64ToBe now ++ requestSalt)

/-- `parse_response_header`, with the clock. -/
def parseResponseHeader (now : UInt64) (data : Bytes) (keyLen : Nat) : Outcome AddrError Bytes :=
  let minLen := 1 + 8 + keyLen
  if data.length < minLen then err (.bail "shadowsocks 2022: response header too short")
  else do
    let streamType ← index data 0
    if streamType ≠ streamTypeResponse then
      err (.bail ("shadowsocks 2022: wrong stream type in response 0x" ++ hex streamType.toNat))
    else
    let ts ← slice data 1 9 >>= fun b => unwrap (tryInto 8 b)
    checkTimestamp now (u64OfBe ts)
    slice data 9 (9 + keyLen)

theorem keyLen_le (c : ShadowsocksCipher) : c.keyLen ≤ 32 := by
  cases c with
  | blake3Aes128Gcm => decide
  | blake3Aes256Gcm => decide
  | blake3Chacha20Poly1305 => decide

/-- The subkey of a cipher is never cut off. -/
theorem exists_deriveSessionSubkey {ε : Type} (crypto : SessionCrypto) (masterKey salt : Bytes)
    (c : ShadowsocksCipher) : ∃ subkey : Bytes, subkey.length = c.keyLen ∧
      (deriveSessionSubkey crypto masterKey salt c.saltLen : Outcome ε Bytes) = ok subkey := by
  have hlen : c.keyLen ≤
      (crypto.blake3DeriveKey "shadowsocks 2022 session subkey" (masterKey ++ salt)).toList.length := by
    rw [Vector.length_toList]
    exact keyLen_le c
  exact ⟨_, length_slice (Nat.zero_le _) hlen, slice_of_le (Nat.zero_le _) hlen⟩

/-- The salt that a response header names is the one that it was built for. -/
theorem parseResponseHeader_build {now ts : UInt64} (hts : |(ts.toNat : Int) - now.toNat| ≤ 30)
    (salt : Bytes) :
    parseResponseHeader now (buildResponseHeader ts salt) salt.length = ok salt := by
  obtain ⟨b, hb⟩ := exists_toList_eq (u64ToBe_length ts)
  have hlen : (buildResponseHeader ts salt).length = 9 + salt.length := by
    rw [buildResponseHeader, List.length_cons, List.length_append, u64ToBe_length]
    omega
  have hts' : (slice (buildResponseHeader ts salt) 1 9 : Outcome AddrError Bytes) =
      ok b.toList := by
    rw [slice_of_le (by decide) (by omega), hb, buildResponseHeader, List.drop_succ_cons,
      List.drop_zero]
    exact congrArg ok (List.take_left' (u64ToBe_length ts))
  have hsalt : (slice (buildResponseHeader ts salt) 9 (9 + salt.length) :
      Outcome AddrError Bytes) = ok salt := by
    rw [slice_of_le (by omega) (by omega), buildResponseHeader, Nat.add_sub_cancel_left,
      List.drop_succ_cons, List.drop_left' (u64ToBe_length ts), List.take_length]
  unfold parseResponseHeader
  dsimp only
  rw [if_neg (by omega), index_eq_ok.mpr rfl, ok_bind, if_neg (not_not.mpr rfl), hts', ok_bind,
    tryInto_eq_some.mpr rfl, unwrap_some, ok_bind, u64OfBe_eq_iff.mpr hb,
    checkTimestamp_eq_ok_iff.mpr hts, ok_bind, hsalt]

/-! ## The connection -/

/-- The buffers of the two loops of `process`. -/
def relayBufferSize : Nat := 32 * 1024

/-- A call of `read_plain` that gave bytes has brought the reader forward. -/
theorem readPlain_progress {crypto : Crypto} {r r' : AeadReader} {out : Bytes} (hout : out ≠ [])
    (h : r.readPlain crypto relayBufferSize = (.ok out, r')) :
    r'.inner.length < r.inner.length ∨
      r'.inner.length = r.inner.length ∧ r'.buf.length < r.buf.length := by
  unfold AeadReader.readPlain at h
  split at h
  · cases h
  · cases h
    exact absurd rfl hout
  · rename_i r₁ hready
    cases h
    have hpos : 0 < (r₁.takeBuf relayBufferSize).1.length := List.length_pos_iff.mpr hout
    rw [AeadReader.takeBuf, List.length_take] at hpos
    unfold AeadReader.ensureBuf at hready
    split at hready
    · have hlt := AeadReader.fillBuf_inner_lt crypto hready
      exact .inl hlt
    · cases hready
      refine .inr ⟨rfl, ?_⟩
      show (r.buf.drop relayBufferSize).length < r.buf.length
      rw [List.length_drop]
      omega

/-- The loop of `uplink`: what it writes to the target before a read gives nothing or fails. -/
def uplink (crypto : Crypto) (r : AeadReader) : Bytes :=
  match _h : r.readPlain crypto relayBufferSize with
  | (.ok [], _) => []
  | (.error _, _) => []
  | (.ok (b :: out), r') => b :: out ++ uplink crypto r'
termination_by (r.inner.length, r.buf.length)
decreasing_by
  rcases readPlain_progress (List.cons_ne_nil _ _) _h with hlt | ⟨heq, hlt⟩
  · exact Prod.Lex.left _ _ hlt
  · rw [heq]
    exact Prod.Lex.right _ hlt

/-- The loop of `downlink` over the reads of the target. -/
def downlink (crypto : Crypto) (w : AeadWriter) : List Bytes → AeadWriter
  | [] => w
  | data :: reads =>
      if data.isEmpty then w
      else
        match w.writeData crypto data with
        | (.error _, w) => w
        | (.ok (), w) => downlink crypto w reads

/-- How a connection failed. -/
inductive ProcessError where
  /-- the salt of the client is cut off -/
  | unexpectedEof
  | aead (e : Error)
  /-- `parse_request_header` failed, or it panicked -/
  | header (e : Outcome AddrError Unit)
  | connect
  /-- a subkey was cut off -/
  | panic
  deriving DecidableEq

/-- What became of a connection. -/
structure Processed where
  /-- the target that it tried to connect to -/
  dialed : Option String
  toTarget : Bytes
  toClient : Bytes
  result : Except ProcessError Unit

/-- What `process` is given beside the bytes of the client. -/
structure Setting where
  cipher : ShadowsocksCipher
  masterKey : Bytes
  /-- the clock when the request is parsed -/
  now : UInt64
  /-- the clock when the response is built -/
  later : UInt64
  respSalt : Bytes
  /-- the reads of a target that is connected -/
  connect : String → Option (List Bytes)

section

variable (crypto : SessionCrypto) (env : Setting)

/-- `process` behind the connection to the target. -/
def answer (clientSalt : Bytes) (target : String) (aeadR : AeadReader) (outR : List Bytes) :
    Processed :=
  match (deriveSessionSubkey crypto env.masterKey env.respSalt env.cipher.saltLen :
      Outcome Unit Bytes) with
  | .ok dnSubkey =>
      let aeadW := AeadWriter.new env.cipher (List.replicate env.cipher.saltLen 0)
      let aeadW := (aeadW.writeRaw env.respSalt).resetSubkey dnSubkey
      match aeadW.writeHeaderChunk crypto.toCrypto (buildResponseHeader env.later clientSalt) with
      | (.error e, aeadW) => ⟨some target, [], aeadW.inner, .error (.aead e)⟩
      | (.ok (), aeadW) =>
          ⟨some target, uplink crypto.toCrypto aeadR,
            (downlink crypto.toCrypto aeadW outR).inner, .ok ()⟩
  | _ => ⟨some target, [], [], .error .panic⟩

/-- `process`. -/
def process (client : Bytes) : Processed :=
  match readExact env.cipher.saltLen client with
  | none => ⟨none, [], [], .error .unexpectedEof⟩
  | some (clientSalt, stream) =>
      match (deriveSessionSubkey crypto env.masterKey clientSalt env.cipher.saltLen :
          Outcome Unit Bytes) with
      | .ok upSubkey =>
          match (AeadReader.new stream env.cipher upSubkey).readHeaderChunk crypto.toCrypto with
          | (.error e, _) => ⟨none, [], [], .error (.aead e)⟩
          | (.ok headerData, aeadR) =>
              match parseRequestHeader env.now headerData streamTypeRequest with
              | .err e => ⟨none, [], [], .error (.header (.err e))⟩
              | .panic => ⟨none, [], [], .error (.header .panic)⟩
              | .ok target =>
                  match env.connect target with
                  | none => ⟨some target, [], [], .error .connect⟩
                  | some outR => answer crypto env clientSalt target aeadR outR
      | _ => ⟨none, [], [], .error .panic⟩

/-! ## The client -/

/-- What a client sends: its salt, and a stream of chunks under the subkey of that. -/
def sealRequest (salt header : Bytes) (bufs : List Bytes) : Outcome Unit Bytes := do
  let subkey ← deriveSessionSubkey crypto env.masterKey salt env.cipher.saltLen
  return salt ++
    ((AeadWriter.new env.cipher subkey).writeStream crypto.toCrypto header bufs).2.inner

/-- What a client reads: the header of the response and the data behind it. -/
def openResponse (response : Bytes) : Option (Bytes × Bytes) :=
  match readExact env.cipher.saltLen response with
  | none => none
  | some (salt, stream) =>
      match (deriveSessionSubkey crypto env.masterKey salt env.cipher.saltLen :
          Outcome Unit Bytes) with
      | .ok subkey =>
          match (AeadReader.new stream env.cipher subkey).readHeaderChunk crypto.toCrypto with
          | (.ok header, r) => some (header, uplink crypto.toCrypto r)
          | (.error _, _) => none
      | _ => none

end

/-! ## The chunks -/

section Chunks

variable {crypto : SessionCrypto} {cipher : ShadowsocksCipher} {key : Bytes}

/-- What is opened was sealed. -/
theorem aeadEncrypt_of_decrypt (hcrypto : crypto.Lawful) {nonce : Nonce} {pt ct : Bytes}
    (h : aeadDecrypt crypto.toCrypto cipher key nonce ct = .ok pt) :
    aeadEncrypt crypto.toCrypto cipher key nonce pt = .ok ct := by
  unfold aeadDecrypt at h
  split at h
  · cases h
  rename_i hkey
  split at h
  · rename_i pt' hpt
    cases h
    rw [aeadEncrypt, if_neg hkey, hcrypto.encrypt_decrypt _ _ _ _ _ hpt]
  · cases h

theorem writeChunk_eq_ok {w : AeadWriter} {chunk lenCt payloadCt : Bytes}
    (hlen : aeadEncrypt crypto.toCrypto w.cipher w.subkey w.nonce (lenPt chunk.length) =
      .ok lenCt)
    (hpayload : aeadEncrypt crypto.toCrypto w.cipher w.subkey (incrementNonce w.nonce) chunk =
      .ok payloadCt) :
    w.writeChunk crypto.toCrypto chunk = (.ok (), { w with
      inner := w.inner ++ lenCt ++ payloadCt
      nonce := incrementNonce (incrementNonce w.nonce)
      sealed := w.sealed ++ [incrementNonce (incrementNonce w.nonce)] }) := by
  simp only [AeadWriter.writeChunk, hlen, hpayload]

/-- The first chunk that a fresh writer makes of a header. -/
def IsHeaderChunk (crypto : SessionCrypto) (cipher : ShadowsocksCipher) (key header : Bytes)
    (chunk : Bytes) : Prop :=
  header.length ≤ 65535 ∧
    ∃ w, (AeadWriter.new cipher key).writeHeaderChunk crypto.toCrypto header = (.ok (), w) ∧
      w.inner = chunk

theorem isHeaderChunk_iff {header chunk : Bytes} :
    IsHeaderChunk crypto cipher key header chunk ↔ header.length ≤ 65535 ∧
      ∃ lenCt payloadCt, chunk = lenCt ++ payloadCt ∧
        aeadEncrypt crypto.toCrypto cipher key (.replicate 12 0) (lenPt header.length) =
          .ok lenCt ∧
        aeadEncrypt crypto.toCrypto cipher key (incrementNonce (.replicate 12 0)) header =
          .ok payloadCt := by
  refine and_congr_right fun _ => ?_
  constructor
  · rintro ⟨w, hwrite, rfl⟩
    unfold AeadWriter.writeHeaderChunk AeadWriter.writeChunk at hwrite
    split at hwrite
    · cases hwrite
    rename_i lenCt hlen
    dsimp only at hwrite
    split at hwrite
    · cases hwrite
    rename_i payloadCt hpayload
    cases hwrite
    exact ⟨lenCt, payloadCt, rfl, hlen, hpayload⟩
  · rintro ⟨lenCt, payloadCt, rfl, hlen, hpayload⟩
    exact ⟨_, writeChunk_eq_ok hlen hpayload, rfl⟩

/-- **Headers.**  A fresh reader takes exactly a header chunk off the stream. -/
theorem readHeaderChunk_new_eq_ok (hcrypto : crypto.Lawful) {stream header : Bytes} :
    (∃ r, (AeadReader.new stream cipher key).readHeaderChunk crypto.toCrypto = (.ok header, r)) ↔
      ∃ chunk rest, stream = chunk ++ rest ∧ IsHeaderChunk crypto cipher key header chunk := by
  constructor
  · rintro ⟨r, h⟩
    unfold AeadReader.readHeaderChunk at h
    split at h
    · cases h
    rename_i lenCt inner hread
    obtain ⟨hsplit, hlenCt⟩ := readExact_eq_some.mp hread
    unfold AeadReader.openChunk at h
    split at h
    · cases h
    · rename_i a b tail hlen
      dsimp only at h
      split at h
      · cases h
      rename_i payloadCt inner' hpayloadRead
      obtain ⟨rfl, hpayloadCt⟩ := readExact_eq_some.mp hpayloadRead
      split at h
      · cases h
      rename_i payload hpayload
      cases h
      have hsealLen := aeadEncrypt_of_decrypt hcrypto hlen
      have hsealPayload := aeadEncrypt_of_decrypt hcrypto hpayload
      have hlenLen := (aeadDecrypt_of_encrypt hcrypto.aead hsealLen).1
      have hpayloadLen := (aeadDecrypt_of_encrypt hcrypto.aead hsealPayload).1
      -- the length field has two bytes, which are those of the length of the header
      have htail : tail = [] := by
        rw [hlenCt] at hlenLen
        have htwo : 2 + 16 = tail.length + 1 + 1 + 16 := hlenLen
        exact List.eq_nil_of_length_eq_zero (by omega)
      have hvalue : header.length = (u16OfBe a b).toNat := by
        rw [hpayloadCt] at hpayloadLen
        exact Nat.add_right_cancel hpayloadLen.symm
      have hbytes : lenPt header.length = [a, b] := by
        rw [hvalue, ← u16ToBe_ofBe a b]
        rfl
      refine ⟨lenCt ++ payloadCt, inner', ?_, isHeaderChunk_iff.mpr ⟨?_, lenCt, payloadCt, rfl, ?_,
        hsealPayload⟩⟩
      · rw [List.append_assoc]
        exact hsplit
      · have hlt := (u16OfBe a b).toNat_lt
        omega
      · rw [hbytes, ← htail]
        exact hsealLen
    · cases h
  · rintro ⟨chunk, rest, rfl, hchunk⟩
    obtain ⟨hshort, lenCt, payloadCt, rfl, hlen, hpayload⟩ := isHeaderChunk_iff.mp hchunk
    have hread := AeadReader.readExact_lenCt hcrypto.aead hlen (payloadCt ++ rest)
    have hopen := @AeadReader.openChunk_wire crypto.toCrypto
      (AeadReader.new (payloadCt ++ rest) cipher key) hcrypto.aead (.replicate 12 0) header lenCt
      payloadCt hshort hlen hpayload rest rfl rfl
    rw [List.append_assoc]
    have hheader : (AeadReader.new (lenCt ++ (payloadCt ++ rest)) cipher key).readHeaderChunk
        crypto.toCrypto = (AeadReader.new (payloadCt ++ rest) cipher key).openChunk
          crypto.toCrypto lenCt := by
      simp only [AeadReader.readHeaderChunk, AeadReader.new, hread]
    exact ⟨_, hheader.trans hopen⟩

/-- The loop reads all that is left. -/
theorem uplink_of_reading (hcrypto : crypto.toCrypto.Lawful) {nonces : List Nonce}
    {r : AeadReader} {rest : Bytes}
    (h : AeadReader.Reading crypto.toCrypto cipher key nonces r rest) :
    uplink crypto.toCrypto r = rest := by
  induction hn : rest.length using Nat.strongRecOn generalizing r rest with
  | ind n ih =>
    obtain ⟨out, r', hread, -, hnil, hsplit, hrest⟩ :=
      h.readPlain hcrypto (show 0 < relayBufferSize by decide)
    cases out with
    | nil =>
      rw [hnil.mp rfl, uplink]
      split
      · rfl
      · rfl
      · rename_i heq
        rw [hread] at heq
        cases heq
    | cons b out =>
      have hlt : (rest.drop (b :: out).length).length < n := by
        have hpos : 0 < rest.length := List.length_pos_iff.mpr fun h => nomatch hnil.mpr h
        rw [List.length_drop, List.length_cons]
        omega
      rw [uplink]
      split
      · rename_i heq
        rw [hread] at heq
        cases heq
      · rename_i heq
        rw [hread] at heq
        cases heq
      · rename_i heq
        rw [hread] at heq
        cases heq
        rw [ih _ hlt hrest rfl]
        exact hsplit.symm

end Chunks

/-! ## Sessions -/

section Sessions

variable {crypto : SessionCrypto} {env : Setting}

/-- The chunks of buffers that are not empty are not empty. -/
theorem ne_nil_of_mem_bufChunks {bufs : List Bytes} {c : Bytes}
    (hc : c ∈ bufs.flatMap (chunks maxChunk)) : c ≠ [] := by
  obtain ⟨b, -, hcb⟩ := List.mem_flatMap.mp hc
  exact ne_nil_of_mem_chunks (by decide) hcb

/-- **One direction.**  A reader with the subkey of a fresh writer takes the header off what the
writer wrote, and reads the buffers behind it to the end. -/
theorem uplink_writeStream (hcrypto : crypto.toCrypto.Lawful) {cipher : ShadowsocksCipher}
    {key header : Bytes} (hkey : key.length = cipher.keyLen) (hheader : header.length ≤ 65535)
    (bufs : List Bytes) :
    ∃ w, (AeadWriter.new cipher key).writeStream crypto.toCrypto header bufs = (.ok (), w) ∧
      ∃ r, (AeadReader.new w.inner cipher key).readHeaderChunk crypto.toCrypto = (.ok header, r) ∧
        uplink crypto.toCrypto r = bufs.flatten := by
  have hshort : ∀ c ∈ header :: bufs.flatMap (chunks maxChunk), c.length ≤ 65535 := by
    intro c hc
    rcases List.mem_cons.mp hc with rfl | hc
    · exact hheader
    · obtain ⟨b, -, hcb⟩ := List.mem_flatMap.mp hc
      exact (length_le_of_mem_chunks hcb).trans (by decide)
  obtain ⟨bytes, after, n', hwritten, hwire⟩ :=
    @AeadWriter.writeChunks_wire _ (.new cipher key) hcrypto hkey _ hshort
  obtain ⟨r, hread, hreading⟩ := @AeadReader.readHeaderChunk_wire _ (.new bytes cipher key)
    hcrypto _ _ _ _ hwire (fun c hc => ne_nil_of_mem_bufChunks hc) rfl rfl
  rw [← AeadWriter.writeStream_eq] at hwritten
  refine ⟨_, hwritten, r, hread, ?_⟩
  rw [uplink_of_reading hcrypto hreading, flatten_flatMap_chunks (by decide)]

/-- The loop of `downlink` over reads that gave bytes. -/
theorem downlink_eq_writeAll {w : AeadWriter} {reads : List Bytes} (hreads : ∀ b ∈ reads, b ≠ []) :
    downlink crypto.toCrypto w reads = (w.writeAll crypto.toCrypto reads).2 := by
  induction reads generalizing w with
  | nil => rfl
  | cons data reads ih =>
    have hne : ¬ data.isEmpty = true := by simpa using hreads data List.mem_cons_self
    rw [downlink, if_neg hne, AeadWriter.writeAll]
    rcases w.writeData crypto.toCrypto data with ⟨_ | _, w'⟩
    · rfl
    · exact ih fun b hb => hreads b (List.mem_cons_of_mem _ hb)

/-- What was written before does not change what a writer goes on to write. -/
theorem writeChunks_raw (w : AeadWriter) (salt : Bytes) (bufs : List Bytes) :
    (({ w with inner := salt ++ w.inner } : AeadWriter).writeChunks crypto.toCrypto bufs) =
      ((w.writeChunks crypto.toCrypto bufs).1,
        { (w.writeChunks crypto.toCrypto bufs).2 with
          inner := salt ++ (w.writeChunks crypto.toCrypto bufs).2.inner }) := by
  induction bufs generalizing w with
  | nil => rfl
  | cons chunk bufs ih =>
    have hchunk :
        ({ w with inner := salt ++ w.inner } : AeadWriter).writeChunk crypto.toCrypto chunk =
          ((w.writeChunk crypto.toCrypto chunk).1, { (w.writeChunk crypto.toCrypto chunk).2 with
              inner := salt ++ (w.writeChunk crypto.toCrypto chunk).2.inner }) := by
      unfold AeadWriter.writeChunk
      dsimp only
      split
      · rfl
      · split
        · rfl
        · simp only [List.append_assoc]
    rw [AeadWriter.writeChunks, hchunk, AeadWriter.writeChunks]
    rcases w.writeChunk crypto.toCrypto chunk with ⟨_ | _, w'⟩
    · rfl
    · exact ih w'

/-- A connection behind its header answers with a stream that its client reads: the salt of the
client in the header, and the bytes of the target behind it. -/
theorem openResponse_answer (hcrypto : crypto.toCrypto.Lawful) {clientSalt : Bytes}
    {target : String} {aeadR : AeadReader} {outR : List Bytes}
    (hsalt : clientSalt.length = env.cipher.saltLen)
    (hresp : env.respSalt.length = env.cipher.saltLen) (hreads : ∀ b ∈ outR, b ≠ []) :
    let served := answer crypto env clientSalt target aeadR outR
    served.dialed = some target ∧ served.toTarget = uplink crypto.toCrypto aeadR ∧
      served.result = .ok () ∧ openResponse crypto env served.toClient =
        some (buildResponseHeader env.later clientSalt, outR.flatten) := by
  obtain ⟨subkey, hkey, hderive⟩ := @exists_deriveSessionSubkey Unit crypto env.masterKey
    env.respSalt env.cipher
  have hheader : (buildResponseHeader env.later clientSalt).length ≤ 65535 := by
    have hle := keyLen_le env.cipher
    rw [ShadowsocksCipher.saltLen] at hsalt
    rw [buildResponseHeader, List.length_cons, List.length_append, u64ToBe_length]
    omega
  obtain ⟨w, hwrite, r, hread, hall⟩ := uplink_writeStream hcrypto hkey hheader outR
  -- the writer of the server has the salt in front
  have hwriter : ((AeadWriter.new env.cipher (List.replicate env.cipher.saltLen 0)).writeRaw
      env.respSalt).resetSubkey subkey = { AeadWriter.new env.cipher subkey with
        inner := env.respSalt ++ (AeadWriter.new env.cipher subkey).inner } := by
    simp [AeadWriter.new, AeadWriter.writeRaw, AeadWriter.resetSubkey]
  have hstream := @writeChunks_raw crypto (AeadWriter.new env.cipher subkey) env.respSalt
    (buildResponseHeader env.later clientSalt :: outR.flatMap (chunks maxChunk))
  rw [← AeadWriter.writeStream_eq, ← AeadWriter.writeStream_eq, ← hwriter, hwrite,
    AeadWriter.writeStream] at hstream
  have hopen : openResponse crypto env (env.respSalt ++ w.inner) =
      some (buildResponseHeader env.later clientSalt, outR.flatten) := by
    unfold openResponse
    rw [readExact_append hresp]
    dsimp only
    rw [hderive]
    dsimp only
    rw [hread]
    dsimp only
    rw [hall]
  dsimp only
  unfold answer
  rw [hderive]
  dsimp only
  generalize AeadWriter.writeHeaderChunk crypto.toCrypto _ _ = written at hstream ⊢
  obtain ⟨_ | _, w'⟩ := written
  · cases hstream
  · dsimp only at hstream ⊢
    rw [downlink_eq_writeAll hreads, hstream]
    exact ⟨rfl, rfl, rfl, hopen⟩

theorem dialed_answer (clientSalt : Bytes) (target : String) (aeadR : AeadReader)
    (outR : List Bytes) : (answer crypto env clientSalt target aeadR outR).dialed = some target := by
  unfold answer
  split
  · dsimp only
    split
    · rfl
    · rfl
  · rfl

/-- What the client has to send behind its salt. -/
theorem exists_request_iff (hcrypto : crypto.Lawful) {salt stream subkey : Bytes} {target : String}
    (hlen : salt.length = env.cipher.saltLen)
    (hderive : deriveSessionSubkey crypto env.masterKey salt env.cipher.saltLen =
      (ok subkey : Outcome Unit Bytes)) :
    (∃ salt' subkey' chunk rest header, salt ++ stream = salt' ++ (chunk ++ rest) ∧
        salt'.length = env.cipher.saltLen ∧
        deriveSessionSubkey crypto env.masterKey salt' env.cipher.saltLen =
          (ok subkey' : Outcome Unit Bytes) ∧
        IsHeaderChunk crypto env.cipher subkey' header chunk ∧ 18 ≤ header.length ∧
        ∃ r : RequestFields, r.Timely env.now ∧ r.layout streamTypeRequest <+: header ∧
          r.target = target) ↔
      ∃ header, (∃ r, (AeadReader.new stream env.cipher subkey).readHeaderChunk
        crypto.toCrypto = (.ok header, r)) ∧
          parseRequestHeader env.now header streamTypeRequest = ok target := by
  constructor
  · rintro ⟨salt', subkey', chunk, rest, header, heq, hlen', hderive', hchunk, hrequest⟩
    obtain ⟨rfl, rfl⟩ := List.append_inj heq (hlen.trans hlen'.symm)
    rw [hderive] at hderive'
    cases hderive'
    exact ⟨header, (readHeaderChunk_new_eq_ok hcrypto).mpr ⟨chunk, rest, rfl, hchunk⟩,
      parseRequestHeader_eq_ok_iff.mpr hrequest⟩
  · rintro ⟨header, hread, hparse⟩
    obtain ⟨chunk, rest, rfl, hchunk⟩ := (readHeaderChunk_new_eq_ok hcrypto).mp hread
    exact ⟨salt, subkey, chunk, rest, header, rfl, hlen, hderive, hchunk,
      parseRequestHeader_eq_ok_iff.mp hparse⟩

/-- **The gate.**  A target is dialed exactly if the stream of the client is a salt, a header
chunk under the subkey of that salt and anything behind it, and the header is one of at least 18
bytes that begins with a timely request for the target; where nothing is dialed, nobody gets a
byte. -/
theorem shadowsocks_gate (hcrypto : crypto.Lawful) (env : Setting) (client : Bytes) :
    (∀ target, (process crypto env client).dialed = some target ↔
      ∃ salt subkey chunk rest header, client = salt ++ (chunk ++ rest) ∧
        salt.length = env.cipher.saltLen ∧
        deriveSessionSubkey crypto env.masterKey salt env.cipher.saltLen =
          (ok subkey : Outcome Unit Bytes) ∧
        IsHeaderChunk crypto env.cipher subkey header chunk ∧ 18 ≤ header.length ∧
        ∃ r : RequestFields, r.Timely env.now ∧ r.layout streamTypeRequest <+: header ∧
          r.target = target) ∧
    ((process crypto env client).dialed = none →
      (process crypto env client).toTarget = [] ∧ (process crypto env client).toClient = []) := by
  unfold process
  cases hsalt : readExact env.cipher.saltLen client with
  | none =>
    refine ⟨fun target => iff_of_false (fun heq => by cases heq) ?_, fun _ => ⟨rfl, rfl⟩⟩
    rintro ⟨salt, subkey, chunk, rest, header, rfl, hlen, -⟩
    rw [readExact_append hlen] at hsalt
    cases hsalt
  | some split =>
    obtain ⟨salt, stream⟩ := split
    obtain ⟨rfl, hlen⟩ := readExact_eq_some.mp hsalt
    obtain ⟨subkey, -, hderive⟩ := @exists_deriveSessionSubkey Unit crypto env.masterKey salt
      env.cipher
    dsimp only
    rw [hderive]
    dsimp only
    simp only [exists_request_iff hcrypto hlen hderive]
    rcases hread : (AeadReader.new stream env.cipher subkey).readHeaderChunk crypto.toCrypto with
      ⟨e | header, r⟩
    · refine ⟨fun target => iff_of_false (fun heq => by cases heq) ?_, fun _ => ⟨rfl, rfl⟩⟩
      rintro ⟨header, ⟨r', hr⟩, -⟩
      cases hr
    · dsimp only
      have hheader : ∀ target, (∃ header',
          (∃ r', ((.ok header, r) : Except Error Bytes × AeadReader) = (.ok header', r')) ∧
            parseRequestHeader env.now header' streamTypeRequest = ok target) ↔
          parseRequestHeader env.now header streamTypeRequest = ok target := by
        intro target
        constructor
        · rintro ⟨header', ⟨r', heq⟩, hparse⟩
          cases heq
          exact hparse
        · exact fun hparse => ⟨header, ⟨r, rfl⟩, hparse⟩
      simp only [hheader]
      cases hparse : parseRequestHeader env.now header streamTypeRequest with
      | err | panic =>
        refine ⟨fun target => iff_of_false (fun heq => ?_) fun heq => ?_, fun _ => ⟨rfl, rfl⟩⟩
        · cases heq
        · cases heq
      | ok target' =>
        dsimp only
        have htarget : ∀ target, some target' = some target ↔
            (ok target' : Outcome AddrError String) = ok target := by simp
        cases env.connect target' with
        | none => exact ⟨htarget, fun heq => by cases heq⟩
        | some outR =>
          dsimp only
          rw [dialed_answer]
          exact ⟨htarget, fun heq => by cases heq⟩

end Sessions

/-! ## Instances -/

/-- Ciphers with the nonce in their tag, and a derivation that gives the zero key. -/
def sessionCrypto : SessionCrypto where
  toCrypto := sampleCrypto
  blake3DeriveKey _ _ := 0

theorem sessionCrypto_lawful : sessionCrypto.Lawful where
  aead := sampleCrypto_lawful
  encrypt_decrypt c key nonce plain ct h := by
    obtain ⟨htag, hplain⟩ := Option.ite_none_right_eq_some.mp h
    obtain rfl := Option.some.inj hplain
    refine congrArg some ?_
    rw [List.append_assoc, ← htag]
    exact List.take_append_drop _ _

/-- A server whose targets say `ok`. -/
def sampleSetting : Setting where
  cipher := .blake3Aes128Gcm
  masterKey := List.replicate 16 0
  now := 0
  later := 0
  respSalt := List.replicate 16 1
  connect _ := some [[111, 107]]

theorem samplePadding_lt : ([] : Bytes).length < 65536 := Nat.succ_pos 65535

/-- A request for `127.0.0.1:80`. -/
def sampleRequest : RequestFields where
  timestamp := 0
  addr := .ipv4 #v[127, 0, 0, 1]
  port := 80
  padding := []
  padding_lt := samplePadding_lt

/-- Its client, with a salt of twos. -/
def sampleClient : Bytes :=
  List.replicate 16 2 ++ ((AeadWriter.new .blake3Aes128Gcm (List.replicate 16 0)).writeHeaderChunk
    sampleCrypto (sampleRequest.layout streamTypeRequest)).2.inner

/-- A sealed request is dialed. -/
theorem shadowsocks_gate_request :
    (process sessionCrypto sampleSetting sampleClient).dialed = some "127.0.0.1:80" := by
  refine ((shadowsocks_gate sessionCrypto_lawful sampleSetting sampleClient).1 _).mpr
    ⟨List.replicate 16 2, List.replicate 16 0, _, [], sampleRequest.layout streamTypeRequest,
      ?_, rfl, rfl, ⟨by decide, _, rfl, rfl⟩, by decide, sampleRequest, ?_, List.prefix_rfl, ?_⟩
  · rw [List.append_nil]
    rfl
  · rw [RequestFields.Timely]
    decide
  · decide +kernel

section Sessions

variable {crypto : SessionCrypto} {env : Setting}

/-- **Sessions.**  A client with the key sends a timely request under a salt of its own.  The
server connects to its target and writes to it what the client cut into buffers; the client
reads a header with its own salt in it, and what the target sent. -/
theorem shadowsocks_session (hcrypto : crypto.toCrypto.Lawful) {salt : Bytes}
    (hsalt : salt.length = env.cipher.saltLen)
    (hresp : env.respSalt.length = env.cipher.saltLen) {r : RequestFields}
    (htimely : r.Timely env.now) (hfits : (r.layout streamTypeRequest).length ≤ 65535)
    (hlong : ¬ r.Short []) (sent : List Bytes) {back : List Bytes} (hback : ∀ b ∈ back, b ≠ [])
    (hconnect : env.connect r.target = some back) :
    ∃ client, sealRequest crypto env salt (r.layout streamTypeRequest) sent = ok client ∧
      let served := process crypto env client
      served.dialed = some r.target ∧ served.toTarget = sent.flatten ∧ served.result = .ok () ∧
        ∃ header, openResponse crypto env served.toClient = some (header, back.flatten) ∧
          ∀ now : UInt64, |(env.later.toNat : Int) - now.toNat| ≤ 30 →
            parseResponseHeader now header salt.length = ok salt := by
  obtain ⟨subkey, hkey, hderive⟩ := @exists_deriveSessionSubkey Unit crypto env.masterKey salt
    env.cipher
  obtain ⟨w, hwrite, aeadR, hread, hall⟩ := uplink_writeStream hcrypto hkey hfits sent
  have hparse : parseRequestHeader env.now (r.layout streamTypeRequest) streamTypeRequest =
      ok r.target := by
    have hlayout := @parseRequestHeader_layout _ streamTypeRequest _ htimely []
    rw [List.append_nil] at hlayout
    exact hlayout.mpr hlong
  refine ⟨salt ++ w.inner, ?_, ?_⟩
  · rw [sealRequest, hderive, ok_bind, hwrite]
    rfl
  · have hserved : process crypto env (salt ++ w.inner) =
        answer crypto env salt r.target aeadR back := by
      unfold process
      rw [readExact_append hsalt]
      dsimp only
      rw [hderive]
      dsimp only
      rw [hread]
      dsimp only
      rw [hparse]
      dsimp only
      rw [hconnect]
    obtain ⟨hdialed, hwritten, hresult, hopen⟩ := @openResponse_answer crypto env hcrypto salt
      r.target aeadR back hsalt hresp hback
    dsimp only
    rw [hserved]
    exact ⟨hdialed, hwritten.trans hall, hresult, _, hopen,
      fun now hnow => parseResponseHeader_build hnow salt⟩

end Sessions

/-- `hi` for the target, `ok` for the client. -/
theorem shadowsocks_session_hi : ∃ client,
    sealRequest sessionCrypto sampleSetting (List.replicate 16 2)
        (sampleRequest.layout streamTypeRequest) [[104], [105]] = ok client ∧
      (process sessionCrypto sampleSetting client).toTarget = [104, 105] ∧
        ∃ header, openResponse sessionCrypto sampleSetting
          (process sessionCrypto sampleSetting client).toClient = some (header, [111, 107]) := by
  obtain ⟨client, hseal, -, hwritten, -, header, hopen, -⟩ :=
    @shadowsocks_session sessionCrypto sampleSetting sampleCrypto_lawful (List.replicate 16 2)
      rfl rfl sampleRequest (by rw [RequestFields.Timely]; decide) (by decide) nofun [[104], [105]]
      [[111, 107]] (by simp) rfl
  exact ⟨client, hseal, hwritten, header, hopen⟩

end Ruproxy.Shadowsocks
