/-
  Shadowsocks/Aead.lean --- the chunk streams of `shadowsocks/protocol.rs`.

  `AeadWriter` seals a length and a payload for each chunk, `AeadReader` opens
  them again; both keep a nonce counter that goes up by one for each of the two.
  The ciphers come from other crates and are a parameter.  A call returns its
  result and the state it leaves, also where it fails.

  Not in the source, and read by no branch: the list of the nonces that a writer
  or reader had after each chunk (`sealed`, `opened`).  Writes to the transport
  do not fail; it gives the reader a byte string and then the end of the stream.
-/
import Ruproxy.Foundation.Bytes

set_option autoImplicit false

namespace Ruproxy.Shadowsocks

open Ruproxy.Foundation

/-! ## Ciphers -/

/-- `ShadowsocksCipher`. -/
inductive ShadowsocksCipher where
  | blake3Aes128Gcm
  | blake3Aes256Gcm
  | blake3Chacha20Poly1305
  deriving DecidableEq

/-- `ShadowsocksCipher::key_len`. -/
def ShadowsocksCipher.keyLen : ShadowsocksCipher → Nat
  | .blake3Aes128Gcm => 16
  | .blake3Aes256Gcm => 32
  | .blake3Chacha20Poly1305 => 32

/-- `ShadowsocksCipher::tag_len`. -/
def ShadowsocksCipher.tagLen (_ : ShadowsocksCipher) : Nat := 16

/-- A nonce, `[u8; 12]`. -/
abbrev Nonce : Type := Vector UInt8 12

/-- `encrypt` and `decrypt` of the three ciphers under a key of the right length. -/
structure Crypto where
  encrypt : ShadowsocksCipher → Bytes → Nonce → Bytes → Option Bytes
  decrypt : ShadowsocksCipher → Bytes → Nonce → Bytes → Option Bytes

/-- The documented behaviour of the ciphers: every message below 64 GiB is sealed,
the ciphertext is a tag longer, and opening it under the same key and nonce returns
the message. -/
structure Crypto.Lawful (crypto : Crypto) : Prop where
  encrypt_isSome : ∀ c key nonce plain, plain.length < 2 ^ 36 →
    (crypto.encrypt c key nonce plain).isSome
  encrypt_length : ∀ c key nonce plain ct,
    crypto.encrypt c key nonce plain = some ct → ct.length = plain.length + c.tagLen
  decrypt_encrypt : ∀ c key nonce plain ct,
    crypto.encrypt c key nonce plain = some ct → crypto.decrypt c key nonce ct = some plain

/-- How a call failed. -/
inductive Error where
  /-- the error of `new_from_slice` -/
  | invalidLength
  /-- `AEAD encrypt failed` -/
  | aeadEncryptFailed
  /-- `AEAD decrypt failed` -/
  | aeadDecryptFailed
  /-- the panic of `len_pt[0]` or `len_pt[1]` -/
  | indexOutOfBounds
  /-- the error of `read_exact` -/
  | unexpectedEof
  /-- `shadowsocks 2022: unexpected EOF reading data` -/
  | unexpectedEofReadingData
  deriving DecidableEq

section Aead

variable (crypto : Crypto)

/-- `aead_encrypt`. -/
def aeadEncrypt (cipher : ShadowsocksCipher) (key : Bytes) (nonce : Nonce) (pt : Bytes) :
    Except Error Bytes :=
  if key.length ≠ cipher.keyLen then .error .invalidLength
  else
    match crypto.encrypt cipher key nonce pt with
    | some ct => .ok ct
    | none => .error .aeadEncryptFailed

/-- `aead_decrypt`. -/
def aeadDecrypt (cipher : ShadowsocksCipher) (key : Bytes) (nonce : Nonce) (ct : Bytes) :
    Except Error Bytes :=
  if key.length ≠ cipher.keyLen then .error .invalidLength
  else
    match crypto.decrypt cipher key nonce ct with
    | some pt => .ok pt
    | none => .error .aeadDecryptFailed

end Aead

/-- The loop of `increment_nonce`. -/
def incrementBytes : Bytes → Bytes
  | [] => []
  | b :: bs => if b + 1 ≠ 0 then (b + 1) :: bs else (b + 1) :: incrementBytes bs

theorem incrementBytes_length (bs : Bytes) : (incrementBytes bs).length = bs.length := by
  induction bs with
  | nil => rfl
  | cons b bs ih =>
    unfold incrementBytes
    split
    · rfl
    · rw [List.length_cons, List.length_cons, ih]

/-- `increment_nonce`. -/
def incrementNonce (n : Nonce) : Nonce :=
  ⟨(incrementBytes n.toList).toArray, by simp [incrementBytes_length]⟩

/-! ## Writer -/

/-- `MAX_CHUNK`. -/
def maxChunk : Nat := 0x3FFF

/-- `AeadWriter`; `inner` is what was written to the transport. -/
structure AeadWriter where
  inner : Bytes
  cipher : ShadowsocksCipher
  subkey : Bytes
  nonce : Nonce
  sealed : List Nonce

/-- The two bytes of a length field. -/
def lenPt (chunkLen : Nat) : Bytes := [UInt8.ofNat (chunkLen / 256), UInt8.ofNat chunkLen]

namespace AeadWriter

/-- `AeadWriter::new` on a transport that nothing was written to. -/
def new (cipher : ShadowsocksCipher) (subkey : Bytes) : AeadWriter where
  inner := []
  cipher := cipher
  subkey := subkey
  nonce := .replicate 12 0
  sealed := []

/-- `AeadWriter::write_raw`. -/
def writeRaw (w : AeadWriter) (data : Bytes) : AeadWriter :=
  { w with inner := w.inner ++ data }

/-- `AeadWriter::reset_subkey`. -/
def resetSubkey (w : AeadWriter) (newSubkey : Bytes) : AeadWriter :=
  { w with subkey := newSubkey, nonce := .replicate 12 0 }

variable (crypto : Crypto)

/-- The body of `write_header_chunk` and of the loop of `write_data`. -/
def writeChunk (w : AeadWriter) (chunk : Bytes) : Except Error Unit × AeadWriter :=
  match aeadEncrypt crypto w.cipher w.subkey w.nonce (lenPt chunk.length) with
  | .error e => (.error e, w)
  | .ok lenCt =>
      let w := { w with nonce := incrementNonce w.nonce }
      match aeadEncrypt crypto w.cipher w.subkey w.nonce chunk with
      | .error e => (.error e, w)
      | .ok payloadCt =>
          let nonce := incrementNonce w.nonce
          (.ok (), { w with
            inner := w.inner ++ lenCt ++ payloadCt
            nonce := nonce
            sealed := w.sealed ++ [nonce] })

/-- `AeadWriter::write_header_chunk`. -/
def writeHeaderChunk (w : AeadWriter) (data : Bytes) : Except Error Unit × AeadWriter :=
  w.writeChunk crypto data

/-- One chunk after the other until one fails. -/
def writeChunks (w : AeadWriter) : List Bytes → Except Error Unit × AeadWriter
  | [] => (.ok (), w)
  | chunk :: chunks =>
      match w.writeChunk crypto chunk with
      | (.error e, w) => (.error e, w)
      | (.ok (), w) => w.writeChunks chunks

/-- `AeadWriter::write_data`; the slices `data[offset..offset + chunk_len]` of its loop
are those of `slice::chunks`. -/
def writeData (w : AeadWriter) (data : Bytes) : Except Error Unit × AeadWriter :=
  w.writeChunks crypto (chunks maxChunk data)

end AeadWriter

/-! ## Reader -/

/-- `AeadReader`; `inner` is what the transport still holds. -/
structure AeadReader where
  inner : Bytes
  cipher : ShadowsocksCipher
  subkey : Bytes
  nonce : Nonce
  buf : Bytes
  opened : List Nonce

namespace AeadReader

/-- `AeadReader::new`. -/
def new (inner : Bytes) (cipher : ShadowsocksCipher) (subkey : Bytes) : AeadReader where
  inner := inner
  cipher := cipher
  subkey := subkey
  nonce := .replicate 12 0
  buf := []
  opened := []

variable (crypto : Crypto)

/-- What `fill_buf` and `read_header_chunk` do after they read the encrypted length:
the payload of the chunk. -/
def openChunk (r : AeadReader) (lenCt : Bytes) : Except Error Bytes × AeadReader :=
  match aeadDecrypt crypto r.cipher r.subkey r.nonce lenCt with
  | .error e => (.error e, r)
  | .ok (a :: b :: _) =>
      let r := { r with nonce := incrementNonce r.nonce }
      let payloadLen := (u16OfBe a b).toNat
      match readExact (payloadLen + r.cipher.tagLen) r.inner with
      | none => (.error .unexpectedEof, { r with inner := [] })
      | some (payloadCt, inner) =>
          let r := { r with inner := inner }
          match aeadDecrypt crypto r.cipher r.subkey r.nonce payloadCt with
          | .error e => (.error e, r)
          | .ok payloadPt =>
              let nonce := incrementNonce r.nonce
              (.ok payloadPt, { r with nonce := nonce, opened := r.opened ++ [nonce] })
  | .ok _ => (.error .indexOutOfBounds, { r with nonce := incrementNonce r.nonce })

/-- `AeadReader::read_header_chunk`. -/
def readHeaderChunk (r : AeadReader) : Except Error Bytes × AeadReader :=
  match readExact (2 + r.cipher.tagLen) r.inner with
  | none => (.error .unexpectedEof, { r with inner := [] })
  | some (lenCt, inner) => openChunk crypto { r with inner := inner } lenCt

/-- `AeadReader::fill_buf`; the end of the stream while the length is read gives
`false`. -/
def fillBuf (r : AeadReader) : Except Error Bool × AeadReader :=
  match readExact (2 + r.cipher.tagLen) r.inner with
  | none => (.ok false, { r with inner := [] })
  | some (lenCt, inner) =>
      match openChunk crypto { r with inner := inner } lenCt with
      | (.error e, r) => (.error e, r)
      | (.ok payloadPt, r) => (.ok true, { r with buf := r.buf ++ payloadPt })

/-- `self.buf.is_empty() && !self.fill_buf()`: whether a call goes on with the buffer. -/
def ensureBuf (r : AeadReader) : Except Error Bool × AeadReader :=
  if r.buf.isEmpty then r.fillBuf crypto else (.ok true, r)

/-- The part of the buffer that goes to a destination with room for `n` bytes. -/
def takeBuf (r : AeadReader) (n : Nat) : Bytes × AeadReader :=
  (r.buf.take n, { r with buf := r.buf.drop n })

/-- `AeadReader::read_plain` into a buffer of `n` bytes. -/
def readPlain (r : AeadReader) (n : Nat) : Except Error Bytes × AeadReader :=
  match r.ensureBuf crypto with
  | (.error e, r) => (.error e, r)
  | (.ok false, r) => (.ok [], r)
  | (.ok true, r) =>
      let (out, r) := r.takeBuf n
      (.ok out, r)

/-! ## Every turn of `read_exact_plain` makes progress -/

theorem openChunk_inner_le (r : AeadReader) (lenCt : Bytes) :
    (r.openChunk crypto lenCt).2.inner.length ≤ r.inner.length := by
  unfold openChunk
  split
  · exact Nat.le_refl _
  · dsimp only
    split
    · exact Nat.zero_le _
    · rename_i hread
      obtain ⟨hsplit, -⟩ := readExact_eq_some.mp hread
      have hle : r.inner.length = _ := congrArg List.length hsplit
      rw [List.length_append] at hle
      split <;> (dsimp only; omega)
  · exact Nat.le_refl _

theorem fillBuf_inner_lt {r r' : AeadReader} (h : r.fillBuf crypto = (.ok true, r')) :
    r'.inner.length < r.inner.length := by
  unfold fillBuf at h
  split at h
  · simp at h
  · rename_i lenCt inner hread
    obtain ⟨hsplit, hlen⟩ := readExact_eq_some.mp hread
    have hle : r.inner.length = _ := congrArg List.length hsplit
    have hopen := openChunk_inner_le crypto { r with inner := inner } lenCt
    rw [List.length_append] at hle
    split at h
    · simp at h
    · rename_i hchunk
      rw [hchunk] at hopen
      simp only [Prod.mk.injEq, true_and] at h
      rw [← h]
      dsimp only at hopen ⊢
      omega

/-- After the buffer was made ready, it gives bytes or it was refilled. -/
theorem ensureBuf_progress {r r' : AeadReader} {n : Nat} (hn : 0 < n)
    (h : r.ensureBuf crypto = (.ok true, r')) :
    r'.inner.length < r.inner.length ∨
      r'.inner.length = r.inner.length ∧ 0 < (r'.takeBuf n).1.length := by
  unfold ensureBuf at h
  split at h
  · exact .inl (fillBuf_inner_lt crypto h)
  · rename_i hbuf
    right
    simp only [Prod.mk.injEq, true_and] at h
    subst h
    refine ⟨rfl, ?_⟩
    have hpos : 0 < r.buf.length := List.length_pos_iff.mpr (by simpa using hbuf)
    rw [takeBuf, List.length_take]
    omega

/-- The loop of `read_exact_plain` with `n` bytes of the destination still to fill. -/
def readExactPlain (r : AeadReader) (n : Nat) : Except Error Bytes × AeadReader :=
  if _hn : 0 < n then
    match _h : r.ensureBuf crypto with
    | (.error e, r') => (.error e, r')
    | (.ok false, r') => (.error .unexpectedEofReadingData, r')
    | (.ok true, r') =>
        let part := r'.takeBuf n
        let rest := readExactPlain part.2 (n - part.1.length)
        (rest.1.map (part.1 ++ ·), rest.2)
  else (.ok [], r)
termination_by (r.inner.length, n)
decreasing_by
  rcases ensureBuf_progress crypto _hn _h with hlt | ⟨heq, hpos⟩
  · exact Prod.Lex.left _ _ hlt
  · show Prod.Lex _ _ (r'.inner.length, n - (r'.takeBuf n).1.length) (r.inner.length, n)
    rw [heq]
    exact Prod.Lex.right _ (by omega)

theorem readExactPlain_zero (r : AeadReader) : r.readExactPlain crypto 0 = (.ok [], r) := by
  rw [readExactPlain]
  rfl

theorem readExactPlain_of_pos {r r' : AeadReader} {n : Nat} (hn : 0 < n)
    (h : r.ensureBuf crypto = (.ok true, r')) :
    r.readExactPlain crypto n =
      let part := r'.takeBuf n
      let rest := part.2.readExactPlain crypto (n - part.1.length)
      (rest.1.map (part.1 ++ ·), rest.2) := by
  rw [readExactPlain, dif_pos hn]
  split <;> simp_all

end AeadReader

end Ruproxy.Shadowsocks
