/-
  Shadowsocks/Nonces.lean --- the nonces of an `AeadWriter`.

  `increment_nonce` of `shadowsocks/protocol.rs` adds one to a little-endian number of
  twelve bytes.  The calls of the writer are run here once more with a log of what they
  encrypt; without the log they are the calls of `Shadowsocks/Aead`.  Every encryption on
  the log has the number of encryptions before it as its nonce, also after calls that
  failed.

  A write to the transport comes after the encryptions of its chunk.  So a call that a
  failed write ends makes the encryptions of the call on the first chunks of its data, and
  is not a case of its own.
-/
import Ruproxy.Foundation.Counter
import Ruproxy.Shadowsocks.Aead

set_option autoImplicit false

namespace Ruproxy.Shadowsocks

open Ruproxy.Foundation Ruproxy.Foundation.Counter

/-! ## `increment_nonce` -/

/-- The little-endian value of a nonce. -/
def nonceValue (n : Nonce) : Nat := ofLe n.toList

/-- The carry goes on as long as a byte wraps. -/
theorem ofLe_incrementBytes (bs : Bytes) :
    ofLe (incrementBytes bs) = (ofLe bs + 1) % 256 ^ bs.length := by
  induction bs with
  | nil => rfl
  | cons b bs ih =>
    have hb := b.toNat_lt
    have hbs := ofLe_lt bs
    have hnext : (b + 1).toNat = (b.toNat + 1) % 256 := UInt8.toNat_add b 1
    have hzero : b + 1 = 0 ↔ b.toNat = 255 := by
      rw [← UInt8.toNat_inj, hnext]
      show (b.toNat + 1) % 256 = 0 ↔ _
      omega
    rw [List.length_cons, Nat.pow_succ', ofLe_cons]
    unfold incrementBytes
    split
    · rename_i hne
      rw [Ne, hzero] at hne
      rw [ofLe_cons, hnext, Nat.mod_eq_of_lt (by omega), Nat.mod_eq_of_lt (by omega)]
      omega
    · rename_i heq
      rw [Ne, not_not, hzero] at heq
      have hcarry : b.toNat + 256 * ofLe bs + 1 = 256 * (ofLe bs + 1) := by omega
      rw [ofLe_cons, hnext, ih, hcarry, Nat.mul_mod_mul_left, heq]
      exact Nat.zero_add _

/-- `increment_nonce` adds one modulo `2^96`. -/
theorem nonceValue_incrementNonce (n : Nonce) :
    nonceValue (incrementNonce n) = (nonceValue n + 1) % 2 ^ 96 := by
  have hlist : (incrementNonce n).toList = incrementBytes n.toList := rfl
  rw [nonceValue, hlist, ofLe_incrementBytes, n.length_toList]
  rfl

/-! ## Calls with a log -/

/-- A call of `aead_encrypt` that returned a ciphertext. -/
structure Encryption where
  key : Bytes
  nonce : Nonce
  plain : Bytes
  ct : Bytes

/-- The number that the nonce of an encryption stands for. -/
def Encryption.number (e : Encryption) : Nat := nonceValue e.nonce

/-- A call of a writer: what it returns and leaves, and what it encrypted. -/
structure Logged where
  result : Except Error Unit
  writer : AeadWriter
  log : List Encryption

/-- A call of the writer that seals chunks. -/
inductive WriterCall where
  | writeHeaderChunk (data : Bytes)
  | writeData (data : Bytes)

namespace AeadWriter

section Log

variable (crypto : Crypto)

/-- `writeChunk` with the encryptions of the length and of the payload. -/
def writeChunkLog (w : AeadWriter) (chunk : Bytes) : Logged :=
  match aeadEncrypt crypto w.cipher w.subkey w.nonce (lenPt chunk.length) with
  | .error e => ⟨.error e, w, []⟩
  | .ok lenCt =>
      let ofLen : Encryption := ⟨w.subkey, w.nonce, lenPt chunk.length, lenCt⟩
      let w := { w with nonce := incrementNonce w.nonce }
      match aeadEncrypt crypto w.cipher w.subkey w.nonce chunk with
      | .error e => ⟨.error e, w, [ofLen]⟩
      | .ok payloadCt =>
          let ofPayload : Encryption := ⟨w.subkey, w.nonce, chunk, payloadCt⟩
          let nonce := incrementNonce w.nonce
          ⟨.ok (), { w with
            inner := w.inner ++ lenCt ++ payloadCt
            nonce := nonce
            sealed := w.sealed ++ [nonce] }, [ofLen, ofPayload]⟩

/-- `writeChunks` with what it encrypts. -/
def writeChunksLog (w : AeadWriter) : List Bytes → Logged
  | [] => ⟨.ok (), w, []⟩
  | chunk :: chunks =>
      let call := w.writeChunkLog crypto chunk
      match call.result with
      | .error _ => call
      | .ok () =>
          let rest := call.writer.writeChunksLog chunks
          { rest with log := call.log ++ rest.log }

/-- A call with what it encrypts. -/
def callLog (w : AeadWriter) : WriterCall → Logged
  | .writeHeaderChunk data => w.writeChunkLog crypto data
  | .writeData data => w.writeChunksLog crypto (chunks maxChunk data)

/-- One call after the other, whatever each of them returns: everything that they
encrypt. -/
def encryptions (w : AeadWriter) : List WriterCall → List Encryption
  | [] => []
  | call :: calls =>
      let out := w.callLog crypto call
      out.log ++ out.writer.encryptions calls

end Log

/-- A call of the writer itself. -/
def call (crypto : Crypto) (w : AeadWriter) : WriterCall → Except Error Unit × AeadWriter
  | .writeHeaderChunk data => w.writeHeaderChunk crypto data
  | .writeData data => w.writeData crypto data

/-! ## The log belongs to the calls -/

section Log

variable {crypto : Crypto}

theorem writeChunkLog_eq (w : AeadWriter) (chunk : Bytes) :
    ((w.writeChunkLog crypto chunk).result, (w.writeChunkLog crypto chunk).writer) =
      w.writeChunk crypto chunk := by
  rcases hlen : aeadEncrypt crypto w.cipher w.subkey w.nonce (lenPt chunk.length) with e | lenCt
  · simp only [writeChunkLog, writeChunk, hlen]
  · rcases hpayload : aeadEncrypt crypto w.cipher w.subkey (incrementNonce w.nonce) chunk
      with e | payloadCt
    · simp only [writeChunkLog, writeChunk, hlen, hpayload]
    · simp only [writeChunkLog, writeChunk, hlen, hpayload]

theorem writeChunksLog_eq (w : AeadWriter) (chunks : List Bytes) :
    ((w.writeChunksLog crypto chunks).result, (w.writeChunksLog crypto chunks).writer) =
      w.writeChunks crypto chunks := by
  induction chunks generalizing w with
  | nil => rfl
  | cons chunk chunks ih =>
    rw [writeChunksLog, writeChunks, ← writeChunkLog_eq]
    dsimp only
    split
    · rename_i e heq
      rw [heq]
    · rename_i heq
      rw [heq]
      exact ih _

/-- Without its log a call is the call of the writer. -/
theorem callLog_eq (w : AeadWriter) (c : WriterCall) :
    ((w.callLog crypto c).result, (w.callLog crypto c).writer) = w.call crypto c := by
  cases c with
  | writeHeaderChunk data => exact writeChunkLog_eq w data
  | writeData data => exact writeChunksLog_eq w (chunks maxChunk data)

theorem writeChunkLog_inner {w : AeadWriter} {chunk : Bytes}
    (h : (w.writeChunkLog crypto chunk).result = .ok ()) :
    (w.writeChunkLog crypto chunk).writer.inner =
      w.inner ++ (w.writeChunkLog crypto chunk).log.flatMap Encryption.ct := by
  unfold writeChunkLog at h ⊢
  split at h
  · cases h
  · dsimp only at h ⊢
    split at h
    · cases h
    · simp

theorem writeChunksLog_inner {w : AeadWriter} {chunks : List Bytes}
    (h : (w.writeChunksLog crypto chunks).result = .ok ()) :
    (w.writeChunksLog crypto chunks).writer.inner =
      w.inner ++ (w.writeChunksLog crypto chunks).log.flatMap Encryption.ct := by
  induction chunks generalizing w with
  | nil => exact (List.append_nil _).symm
  | cons chunk chunks ih =>
    have hchunk := @writeChunkLog_inner crypto w chunk
    unfold writeChunksLog at h ⊢
    generalize w.writeChunkLog crypto chunk = out at h hchunk ⊢
    dsimp only at h ⊢
    split at h
    · rename_i e herr
      rw [herr] at h
      cases h
    · rename_i hok
      rw [ih h, hchunk hok, List.flatMap_append, List.append_assoc]

/-- What goes to the transport in a call that returns `Ok` are the ciphertexts on its
log. -/
theorem callLog_inner {w : AeadWriter} {c : WriterCall}
    (h : (w.callLog crypto c).result = .ok ()) :
    (w.callLog crypto c).writer.inner =
      w.inner ++ (w.callLog crypto c).log.flatMap Encryption.ct := by
  cases c with
  | writeHeaderChunk data => exact writeChunkLog_inner h
  | writeData data => exact writeChunksLog_inner h

/-! ## Every encryption has the next nonce -/

/-- What a call encrypts it numbers from the nonce of the writer on, under the subkey of
the writer, and it leaves the number after these. -/
structure Advances (w : AeadWriter) (out : Logged) : Prop where
  numbered : Numbered Encryption.number (2 ^ 96) (nonceValue w.nonce) out.log
  nonce : nonceValue out.writer.nonce = (nonceValue w.nonce + out.log.length) % 2 ^ 96
  key : ∀ e ∈ out.log, e.key = w.subkey
  subkey : out.writer.subkey = w.subkey

theorem nonceValue_mod (n : Nonce) : nonceValue n % 2 ^ 96 = nonceValue n := by
  have hlt := ofLe_lt n.toList
  rw [n.length_toList] at hlt
  exact Nat.mod_eq_of_lt hlt

/-- A call that encrypts nothing. -/
theorem Advances.refl (w : AeadWriter) (r : Except Error Unit) : Advances w ⟨r, w, []⟩ :=
  ⟨.nil, (nonceValue_mod w.nonce).symm, fun _ he => absurd he List.not_mem_nil, rfl⟩

/-- What comes after a call goes on with the numbers it left. -/
theorem Advances.trans {w : AeadWriter} {out rest : Logged} (h : Advances w out)
    (h' : Advances out.writer rest) :
    Advances w { rest with log := out.log ++ rest.log } where
  numbered := by
    refine h.numbered.append ?_
    have hrest := h'.numbered
    rw [h.nonce] at hrest
    exact hrest.of_mod
  nonce := by
    rw [h'.nonce, h.nonce, Nat.mod_add_mod, List.length_append, Nat.add_assoc]
  key e he := by
    rcases List.mem_append.mp he with he | he
    · exact h.key e he
    · rw [h'.key e he, h.subkey]
  subkey := by
    show rest.writer.subkey = w.subkey
    rw [h'.subkey, h.subkey]

/-- One encryption takes the nonce of the writer and leaves the next one. -/
theorem Advances.single {w w' : AeadWriter} (r : Except Error Unit) {e : Encryption}
    (hkey : e.key = w.subkey) (hnonce : e.nonce = w.nonce)
    (hnext : w'.nonce = incrementNonce w.nonce) (hsubkey : w'.subkey = w.subkey) :
    Advances w ⟨r, w', [e]⟩ where
  numbered := by
    refine .cons ?_ .nil
    rw [Encryption.number, hnonce, nonceValue_mod]
  nonce := by
    show nonceValue w'.nonce = _
    rw [hnext, nonceValue_incrementNonce]
    rfl
  key e' he' := by
    rw [List.mem_singleton.mp he', hkey]
  subkey := hsubkey

/-- The length is encrypted, then the payload. -/
theorem writeChunkLog_advances (w : AeadWriter) (chunk : Bytes) :
    Advances w (w.writeChunkLog crypto chunk) := by
  unfold writeChunkLog
  split
  · exact .refl w _
  · dsimp only
    split
    · exact .single _ rfl rfl rfl rfl
    · rename_i lenCt _ _ payloadCt _
      let mid : AeadWriter := { w with nonce := incrementNonce w.nonce }
      have hlen : Advances w ⟨.ok (), mid, [⟨w.subkey, w.nonce, lenPt chunk.length, lenCt⟩]⟩ :=
        .single _ rfl rfl rfl rfl
      have hpayload : Advances mid ⟨.ok (), { mid with
          inner := w.inner ++ lenCt ++ payloadCt
          nonce := incrementNonce mid.nonce
          sealed := w.sealed ++ [incrementNonce mid.nonce] },
          [⟨mid.subkey, mid.nonce, chunk, payloadCt⟩]⟩ :=
        .single _ rfl rfl rfl rfl
      exact hlen.trans hpayload

theorem writeChunksLog_advances (w : AeadWriter) (chunks : List Bytes) :
    Advances w (w.writeChunksLog crypto chunks) := by
  induction chunks generalizing w with
  | nil => exact .refl w _
  | cons chunk chunks ih =>
    have hchunk := @writeChunkLog_advances crypto w chunk
    unfold writeChunksLog
    dsimp only
    split
    · exact hchunk
    · exact hchunk.trans (ih _)

theorem callLog_advances (w : AeadWriter) (c : WriterCall) : Advances w (w.callLog crypto c) := by
  cases c with
  | writeHeaderChunk data => exact writeChunkLog_advances w data
  | writeData data => exact writeChunksLog_advances w (chunks maxChunk data)

/-- The encryptions of any calls have one number after the other, under one subkey. -/
theorem encryptions_numbered (w : AeadWriter) (calls : List WriterCall) :
    Numbered Encryption.number (2 ^ 96) (nonceValue w.nonce) (w.encryptions crypto calls) ∧
      ∀ e ∈ w.encryptions crypto calls, e.key = w.subkey := by
  induction calls generalizing w with
  | nil => exact ⟨.nil, fun _ he => absurd he List.not_mem_nil⟩
  | cons c calls ih =>
    have hcall := @callLog_advances crypto w c
    obtain ⟨hnumbered, hkey⟩ := ih (w.callLog crypto c).writer
    rw [hcall.nonce] at hnumbered
    rw [hcall.subkey] at hkey
    refine ⟨hcall.numbered.append hnumbered.of_mod, fun e he => ?_⟩
    rcases List.mem_append.mp he with he | he
    · exact hcall.key e he
    · exact hkey e he

end Log

end AeadWriter

/-! ## After `new` and `reset_subkey` -/

/-- Nothing was encrypted yet under the subkey. -/
inductive Fresh : AeadWriter → Prop where
  | new (cipher : ShadowsocksCipher) (subkey : Bytes) : Fresh (.new cipher subkey)
  | resetSubkey (w : AeadWriter) (subkey : Bytes) : Fresh (w.resetSubkey subkey)

theorem Fresh.nonceValue {w : AeadWriter} (h : Fresh w) : nonceValue w.nonce = 0 := by
  cases h with
  | new cipher subkey => exact ofLe_replicate_zero 12
  | resetSubkey w subkey => exact ofLe_replicate_zero 12

/-- **Nonces.**  `increment_nonce` adds one modulo `2^96`.  For every sequence of calls of
a writer after `new` or `reset_subkey` that makes fewer than `2^96` encryptions, the
encryption number `k` is under that subkey and under the nonce `k`, so no nonce is used
twice. -/
theorem encryptions_nonces (crypto : Crypto) :
    (∀ n : Nonce, nonceValue (incrementNonce n) = (nonceValue n + 1) % 2 ^ 96) ∧
      ∀ (w : AeadWriter) (calls : List WriterCall), Fresh w →
        (w.encryptions crypto calls).length < 2 ^ 96 →
        ((w.encryptions crypto calls).map Encryption.nonce).Nodup ∧
          ∀ k e, (w.encryptions crypto calls)[k]? = some e →
            e.key = w.subkey ∧ nonceValue e.nonce = k := by
  refine ⟨nonceValue_incrementNonce, fun w calls hfresh hlen => ?_⟩
  obtain ⟨hnumbered, hkey⟩ := @AeadWriter.encryptions_numbered crypto w calls
  rw [hfresh.nonceValue] at hnumbered
  constructor
  · have hnodup := hnumbered.nodup (Nat.le_of_lt hlen)
    have hmap : (w.encryptions crypto calls).map Encryption.number =
        ((w.encryptions crypto calls).map Encryption.nonce).map nonceValue := by
      rw [List.map_map]
      rfl
    rw [hmap] at hnodup
    exact hnodup.of_map
  · intro k e hk
    obtain ⟨hklen, -⟩ := List.getElem?_eq_some_iff.mp hk
    refine ⟨hkey e (List.mem_of_getElem? hk), ?_⟩
    have hnumber := hnumbered k e hk
    rwa [Nat.zero_add, Nat.mod_eq_of_lt (Nat.lt_trans hklen hlen)] at hnumber

/-- Ciphers that append the nonce and fill the rest of the tag with zeros. -/
def taggingCrypto : Crypto where
  encrypt _ _ nonce plain := some (plain ++ nonce.toList ++ [0, 0, 0, 0])
  decrypt _ _ _ ct := some (ct.take (ct.length - 16))

/-- A header and one byte of data make four encryptions. -/
theorem encryptions_nonces_header :
    let w := AeadWriter.new .blake3Aes128Gcm (List.replicate 16 7)
    let es := w.encryptions taggingCrypto [.writeHeaderChunk [1, 2], .writeData [3]]
    es.length = 4 ∧ (es.map Encryption.nonce).Nodup := by
  intro w es
  have hlen : es.length = 4 := by decide +kernel
  have hnonces := (encryptions_nonces taggingCrypto).2 w
    [.writeHeaderChunk [1, 2], .writeData [3]] (.new _ _) (hlen.symm ▸ by decide)
  exact ⟨hlen, hnonces.1⟩

end Ruproxy.Shadowsocks
