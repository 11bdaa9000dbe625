/-
  Vmess/EndOfStream.lean --- how the uplink of the VMess body ends.

  `relay_up` leaves its loop at two places: behind a chunk that opens to nothing,
  and before a chunk whose size field is not above its padding length.  The second
  place is reached without a look at a ciphertext.  The theorem says for which
  byte streams that happens.
-/
import Ruproxy.Vmess.BodyRoundTrip

set_option autoImplicit false

namespace Ruproxy.Vmess

open Ruproxy.Foundation

/-- The securities whose payloads are sealed. -/
def IsAead (sec : UInt8) : Prop := sec = secAes128Gcm ∨ sec = secAuto ∨ sec = secChacha20

instance (sec : UInt8) : Decidable (IsAead sec) :=
  inferInstanceAs (Decidable (_ ∨ _ ∨ _))

section Payload

variable (crypto : Crypto) (p : BodyParams)

/-- The cipher of the payloads. -/
def payloadCipher : Cipher := if p.sec = secChacha20 then .chaCha20Poly1305 else .aes128Gcm

/-- The key of the payloads. -/
def payloadKey : Bytes := if p.sec = secChacha20 then chachaKey crypto p.key else p.key.toList

/-! ## The property -/

/-- The last thing that was consumed is a chunk whose ciphertext opened to the empty
plaintext. -/
def EndsAuthenticated (up : Relayed) : Prop :=
  ∃ nonce, up.calls.getLast? = some ⟨payloadCipher p, payloadKey crypto p, nonce, []⟩

/-- Behind some chunks that open to payloads with at least one byte comes a size field
that decodes to at most the padding length of its chunk. -/
inductive ShortSize : BodyState → Bytes → Prop where
  | here {st st₁ st₂ : BodyState} {input rest : Bytes} {padLen totalLen : Nat}
      {calls : List AeadCall} : nextPadLen crypto p st = (padLen, st₁) →
      decodeSize crypto p st₁ input = .ok (totalLen, st₂, rest, calls) → totalLen ≤ padLen →
      ShortSize st input
  | later {st st' : BodyState} {input plain rest : Bytes} {calls : List AeadCall} :
      openChunk crypto p st input = .ok (.chunk plain st' rest calls) → plain ≠ [] →
      ShortSize st' rest → ShortSize st input

end Payload

section Chunk

variable {crypto : Crypto} {p : BodyParams} {st st' : BodyState} {input rest plain : Bytes}
  {calls : List AeadCall}

/-- The size field makes no call, or one that opens to at least two bytes. -/
theorem decodeSize_calls {totalLen : Nat}
    (h : decodeSize crypto p st input = .ok (totalLen, st', rest, calls)) :
    ∀ c ∈ calls, c.plain ≠ [] := by
  unfold decodeSize at h
  split at h
  · split at h
    · cases h
    · dsimp only at h
      split at h
      · cases h
      · cases h
        simp
      · cases h
  · split at h
    · dsimp only at h
      split at h
      · cases h
        simp
      · cases h
        simp
    · cases h

/-- A payload of an AEAD security is opened by one call. -/
theorem decryptPayload_calls (hsec : IsAead p.sec) {count : UInt16} {encryptedLen : Nat}
    (h : decryptPayload crypto p count encryptedLen input = .ok (plain, rest, calls)) :
    calls = [⟨payloadCipher p, payloadKey crypto p, chunkNonce p.iv count, plain⟩] := by
  have hnone : p.sec ≠ secNone := by rcases hsec with h | h | h <;> rw [h] <;> decide
  unfold decryptPayload at h
  rw [if_neg hnone] at h
  dsimp only at h
  split at h
  · rename_i haes
    have hchacha : p.sec ≠ secChacha20 := by rcases haes with h | h <;> rw [h] <;> decide
    rw [payloadCipher, payloadKey, if_neg hchacha, if_neg hchacha]
    split at h
    · cases h
    · split at h
      · cases h
      · split at h
        · cases h
        · cases h
          rfl
  · rename_i haes
    have hchacha : p.sec = secChacha20 :=
      (or_assoc.mpr hsec).resolve_left haes
    rw [if_pos hchacha] at h
    rw [payloadCipher, payloadKey, if_pos hchacha, if_pos hchacha]
    split at h
    · cases h
    · split at h
      · cases h
      · split at h
        · cases h
        · cases h
          rfl

/-- A chunk is opened with a last call that returns its payload. -/
theorem openChunk_calls (hsec : IsAead p.sec)
    (h : openChunk crypto p st input = .ok (.chunk plain st' rest calls)) :
    ∃ sizeCalls nonce,
      calls = sizeCalls ++ [⟨payloadCipher p, payloadKey crypto p, nonce, plain⟩] := by
  unfold openChunk at h
  dsimp only at h
  split at h
  · cases h
  · split at h
    · cases h
    · split at h
      · cases h
      · rename_i sizeCalls _ _ _ _ _ hpayload
        split at h
        · cases h
        · cases h
          exact ⟨_, _, congrArg _ (decryptPayload_calls hsec hpayload)⟩

/-- The loop breaks at a size field that is not above the padding length, whatever
follows it. -/
theorem openChunk_of_short {padLen totalLen : Nat} {st₁ st₂ : BodyState}
    (hpad : nextPadLen crypto p st = (padLen, st₁))
    (hsize : decodeSize crypto p st₁ input = .ok (totalLen, st₂, rest, calls))
    (hshort : totalLen ≤ padLen) : openChunk crypto p st input = .ok (.zeroLength calls) := by
  have hzero : totalLen - padLen = 0 := Nat.sub_eq_zero_of_le hshort
  simp only [openChunk, hpad, hsize, hzero, if_pos]

theorem openChunk_zeroLength (h : openChunk crypto p st input = .ok (.zeroLength calls)) :
    ShortSize crypto p st input ∧ ∀ c ∈ calls, c.plain ≠ [] := by
  unfold openChunk at h
  dsimp only at h
  split at h
  · cases h
  · rename_i hsize
    split at h
    · rename_i hzero
      cases h
      exact ⟨.here rfl hsize (Nat.le_of_sub_eq_zero hzero), decodeSize_calls hsize⟩
    · split at h
      · cases h
      · split at h <;> cases h

/-! ## The loop -/

/-- Behind a short size field the loop ends well, and its last call returned something. -/
theorem ShortSize.relayUpLoop (hsec : IsAead p.sec) (h : ShortSize crypto p st input) :
    (relayUpLoop crypto p st input).result = .ok () ∧
      ∀ c ∈ (relayUpLoop crypto p st input).calls.getLast?, c.plain ≠ [] := by
  induction h with
  | here hpad hsize hshort =>
    rw [relayUpLoop_zeroLength crypto (openChunk_of_short hpad hsize hshort)]
    exact ⟨rfl, fun c hc => decodeSize_calls hsize c (List.mem_of_getLast? hc)⟩
  | @later st st' input plain rest calls hopen hplain _ ih =>
    obtain ⟨hresult, hlast⟩ := ih
    rw [relayUpLoop_chunk crypto hopen, if_neg (by simpa using hplain)]
    refine ⟨hresult, fun c hc => ?_⟩
    obtain ⟨sizeCalls, nonce, rfl⟩ := openChunk_calls hsec hopen
    -- the last call of the rest, or the one that opened this chunk
    rw [Relayed.after, List.getLast?_append] at hc
    rcases Option.or_eq_some_iff.mp hc with hc | ⟨-, hc⟩
    · exact hlast c hc
    · rw [List.getLast?_concat, Option.some.injEq] at hc
      rw [← hc]
      exact hplain

/-- The loop ends well only behind an empty chunk or at a short size field. -/
theorem relayUpLoop_ok (hsec : IsAead p.sec)
    (h : (relayUpLoop crypto p st input).result = .ok ()) :
    EndsAuthenticated crypto p (relayUpLoop crypto p st input) ∨
      ShortSize crypto p st input := by
  induction st, input using relayUpLoop.induct crypto p with
  | case1 st input e hopen =>
    rw [relayUpLoop_error crypto hopen] at h
    cases h
  | case2 st input calls hopen => exact .inr (openChunk_zeroLength hopen).1
  | case3 st input plain st' rest calls hopen hplain =>
    left
    obtain ⟨sizeCalls, nonce, rfl⟩ := openChunk_calls hsec hopen
    obtain rfl := List.isEmpty_iff.mp hplain
    rw [relayUpLoop_chunk crypto hopen, if_pos hplain]
    exact ⟨nonce, List.getLast?_concat ..⟩
  | case4 st input plain st' rest calls hopen hplain ih =>
    rw [relayUpLoop_chunk crypto hopen, if_neg hplain] at h ⊢
    rcases ih h with ⟨nonce, hlast⟩ | hshort
    · left
      refine ⟨nonce, ?_⟩
      rw [Relayed.after, List.getLast?_append, hlast]
      rfl
    · exact .inr (.later hopen (by simpa using hplain) hshort)

end Chunk

/-- **End of the uplink.**  For every byte stream, key, iv, option byte and AEAD security,
`relay_up` returns `Ok` only behind a chunk that opened to the empty plaintext exactly if
the stream does not lead it to a size field that is not above the padding length. -/
theorem relayUp_endsAuthenticated_iff (crypto : Crypto) (key iv : Vector UInt8 16)
    (opt sec : UInt8) (hsec : IsAead sec) (input : Bytes) :
    let p := BodyParams.new crypto key iv opt sec
    let up := relayUp crypto key iv opt sec input
    (up.result = .ok () → EndsAuthenticated crypto p up) ↔
      ¬ ShortSize crypto p (.new iv opt) input := by
  intro p up
  have hnone : ¬ (sec = secNone ∧ opt &&& optChunkStream = 0) := by
    rintro ⟨h, -⟩
    rw [h] at hsec
    exact absurd hsec (by decide)
  have hup : up = relayUpLoop crypto p (.new iv opt) input := if_neg hnone
  rw [hup]
  constructor
  · intro hends hshort
    obtain ⟨hresult, hlast⟩ := hshort.relayUpLoop hsec
    obtain ⟨nonce, hcall⟩ := hends hresult
    exact hlast _ hcall rfl
  · intro hshort hresult
    exact (relayUpLoop_ok hsec hresult).resolve_right hshort

/-! ## Instances -/

/-- The chunk that carries nothing, without a mask and without padding. -/
def endMark : Bytes := 0 :: 16 :: List.replicate 16 0

/-- An upload of nothing ends with its end mark. -/
theorem relayUp_endsAuthenticated_iff_endMark :
    EndsAuthenticated sampleCrypto (.new sampleCrypto 0 0 optChunkStream secAes128Gcm)
      (relayUp sampleCrypto 0 0 optChunkStream secAes128Gcm endMark) := by
  have hopen : openChunk sampleCrypto (.new sampleCrypto 0 0 optChunkStream secAes128Gcm)
      (.new 0 optChunkStream) endMark =
        .ok (.chunk [] ⟨none, 1⟩ [] [⟨.aes128Gcm, List.replicate 16 0, chunkNonce 0 0, []⟩]) := rfl
  have hresult : (relayUp sampleCrypto 0 0 optChunkStream secAes128Gcm endMark).result =
      .ok () := congrArg Relayed.result (relayUpLoop_chunk sampleCrypto hopen)
  refine (relayUp_endsAuthenticated_iff sampleCrypto 0 0 optChunkStream secAes128Gcm (.inl rfl)
    endMark).mpr (fun hshort => ?_) hresult
  cases hshort with
  | here hpad hsize hle =>
    rw [openChunk_of_short hpad hsize hle] at hopen
    cases hopen
  | later hopen' hplain _ =>
    rw [hopen] at hopen'
    cases hopen'
    exact hplain rfl

/-- Two zero bytes, which nobody needs the key for, end the upload well. -/
theorem not_relayUp_endsAuthenticated :
    ¬ ∀ (crypto : Crypto) (key iv : Vector UInt8 16) (opt sec : UInt8) (input : Bytes),
      crypto.Lawful → IsAead sec →
      (relayUp crypto key iv opt sec input).result = .ok () →
        EndsAuthenticated crypto (.new crypto key iv opt sec)
          (relayUp crypto key iv opt sec input) := by
  intro hall
  have hopen : openChunk sampleCrypto (.new sampleCrypto 0 0 optChunkStream secAes128Gcm)
      (.new 0 optChunkStream) [0, 0] = .ok (.zeroLength []) := rfl
  have hup : relayUp sampleCrypto 0 0 optChunkStream secAes128Gcm [0, 0] = ⟨[], [], .ok ()⟩ :=
    relayUpLoop_zeroLength sampleCrypto hopen
  obtain ⟨nonce, hlast⟩ := hall sampleCrypto 0 0 optChunkStream secAes128Gcm [0, 0]
    sampleCrypto_lawful (.inl rfl) (by rw [hup])
  rw [hup] at hlast
  cases hlast

end Ruproxy.Vmess
