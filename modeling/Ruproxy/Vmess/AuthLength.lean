/-
  Vmess/AuthLength.lean --- the nonces of the authenticated-length mode.

  Both loops count every call of a cipher and take the count as the nonce.  But
  `relay_down` seals the payload of a chunk first and its length after it, while
  `relay_up` has to open the length first.  So the two of them use different
  nonces for every length and every payload of a connection.
-/
import Ruproxy.Vmess.Nonces

set_option autoImplicit false

namespace Ruproxy.Vmess

open Ruproxy.Foundation

/-! ## The property -/

/-- The nonces `relay_down` used for the length and for the payload of chunk `k`; it
seals the payload first. -/
def sealNonces (down : Relayed) (k : Nat) : Option (Vector UInt8 12) × Option (Vector UInt8 12) :=
  ((down.calls[2 * k + 1]?).map AeadCall.nonce, (down.calls[2 * k]?).map AeadCall.nonce)

/-- The nonces `relay_up` used for the length and for the payload of chunk `k`; it opens
the length first. -/
def openNonces (up : Relayed) (k : Nat) : Option (Vector UInt8 12) × Option (Vector UInt8 12) :=
  ((up.calls[2 * k]?).map AeadCall.nonce, (up.calls[2 * k + 1]?).map AeadCall.nonce)

/-- Every chunk is opened under the nonces it was sealed under, and the data arrive. -/
structure AuthLengthAgrees (down up : Relayed) (data : Bytes) : Prop where
  nonces : ∀ k, sealNonces down k = openNonces up k
  result : up.result = .ok ()
  written : up.written = data

/-! ## Which nonces the loops use -/

section Loops

variable {crypto : Crypto} {p : BodyParams}

variable {lenKey : Bytes} (hauth : p.authLenKey = some lenKey)
include hauth

theorem encodeSize_calls {st st' : BodyState} {totalSize : UInt16} {size : Bytes}
    {calls : List AeadCall}
    (h : encodeSize crypto p st totalSize = .ok (size, st', calls)) :
    st'.count = st.count + 1 ∧ ∃ c, calls = [c] ∧ c.nonce = chunkNonce p.iv st.count := by
  unfold encodeSize at h
  rw [hauth] at h
  dsimp only at h
  split at h
  · cases h
    exact ⟨rfl, _, rfl, rfl⟩
  · cases h

/-- **Sealing.**  The payload of a chunk is sealed under the next count, its length under
the one after. -/
theorem sealChunk_calls (hsec : IsAead p.sec) {st st' : BodyState} {pad : Nat → UInt8}
    {plain chunk : Bytes} {calls : List AeadCall}
    (h : sealChunk crypto p st pad plain = .ok (chunk, st', calls)) :
    st'.count = st.count + 1 + 1 ∧ ∃ c₁ c₂, calls = [c₁, c₂] ∧
      c₁.nonce = chunkNonce p.iv st.count ∧ c₂.nonce = chunkNonce p.iv (st.count + 1) := by
  unfold sealChunk at h
  dsimp only at h
  split at h
  · cases h
  · rename_i hpayload
    split at h
    · cases h
    · rename_i hsize
      cases h
      obtain ⟨c₁, rfl, hc₁⟩ := encryptPayload_calls hsec hpayload
      obtain ⟨hcount, c₂, rfl, hc₂⟩ := encodeSize_calls hauth hsize
      rw [nextPadLen_count] at hc₁ hc₂ hcount
      exact ⟨hcount, c₁, c₂, rfl, hc₁, hc₂⟩

/-- A downlink that sealed no chunk wrote nothing. -/
theorem relayDownLoop_sealed (hsec : IsAead p.sec) (reads : List Bytes) (st : BodyState)
    (rng : Nat → Nat → UInt8) :
    (relayDownLoop crypto p st rng reads).written = [] ∨
      1 < (relayDownLoop crypto p st rng reads).calls.length := by
  cases reads with
  | nil =>
    unfold relayDownLoop
    split
    · exact .inl rfl
    · rename_i hseal
      obtain ⟨-, c₁, c₂, rfl, -⟩ := sealChunk_calls hauth hsec hseal
      exact .inr (Nat.lt_succ_self 1)
  | cons plain reads =>
    unfold relayDownLoop
    split
    · exact .inl rfl
    · rename_i hseal
      obtain ⟨-, c₁, c₂, rfl, -⟩ := sealChunk_calls hauth hsec hseal
      right
      split
      · exact Nat.lt_succ_self 1
      · simp [Relayed.after]

theorem decodeSize_counted {st st' : BodyState} {input rest : Bytes} {totalLen : Nat}
    {calls : List AeadCall}
    (h : decodeSize crypto p st input = .ok (totalLen, st', rest, calls)) :
    st'.count = st.count + 1 ∧ ∃ c, calls = [c] ∧ c.nonce = chunkNonce p.iv st.count := by
  unfold decodeSize at h
  rw [hauth] at h
  dsimp only at h
  split at h
  · cases h
  · split at h
    · cases h
    · cases h
      exact ⟨rfl, _, rfl, rfl⟩
    · cases h

/-- **Opening.**  The length of a chunk is opened under the next count, its payload under
the one after. -/
theorem openChunk_counted (hsec : IsAead p.sec) {st : BodyState} {input : Bytes}
    {found : Opened} (h : openChunk crypto p st input = .ok found) :
    match found with
    | .zeroLength calls => Counted p.iv st.count calls
    | .chunk _ st' _ calls => st'.count = st.count + 1 + 1 ∧ ∃ c₁ c₂, calls = [c₁, c₂] ∧
        c₁.nonce = chunkNonce p.iv st.count ∧ c₂.nonce = chunkNonce p.iv (st.count + 1) := by
  unfold openChunk at h
  dsimp only at h
  split at h
  · cases h
  · rename_i hsize
    obtain ⟨hcount, c₁, rfl, hc₁⟩ := decodeSize_counted hauth hsize
    rw [nextPadLen_count] at hc₁ hcount
    split at h
    · cases h
      exact .cons hc₁ (.nil ..)
    · split at h
      · cases h
      · rename_i hpayload
        obtain rfl := decryptPayload_calls hsec hpayload
        split at h
        · cases h
        · cases h
          exact ⟨by rw [hcount], c₁, _, rfl, hc₁, by rw [hcount]⟩

theorem relayUpLoop_counted (hsec : IsAead p.sec) (st : BodyState) (input : Bytes) :
    Counted p.iv st.count (relayUpLoop crypto p st input).calls := by
  induction st, input using relayUpLoop.induct crypto p with
  | case1 st input e hopen =>
    rw [relayUpLoop_error crypto hopen]
    exact .nil ..
  | case2 st input calls hopen =>
    rw [relayUpLoop_zeroLength crypto hopen]
    exact openChunk_counted hauth hsec hopen
  | case3 st input plain st' rest calls hopen hplain =>
    rw [relayUpLoop_chunk crypto hopen, if_pos hplain]
    obtain ⟨-, c₁, c₂, rfl, hc₁, hc₂⟩ := openChunk_counted hauth hsec hopen
    exact .cons hc₁ (.cons hc₂ (.nil ..))
  | case4 st input plain st' rest calls hopen hplain ih =>
    rw [relayUpLoop_chunk crypto hopen, if_neg hplain]
    obtain ⟨hcount, c₁, c₂, rfl, hc₁, hc₂⟩ := openChunk_counted hauth hsec hopen
    rw [hcount] at ih
    exact .cons hc₁ (.cons hc₂ ih)

omit hauth

/-! ## No nonce agrees -/

/-- Two neighbouring calls of two loops never have the same nonce. -/
theorem Counted.nonce_ne {iv : Vector UInt8 16} {count : UInt16} {cs ds : List AeadCall}
    (hcs : Counted iv count cs) (hds : Counted iv count ds) {i j : Nat} (hi : i < cs.length)
    (hij : j = i + 1 ∨ i = j + 1) :
    (cs[i]?).map AeadCall.nonce ≠ (ds[j]?).map AeadCall.nonce := by
  rw [hcs.nonce hi]
  rcases Nat.lt_or_ge j ds.length with hj | hj
  · rw [hds.nonce hj]
    intro h
    have hcount := chunkNonce_inj (Option.some.inj h)
    have hnext : ∀ n : Nat, count + UInt16.ofNat n ≠ count + UInt16.ofNat (n + 1) := by
      intro n hn
      have := congrArg UInt16.toNat hn
      simp only [UInt16.toNat_add, UInt16.toNat_ofNat'] at this
      omega
    rcases hij with rfl | rfl
    · exact hnext _ hcount
    · exact hnext _ hcount.symm
  · rw [List.getElem?_eq_none hj]
    exact Option.some_ne_none _

end Loops

/-- **Authenticated lengths.**  For every key, iv, AEAD security and option byte with the
authenticated length, and for every sequence of reads, no length and no payload that
`relay_down` sealed has the nonce under which `relay_up` opens it, so the two never
agree. -/
theorem not_authLengthAgrees (crypto : Crypto) (rng : Nat → Nat → UInt8)
    (key iv : Vector UInt8 16) (opt sec : UInt8) (hsec : IsAead sec)
    (hopt : opt &&& optAuthLen ≠ 0) (reads : List Bytes) :
    let down := relayDown crypto rng key iv opt sec reads
    let up := relayUp crypto key iv opt sec down.written
    (∀ k, 2 * k + 1 < down.calls.length →
      (sealNonces down k).1 ≠ (openNonces up k).1 ∧
      (sealNonces down k).2 ≠ (openNonces up k).2) ∧
    ¬ AuthLengthAgrees down up reads.flatten := by
  intro down up
  let p := BodyParams.new crypto key iv opt sec
  have hnone : ¬ (sec = secNone ∧ opt &&& optChunkStream = 0) := by
    rintro ⟨h, -⟩
    rw [h] at hsec
    exact absurd hsec (by decide)
  have hdown : down = relayDownLoop crypto p (.new iv opt) rng reads := if_neg hnone
  have hup : up = relayUpLoop crypto p (.new iv opt) down.written := if_neg hnone
  have hauth : p.authLenKey = some (kdf16 crypto key.toList ["auth_len".toUTF8.toList]) :=
    if_pos hopt
  have hsealed : Counted iv 0 down.calls := hdown ▸ relayDownLoop_counted hsec reads _ rng
  have hopened : Counted iv 0 up.calls := hup ▸ relayUpLoop_counted hauth hsec _ _
  have hdiffer : ∀ k, 2 * k + 1 < down.calls.length →
      (sealNonces down k).1 ≠ (openNonces up k).1 ∧
      (sealNonces down k).2 ≠ (openNonces up k).2 := fun k hk =>
    ⟨hsealed.nonce_ne hopened hk (.inr rfl), hsealed.nonce_ne hopened (by omega) (.inl rfl)⟩
  refine ⟨hdiffer, fun hagrees => ?_⟩
  have hfirst : down.written = [] ∨ 1 < down.calls.length := by
    rw [hdown]
    exact relayDownLoop_sealed hauth hsec reads (.new iv opt) rng
  rcases hfirst with hempty | hfirst
  · -- nothing was sealed, and `relay_up` fails on an empty stream
    have hopen : openChunk crypto p (.new iv opt) [] = .error .unexpectedEof := by
      simp [openChunk, decodeSize, hauth, readExact]
    have hresult := hagrees.result
    rw [hup, hempty, relayUpLoop_error crypto hopen] at hresult
    cases hresult
  · exact (hdiffer 0 hfirst).1 (congrArg Prod.fst (hagrees.nonces 0))

/-! ## Instances -/

/-- The two bytes of `hi`, relayed with authenticated lengths. -/
theorem not_authLengthAgrees_hi :
    let down := relayDown nonceCrypto (fun _ _ => 0) 0 0 (optChunkStream ||| optAuthLen)
      secAes128Gcm [[104, 105]]
    ¬ AuthLengthAgrees down
      (relayUp nonceCrypto 0 0 (optChunkStream ||| optAuthLen) secAes128Gcm down.written)
      [104, 105] :=
  (not_authLengthAgrees nonceCrypto (fun _ _ => 0) 0 0 (optChunkStream ||| optAuthLen)
    secAes128Gcm (.inl rfl) (by decide) [[104, 105]]).2

/-- `relay_up` cannot open the first length that `relay_down` sealed. -/
theorem not_authLengthAgrees_nonceCrypto :
    ¬ ∀ (crypto : Crypto) (rng : Nat → Nat → UInt8) (key iv : Vector UInt8 16)
      (opt sec : UInt8) (reads : List Bytes), crypto.Lawful → IsAead sec →
      opt &&& optAuthLen ≠ 0 → (∀ b ∈ reads, 1 ≤ b.length ∧ b.length ≤ chunkSize) →
      let down := relayDown crypto rng key iv opt sec reads
      AuthLengthAgrees down (relayUp crypto key iv opt sec down.written) reads.flatten := by
  intro hall
  have hagrees := hall nonceCrypto (fun _ _ => 0) 0 0 (optChunkStream ||| optAuthLen)
    secAes128Gcm [[104, 105]] nonceCrypto_lawful (.inl rfl) (by decide) (by simp [chunkSize])
  have hopen : openChunk nonceCrypto
      (.new nonceCrypto 0 0 (optChunkStream ||| optAuthLen) secAes128Gcm)
      (.new 0 (optChunkStream ||| optAuthLen))
      (relayDown nonceCrypto (fun _ _ => 0) 0 0 (optChunkStream ||| optAuthLen) secAes128Gcm
        [[104, 105]]).written = .error .authLenDecrypt := by rfl
  have hresult := hagrees.result
  rw [show relayUp nonceCrypto 0 0 (optChunkStream ||| optAuthLen) secAes128Gcm
      (relayDown nonceCrypto (fun _ _ => 0) 0 0 (optChunkStream ||| optAuthLen) secAes128Gcm
        [[104, 105]]).written = ⟨[], [], .error .authLenDecrypt⟩ from
    relayUpLoop_error nonceCrypto hopen] at hresult
  cases hresult

end Ruproxy.Vmess
