/-
  Vmess/BodyRoundTrip.lean --- `relay_up` undoes `relay_down`.

  The two loops carry the same state (mask reader and nonce counter) from chunk
  to chunk.  One chunk sealed from a state is opened from the same state, and
  both sides go on from equal states; the loops follow by induction on the reads.
-/
import Ruproxy.Vmess.Body

set_option autoImplicit false

namespace Ruproxy.Vmess

open Ruproxy.Foundation

/-- The securities the body knows. -/
def Supported (sec : UInt8) : Prop :=
  sec = secNone ∨ sec = secAes128Gcm ∨ sec = secAuto ∨ sec = secChacha20

section Chunk

variable {crypto : Crypto} {p : BodyParams}

theorem nextPadLen_lt (crypto : Crypto) (p : BodyParams) (st : BodyState) : (nextPadLen crypto p st).1 < 64 := by
  unfold nextPadLen
  split
  · split
    · dsimp only
      rw [UInt16.toNat_mod]
      exact Nat.mod_lt _ (by decide)
    · exact Nat.zero_lt_succ _
  · exact Nat.zero_lt_succ _

/-- A payload of a supported security is opened to itself, and only an empty one
has an empty ciphertext. -/
theorem encryptPayload_spec (hcrypto : crypto.Lawful) (hsec : Supported p.sec)
    (count : UInt16) {plain : Bytes} (hlen : plain.length ≤ chunkSize) :
    ∃ ct calls, encryptPayload crypto p count plain = .ok (ct, calls) ∧
      ct.length ≤ plain.length + 16 ∧ (ct = [] → plain = []) ∧
      ∀ rest, ct ≠ [] →
        decryptPayload crypto p count ct.length (ct ++ rest) = .ok (plain, rest, calls) := by
  have hseal : plain.length < 2 ^ 36 := by
    unfold chunkSize at hlen
    omega
  by_cases hnone : p.sec = secNone
  · refine ⟨plain, [], by simp [encryptPayload, hnone], by omega, id, ?_⟩
    intro rest _
    simp [decryptPayload, hnone, readExact_append]
  by_cases haes : p.sec = secAes128Gcm ∨ p.sec = secAuto
  · obtain ⟨ct, henc, hct, hdec⟩ :=
      hcrypto.sealed .aes128Gcm p.key.toList (chunkNonce p.iv count) hseal
    refine ⟨ct, [⟨.aes128Gcm, p.key.toList, chunkNonce p.iv count, plain⟩],
      by simp [encryptPayload, hnone, haes, henc], by omega, ?_, ?_⟩
    · rintro rfl
      simp at hct
    · intro rest _
      have hlt : ¬ ct.length < 16 := by omega
      simp [decryptPayload, hnone, haes, hlt, readExact_append, hdec]
  · have hchacha : p.sec = secChacha20 := by
      rcases hsec with h | h | h | h
      · exact absurd h hnone
      · exact absurd (.inl h) haes
      · exact absurd (.inr h) haes
      · exact h
    obtain ⟨ct, henc, hct, hdec⟩ :=
      hcrypto.sealed .chaCha20Poly1305 (chachaKey crypto p.key) (chunkNonce p.iv count) hseal
    refine ⟨ct, [⟨.chaCha20Poly1305, chachaKey crypto p.key, chunkNonce p.iv count, plain⟩],
      ?_, by omega, ?_, ?_⟩
    · rw [encryptPayload, if_neg hnone, if_neg haes, if_pos hchacha]
      simp only [henc]
    · rintro rfl
      simp at hct
    · intro rest _
      have hlt : ¬ ct.length < 16 := by omega
      rw [decryptPayload, if_neg hnone, if_neg haes, if_pos hchacha, if_neg hlt,
        readExact_append rfl]
      simp only [hdec]

/-- Without the authenticated length, the size field reads back from the same mask
reader, and both sides are left with the same one. -/
theorem encodeSize_spec (crypto : Crypto) (hauth : p.authLenKey = none) (shake : Option Shake128Reader)
    (totalSize : UInt16) :
    ∃ size shake', ∀ count,
      encodeSize crypto p ⟨shake, count⟩ totalSize = .ok (size, ⟨shake', count⟩, []) ∧
      ∀ rest, decodeSize crypto p ⟨shake, count⟩ (size ++ rest) =
        .ok (totalSize.toNat, ⟨shake', count⟩, rest, []) := by
  cases shake with
  | none =>
    refine ⟨u16ToBe totalSize, none, fun count => ⟨by simp [encodeSize, hauth], ?_⟩⟩
    intro rest
    obtain ⟨a, b, hbytes, hraw⟩ := u16ToBe_append totalSize rest
    simp [decodeSize, hauth, hbytes, hraw]
  | some sk =>
    obtain ⟨mask, sk', hmask⟩ : ∃ mask sk', sk.nextU16 crypto = (mask, sk') := ⟨_, _, rfl⟩
    refine ⟨u16ToBe (totalSize ^^^ mask), some sk',
      fun count => ⟨by simp [encodeSize, hauth, hmask], ?_⟩⟩
    intro rest
    obtain ⟨a, b, hbytes, hraw⟩ := u16ToBe_append (totalSize ^^^ mask) rest
    -- the mask cancels
    have hcancel : totalSize ^^^ mask ^^^ mask = totalSize := by
      rw [UInt16.xor_assoc, UInt16.xor_self, UInt16.xor_zero]
    simp only [decodeSize, hauth, hbytes, hraw, hmask, hcancel]

/-- **One chunk.**  What `relay_down` seals from a state, `relay_up` opens from that
state; both go on from the same state, and the chunk without a payload ends
`relay_up`. -/
theorem openChunk_sealChunk (hcrypto : crypto.Lawful) (hsec : Supported p.sec)
    (hauth : p.authLenKey = none) (st : BodyState) (pad : Nat → UInt8) {plain : Bytes}
    (hlen : plain.length ≤ chunkSize) :
    ∃ chunk st' calls, sealChunk crypto p st pad plain = .ok (chunk, st', calls) ∧
      ∀ rest,
        openChunk crypto p st (chunk ++ rest) = .ok (.chunk plain st' rest calls) ∨
          plain = [] ∧ openChunk crypto p st (chunk ++ rest) = .ok (.zeroLength []) := by
  obtain ⟨padLen, st₁, hpad⟩ : ∃ padLen st₁, nextPadLen crypto p st = (padLen, st₁) :=
    ⟨_, _, rfl⟩
  have hpadLt : padLen < 64 := by
    have := nextPadLen_lt crypto p st
    rwa [hpad] at this
  obtain ⟨ct, calls, henc, hct, hnil, hdec⟩ :=
    encryptPayload_spec hcrypto hsec st₁.count hlen
  obtain ⟨size, shake', hsize⟩ := encodeSize_spec crypto hauth st₁.shake
    (UInt16.ofNat (ct.length + padLen))
  have htotal : (UInt16.ofNat (ct.length + padLen)).toNat = ct.length + padLen := by
    unfold chunkSize at hlen
    rw [UInt16.toNat_ofNat']
    omega
  refine ⟨size ++ ct ++ (List.range padLen).map pad, ⟨shake', st₁.count + 1⟩, calls, ?_, ?_⟩
  · simp only [sealChunk, hpad, henc, (hsize _).1, List.append_nil]
  · intro rest
    have hdecode := (hsize st₁.count).2 (ct ++ ((List.range padLen).map pad ++ rest))
    rw [htotal] at hdecode
    by_cases hempty : ct = []
    · right
      refine ⟨hnil hempty, ?_⟩
      subst hempty
      simp only [List.nil_append] at hdecode
      simp [openChunk, hpad, hdecode]
    · left
      have hne : ct.length ≠ 0 := by simpa using hempty
      have hskip : readExact padLen ((List.range padLen).map pad ++ rest) =
          some ((List.range padLen).map pad, rest) :=
        readExact_append (by simp) rest
      simp [openChunk, hpad, hdecode, hempty, hdec _ hempty, hskip]

end Chunk

/-! ## The loops -/

theorem relayUpLoop_relayDownLoop {crypto : Crypto} {p : BodyParams}
    (hcrypto : crypto.Lawful) (hsec : Supported p.sec) (hauth : p.authLenKey = none)
    (reads : List Bytes) (hreads : ∀ b ∈ reads, 1 ≤ b.length ∧ b.length ≤ chunkSize) :
    ∀ (st : BodyState) (rng : Nat → Nat → UInt8),
      (relayDownLoop crypto p st rng reads).result = .ok () ∧
      (relayUpLoop crypto p st (relayDownLoop crypto p st rng reads).written).written =
        reads.flatten ∧
      (relayUpLoop crypto p st (relayDownLoop crypto p st rng reads).written).result =
        .ok () := by
  induction reads with
  | nil =>
    intro st rng
    have hempty : ([] : Bytes).length ≤ chunkSize := Nat.zero_le _
    obtain ⟨chunk, st', calls, hseal, hopen⟩ :=
      openChunk_sealChunk hcrypto hsec hauth st (rng 0) hempty
    have hdown : relayDownLoop crypto p st rng [] = ⟨chunk, calls, .ok ()⟩ := by
      simp [relayDownLoop, hseal]
    specialize hopen []
    rw [List.append_nil] at hopen
    rw [hdown]
    rcases hopen with h | ⟨-, h⟩
    · rw [relayUpLoop_chunk crypto h]
      exact ⟨rfl, rfl, rfl⟩
    · rw [relayUpLoop_zeroLength crypto h]
      exact ⟨rfl, rfl, rfl⟩
  | cons plain reads ih =>
    intro st rng
    obtain ⟨hpos, hle⟩ := hreads plain (by simp)
    have hne : plain ≠ [] := List.length_pos_iff.mp hpos
    obtain ⟨chunk, st', calls, hseal, hopen⟩ :=
      openChunk_sealChunk hcrypto hsec hauth st (rng 0) hle
    obtain ⟨hdownOk, hwritten, hresult⟩ :=
      ih (fun b hb => hreads b (by simp [hb])) st' (fun i => rng (i + 1))
    have hdown : relayDownLoop crypto p st rng (plain :: reads) =
        (relayDownLoop crypto p st' (fun i => rng (i + 1)) reads).after chunk calls := by
      simp [relayDownLoop, hseal, hne]
    have hstep := (hopen
      (relayDownLoop crypto p st' (fun i => rng (i + 1)) reads).written).resolve_right
        (fun h => hne h.1)
    have hup := relayUpLoop_chunk crypto hstep
    rw [if_neg (by simpa using hne)] at hup
    simp only [hdown, Relayed.after, hup, hdownOk, hwritten, hresult, List.flatten_cons,
      and_self]

theorem copyReads_eq_flatten {reads : List Bytes} (hreads : ∀ b ∈ reads, 1 ≤ b.length) :
    copyReads reads = reads.flatten := by
  induction reads with
  | nil => rfl
  | cons plain reads ih =>
    have hne : plain ≠ [] := List.length_pos_iff.mp (hreads plain (by simp))
    rw [copyReads, if_neg (by simpa using hne), ih (fun b hb => hreads b (by simp [hb])),
      List.flatten_cons]

/-- **Body round trip.**  For every key, iv, supported security and option byte without
the authenticated length, and for every sequence of reads and every random padding,
`relay_up` run on what `relay_down` wrote ends well and writes the reads. -/
theorem relayUp_relayDown (crypto : Crypto) (hcrypto : crypto.Lawful)
    (key iv : Vector UInt8 16) (opt sec : UInt8) (hsec : Supported sec)
    (hopt : opt &&& optAuthLen = 0) (rng : Nat → Nat → UInt8) (reads : List Bytes)
    (hreads : ∀ b ∈ reads, 1 ≤ b.length ∧ b.length ≤ chunkSize) :
    let down := relayDown crypto rng key iv opt sec reads
    let up := relayUp crypto key iv opt sec down.written
    down.result = .ok () ∧ up.result = .ok () ∧ up.written = reads.flatten := by
  intro down up
  by_cases hcopy : sec = secNone ∧ opt &&& optChunkStream = 0
  · have hdown : down = ⟨copyReads reads, [], .ok ()⟩ := if_pos hcopy
    have hup : up = ⟨down.written, [], .ok ()⟩ := if_pos hcopy
    rw [hup, hdown]
    exact ⟨rfl, rfl, copyReads_eq_flatten fun b hb => (hreads b hb).1⟩
  · have hdown : down = relayDownLoop crypto (.new crypto key iv opt sec) (.new iv opt) rng
        reads := if_neg hcopy
    have hup : up = relayUpLoop crypto (.new crypto key iv opt sec) (.new iv opt)
        down.written := if_neg hcopy
    have hauth : (BodyParams.new crypto key iv opt sec).authLenKey = none := by
      simp [BodyParams.new, hopt]
    obtain ⟨hdownOk, hwritten, hresult⟩ := relayUpLoop_relayDownLoop
      (p := .new crypto key iv opt sec) hcrypto hsec hauth reads hreads (.new iv opt) rng
    rw [hup, hdown]
    exact ⟨hdownOk, hresult, hwritten⟩

/-! ## An instance -/

/-- Primitives that have the values of AES-128-GCM and SHAKE128 on the two chunks of
`hi` under the zero key and iv; elsewhere a message is sealed by 16 zero bytes. -/
def sampleCrypto : Crypto where
  encrypt c key nonce plain :=
    if (c, key, nonce, plain) = (.aes128Gcm, List.replicate 16 0, chunkNonce 0 0, [104, 105]) then
      some [107, 225, 227, 58, 142, 202, 81, 26, 41, 82, 115, 201, 222, 210, 8, 121, 198, 216]
    else if (c, key, nonce, plain) = (.aes128Gcm, List.replicate 16 0, chunkNonce 0 1, []) then
      some [15, 243, 8, 80, 200, 207, 237, 209, 154, 255, 103, 141, 45, 103, 193, 201]
    else some (plain ++ List.replicate 16 0)
  decrypt _ _ _ ct :=
    if ct = [107, 225, 227, 58, 142, 202, 81, 26, 41, 82, 115, 201, 222, 210, 8, 121, 198,
        216] then some [104, 105]
    else some (ct.take (ct.length - 16))
  md5 _ := 0
  hmacSha256 _ _ := 0
  shake128 _ i := [143, 142, 79, 97, 46, 97, 255, 185].getD i 0

theorem sampleCrypto_lawful : sampleCrypto.Lawful where
  encrypt_isSome c key nonce plain _ := by
    simp only [sampleCrypto]
    split
    · rfl
    · split <;> rfl
  encrypt_length c key nonce plain ct h := by
    simp only [sampleCrypto, Prod.mk.injEq] at h
    split at h
    · rename_i hmatch
      obtain ⟨-, -, -, rfl⟩ := hmatch
      obtain rfl := Option.some.inj h
      rfl
    · split at h
      · rename_i hmatch
        obtain ⟨-, -, -, rfl⟩ := hmatch
        obtain rfl := Option.some.inj h
        rfl
      · obtain rfl := Option.some.inj h
        simp
  decrypt_encrypt c key nonce plain ct h := by
    simp only [sampleCrypto, Prod.mk.injEq] at h ⊢
    split at h
    · rename_i hmatch
      obtain ⟨-, -, -, rfl⟩ := hmatch
      obtain rfl := Option.some.inj h
      rfl
    · split at h
      · rename_i hmatch
        obtain ⟨-, -, -, rfl⟩ := hmatch
        obtain rfl := Option.some.inj h
        rfl
      · obtain rfl := Option.some.inj h
        -- a tag of zeros is not the tag of the first chunk
        rw [if_neg]
        · simp
        · intro heq
          have := congrArg List.getLast? heq
          simp at this

/-- `hi`, masked and padded, comes back. -/
theorem relayUp_relayDown_hi :
    (relayUp sampleCrypto 0 0 0x0d secAes128Gcm
      (relayDown sampleCrypto (fun _ _ => 170) 0 0 0x0d secAes128Gcm [[104, 105]]).written).written =
        [104, 105] :=
  (relayUp_relayDown sampleCrypto sampleCrypto_lawful 0 0 0x0d secAes128Gcm (.inr (.inl rfl))
    (by decide) (fun _ _ => 170) [[104, 105]] (by simp [chunkSize])).2.2

end Ruproxy.Vmess
