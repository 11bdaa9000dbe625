/-
  Vmess/Nonces.lean --- the nonces of the downlink.

  `relay_down` counts the calls of its ciphers in a `u16` that wraps, payloads and
  lengths alike, and takes the count as the first two bytes of the nonce.  So the
  nonces of two calls are the same exactly when the calls are a multiple of 65536
  apart.
-/
import Ruproxy.Vmess.EndOfStream

set_option autoImplicit false

namespace Ruproxy.Vmess

open Ruproxy.Foundation

/-! ## Counted calls -/

/-- The nonces of a list of calls are the counts from a first one on. -/
def Counted (iv : Vector UInt8 16) (count : UInt16) (calls : List AeadCall) : Prop :=
  calls.map AeadCall.nonce =
    (List.range calls.length).map fun j => chunkNonce iv (count + UInt16.ofNat j)

theorem Counted.nil (iv : Vector UInt8 16) (count : UInt16) : Counted iv count [] := rfl

/-- A call under the first count, in front of counted calls. -/
theorem Counted.cons {iv : Vector UInt8 16} {count : UInt16} {call : AeadCall}
    {calls : List AeadCall} (hcall : call.nonce = chunkNonce iv count)
    (h : Counted iv (count + 1) calls) : Counted iv count (call :: calls) := by
  unfold Counted at h ⊢
  rw [List.map_cons, h, List.length_cons, List.range_succ_eq_map, List.map_cons, List.map_map,
    hcall]
  congr 1
  · simp
  · refine List.map_congr_left fun j _ => ?_
    have hcount : count + 1 + UInt16.ofNat j = count + UInt16.ofNat (j + 1) := by
      rw [UInt16.ofNat_add, UInt16.add_assoc, UInt16.add_comm 1]
      rfl
    rw [hcount]
    rfl

/-- Counted calls, and counted calls from the next count on. -/
theorem Counted.append {iv : Vector UInt8 16} {count : UInt16} {cs ds : List AeadCall}
    (hcs : Counted iv count cs) (hds : Counted iv (count + UInt16.ofNat cs.length) ds) :
    Counted iv count (cs ++ ds) := by
  unfold Counted at hcs hds ⊢
  rw [List.map_append, hcs, hds, List.length_append, List.range_add, List.map_append,
    List.map_map]
  congr 1
  refine List.map_congr_left fun j _ => ?_
  rw [Function.comp_apply, UInt16.ofNat_add, UInt16.add_assoc]

/-- A call under the `j`-th count. -/
theorem Counted.nonce {iv : Vector UInt8 16} {count : UInt16} {calls : List AeadCall}
    (h : Counted iv count calls) {j : Nat} (hj : j < calls.length) :
    (calls[j]?).map AeadCall.nonce = some (chunkNonce iv (count + UInt16.ofNat j)) := by
  have hget := congrArg (·[j]?) h
  simpa [List.getElem?_range hj] using hget

/-- The count can be read off a nonce. -/
theorem chunkNonce_inj {iv : Vector UInt8 16} {c c' : UInt16}
    (h : chunkNonce iv c = chunkNonce iv c') : c = c' := by
  have h0 : (chunkNonce iv c)[0] = (chunkNonce iv c')[0] := by rw [h]
  have h1 : (chunkNonce iv c)[1] = (chunkNonce iv c')[1] := by rw [h]
  have hread : ∀ c : UInt16, u16OfBe (chunkNonce iv c)[0] (chunkNonce iv c)[1] = c :=
    fun c => u16OfBe_toBe c
  rw [← hread c, ← hread c', h0, h1]

/-- The nonces of two counted calls agree exactly when their positions do up to the range
of the counter. -/
theorem Counted.nonce_eq_iff {iv : Vector UInt8 16} {count : UInt16} {calls : List AeadCall}
    (h : Counted iv count calls) {i j : Nat} {c d : AeadCall} (hi : calls[i]? = some c)
    (hj : calls[j]? = some d) : c.nonce = d.nonce ↔ i % 65536 = j % 65536 := by
  have hci := h.nonce (List.getElem?_eq_some_iff.mp hi).1
  have hdj := h.nonce (List.getElem?_eq_some_iff.mp hj).1
  rw [hi, Option.map_some, Option.some.injEq] at hci
  rw [hj, Option.map_some, Option.some.injEq] at hdj
  rw [hci, hdj]
  constructor
  · intro heq
    have hcount := congrArg UInt16.toNat (chunkNonce_inj heq)
    simp only [UInt16.toNat_add, UInt16.toNat_ofNat'] at hcount
    omega
  · intro hmod
    have hsame : UInt16.ofNat i = UInt16.ofNat j := by
      apply UInt16.toNat_inj.mp
      simpa using hmod
    rw [hsame]

/-! ## The calls of the downlink -/

section Loop

variable {crypto : Crypto} {p : BodyParams}

theorem nextPadLen_count (crypto : Crypto) (p : BodyParams) (st : BodyState) :
    (nextPadLen crypto p st).2.count = st.count := by
  unfold nextPadLen
  split
  · split <;> rfl
  · rfl

/-- The payload of a chunk is sealed under the next count. -/
theorem encryptPayload_calls (hsec : IsAead p.sec) {count : UInt16} {plain ct : Bytes}
    {calls : List AeadCall} (h : encryptPayload crypto p count plain = .ok (ct, calls)) :
    ∃ c, calls = [c] ∧ c.nonce = chunkNonce p.iv count := by
  have hnone : p.sec ≠ secNone := by rcases hsec with h | h | h <;> rw [h] <;> decide
  unfold encryptPayload at h
  rw [if_neg hnone] at h
  dsimp only at h
  split at h
  · split at h
    · cases h
      exact ⟨_, rfl, rfl⟩
    · cases h
  · split at h
    · split at h
      · cases h
        exact ⟨_, rfl, rfl⟩
      · cases h
    · cases h

/-- The length of a chunk is sealed under the next count, or it is not sealed and not
counted. -/
theorem encodeSize_counted {st st' : BodyState} {totalSize : UInt16} {size : Bytes}
    {calls : List AeadCall}
    (h : encodeSize crypto p st totalSize = .ok (size, st', calls)) :
    Counted p.iv st.count calls ∧ st'.count = st.count + UInt16.ofNat calls.length := by
  unfold encodeSize at h
  split at h
  · dsimp only at h
    split at h
    · cases h
      exact ⟨.cons rfl (.nil ..), rfl⟩
    · cases h
  · split at h
    · cases h
      exact ⟨.nil .., (UInt16.add_zero _).symm⟩
    · cases h
      exact ⟨.nil .., (UInt16.add_zero _).symm⟩

/-- A chunk is sealed under the next counts. -/
theorem sealChunk_counted (hsec : IsAead p.sec) {st st' : BodyState} {pad : Nat → UInt8}
    {plain chunk : Bytes} {calls : List AeadCall}
    (h : sealChunk crypto p st pad plain = .ok (chunk, st', calls)) :
    Counted p.iv st.count calls ∧ st'.count = st.count + UInt16.ofNat calls.length := by
  unfold sealChunk at h
  dsimp only at h
  split at h
  · cases h
  · rename_i hpayload
    split at h
    · cases h
    · rename_i hsize
      cases h
      obtain ⟨c, rfl, hc⟩ := encryptPayload_calls hsec hpayload
      obtain ⟨hcounted, hcount⟩ := encodeSize_counted hsize
      rw [nextPadLen_count] at hc hcounted hcount
      refine ⟨.cons hc hcounted, ?_⟩
      rw [hcount, List.singleton_append, List.length_cons, UInt16.ofNat_add, UInt16.add_assoc,
        UInt16.add_comm 1]
      rfl

/-- The downlink seals under one count after the other. -/
theorem relayDownLoop_counted (hsec : IsAead p.sec) (reads : List Bytes) (st : BodyState)
    (rng : Nat → Nat → UInt8) :
    Counted p.iv st.count (relayDownLoop crypto p st rng reads).calls := by
  induction reads generalizing st rng with
  | nil =>
    unfold relayDownLoop
    split
    · exact .nil ..
    · rename_i hseal
      exact (sealChunk_counted hsec hseal).1
  | cons plain reads ih =>
    unfold relayDownLoop
    split
    · exact .nil ..
    · rename_i hseal
      obtain ⟨hcounted, hcount⟩ := sealChunk_counted hsec hseal
      split
      · exact hcounted
      · refine hcounted.append ?_
        rw [← hcount]
        exact ih _ _

end Loop

/-- **Nonces of the downlink.**  For every AEAD security, option byte, key, iv and sequence
of reads, the nonces of two encryptions of `relay_down` agree exactly when their numbers
do modulo 65536, so encryptions less than 65536 apart have different nonces. -/
theorem relayDown_nonce_eq_iff (crypto : Crypto) (rng : Nat → Nat → UInt8)
    (key iv : Vector UInt8 16) (opt sec : UInt8) (hsec : IsAead sec) (reads : List Bytes)
    {i j : Nat} {c d : AeadCall}
    (hi : (relayDown crypto rng key iv opt sec reads).calls[i]? = some c)
    (hj : (relayDown crypto rng key iv opt sec reads).calls[j]? = some d) :
    (c.nonce = d.nonce ↔ i % 65536 = j % 65536) ∧
      (i < j → j < i + 65536 → c.nonce ≠ d.nonce) := by
  have hnone : ¬ (sec = secNone ∧ opt &&& optChunkStream = 0) := by
    rintro ⟨h, -⟩
    rw [h] at hsec
    exact absurd hsec (by decide)
  rw [relayDown, if_neg hnone] at hi hj
  have hcounted : Counted iv 0
      (relayDownLoop crypto (.new crypto key iv opt sec) (.new iv opt) rng reads).calls :=
    relayDownLoop_counted hsec reads (.new iv opt) rng
  have hiff := hcounted.nonce_eq_iff hi hj
  refine ⟨hiff, fun hlt hnear heq => ?_⟩
  have hmod := hiff.mp heq
  omega

/-! ## A stream that wraps the counter -/

section Wrap

variable {crypto : Crypto} {p : BodyParams}

/-- Without authenticated lengths a chunk makes one call, for its payload. -/
theorem sealChunk_aes (hcrypto : crypto.Lawful) (hsec : p.sec = secAes128Gcm)
    (hauth : p.authLenKey = none) (st : BodyState) (pad : Nat → UInt8) {plain : Bytes}
    (hlen : plain.length < 2 ^ 36) :
    ∃ chunk st' c, sealChunk crypto p st pad plain = .ok (chunk, st', [c]) ∧
      c.cipher = .aes128Gcm ∧ c.key = p.key.toList ∧ c.plain = plain := by
  let padLen := (nextPadLen crypto p st).1
  let count := (nextPadLen crypto p st).2.count
  obtain ⟨ct, hct, -⟩ := hcrypto.sealed .aes128Gcm p.key.toList (chunkNonce p.iv count) hlen
  have hpayload : encryptPayload crypto p count plain =
      .ok (ct, [⟨.aes128Gcm, p.key.toList, chunkNonce p.iv count, plain⟩]) := by
    unfold encryptPayload
    rw [if_neg (by rw [hsec]; decide), if_pos (.inl hsec), hct]
  obtain ⟨size, shake', hsize⟩ := encodeSize_spec crypto hauth (nextPadLen crypto p st).2.shake
    (UInt16.ofNat (ct.length + padLen))
  have hseal : sealChunk crypto p st pad plain =
      .ok (size ++ ct ++ (List.range padLen).map pad, ⟨shake', count + 1⟩,
        [⟨.aes128Gcm, p.key.toList, chunkNonce p.iv count, plain⟩]) := by
    unfold sealChunk
    dsimp only
    rw [hpayload]
    dsimp only
    rw [(hsize (count + 1)).1]
    rfl
  exact ⟨_, _, _, hseal, rfl, rfl, rfl⟩

/-- Every read is sealed under the key of the connection, and then the empty chunk. -/
theorem relayDownLoop_aes (hcrypto : crypto.Lawful) (hsec : p.sec = secAes128Gcm)
    (hauth : p.authLenKey = none) {reads : List Bytes}
    (hreads : ∀ b ∈ reads, b ≠ [] ∧ b.length < 2 ^ 36) (st : BodyState) (rng : Nat → Nat → UInt8) :
    (relayDownLoop crypto p st rng reads).calls.map
        (fun c : AeadCall => (c.cipher, c.key, c.plain)) =
      (reads ++ [[]]).map fun b => (Cipher.aes128Gcm, p.key.toList, b) := by
  induction reads generalizing st rng with
  | nil =>
    obtain ⟨chunk, st', c, hseal, hcipher, hkey, hplain⟩ :=
      sealChunk_aes hcrypto hsec hauth st (rng 0) (show ([] : Bytes).length < 2 ^ 36 by simp)
    unfold relayDownLoop
    rw [hseal]
    simp [hcipher, hkey, hplain]
  | cons plain reads ih =>
    obtain ⟨hne, hlen⟩ := hreads plain List.mem_cons_self
    obtain ⟨chunk, st', c, hseal, hcipher, hkey, hplain⟩ :=
      sealChunk_aes hcrypto hsec hauth st (rng 0) hlen
    unfold relayDownLoop
    rw [hseal]
    have hrest := ih (fun b hb => hreads b (List.mem_cons_of_mem plain hb)) st'
      fun i => rng (i + 1)
    simp only [List.isEmpty_iff, if_neg hne, Relayed.after, List.map_append, List.map_cons,
      hcipher, hkey, hplain, hrest]
    rfl

end Wrap

/-- Ciphers that append a tag made of the nonce and open only what bears it. -/
def nonceCrypto : Crypto where
  encrypt _ _ nonce plain := some (plain ++ nonce.toList ++ [0, 0, 0, 0])
  decrypt _ _ nonce ct :=
    if ct.drop (ct.length - 16) = nonce.toList ++ [0, 0, 0, 0] then
      some (ct.take (ct.length - 16))
    else none
  md5 _ := 0
  hmacSha256 _ _ := 0
  shake128 _ _ := 0

theorem nonceCrypto_lawful : nonceCrypto.Lawful where
  encrypt_isSome _ _ _ _ _ := rfl
  encrypt_length c key nonce plain ct h := by
    cases h
    simp
  decrypt_encrypt c key nonce plain ct h := by
    cases h
    simp [nonceCrypto]

/-- The payload and the length of one chunk. -/
theorem relayDown_nonce_eq_iff_hi :
    ∃ c d, (relayDown nonceCrypto (fun _ _ => 0) 0 0 optAuthLen secAes128Gcm
        [[104, 105]]).calls[0]? = some c ∧
      (relayDown nonceCrypto (fun _ _ => 0) 0 0 optAuthLen secAes128Gcm
        [[104, 105]]).calls[1]? = some d ∧ c.nonce ≠ d.nonce := by
  obtain ⟨c, hc⟩ : ∃ c, (relayDown nonceCrypto (fun _ _ => 0) 0 0 optAuthLen secAes128Gcm
      [[104, 105]]).calls[0]? = some c := ⟨_, rfl⟩
  obtain ⟨d, hd⟩ : ∃ d, (relayDown nonceCrypto (fun _ _ => 0) 0 0 optAuthLen secAes128Gcm
      [[104, 105]]).calls[1]? = some d := ⟨_, rfl⟩
  exact ⟨c, d, hc, hd, (relayDown_nonce_eq_iff nonceCrypto (fun _ _ => 0) 0 0 optAuthLen
    secAes128Gcm (.inl rfl) [[104, 105]] hc hd).2 (by decide) (by decide)⟩

theorem getElem?_last_replicated {α : Type} (a b c : α) (n : Nat) :
    (a :: List.replicate (n + 1) b ++ [c])[n + 1]? = some b := by
  rw [List.cons_append, List.getElem?_cons_succ, List.getElem?_append_left (by simp),
    List.getElem?_replicate, if_pos (Nat.lt_succ_self n)]

/-- One byte, and 65536 other ones, in a read each. -/
def wrappingReads : List Bytes := [0] :: List.replicate 65536 [1]

/-- The first and the last of them are sealed under one nonce. -/
theorem not_relayDown_nonce_unique :
    ¬ ∀ (crypto : Crypto) (rng : Nat → Nat → UInt8) (key iv : Vector UInt8 16)
      (opt sec : UInt8) (reads : List Bytes), crypto.Lawful → IsAead sec →
      (∀ b ∈ reads, 1 ≤ b.length ∧ b.length ≤ chunkSize) →
      ∀ c ∈ (relayDown crypto rng key iv opt sec reads).calls,
      ∀ d ∈ (relayDown crypto rng key iv opt sec reads).calls,
        c.cipher = d.cipher → c.key = d.key → c.nonce = d.nonce → c.plain = d.plain := by
  intro hall
  let p := BodyParams.new nonceCrypto 0 0 0 secAes128Gcm
  have hmem : ∀ b ∈ wrappingReads, b = [0] ∨ b = [1] := by
    intro b hb
    rcases List.mem_cons.mp hb with rfl | hb
    · exact .inl rfl
    · exact .inr (List.eq_of_mem_replicate hb)
  have hreads : ∀ b ∈ wrappingReads, b ≠ [] ∧ b.length < 2 ^ 36 := by
    intro b hb
    rcases hmem b hb with rfl | rfl <;> simp
  have hbounds : ∀ b ∈ wrappingReads, 1 ≤ b.length ∧ b.length ≤ chunkSize := by
    intro b hb
    rcases hmem b hb with rfl | rfl <;> simp [chunkSize]
  have hdown : relayDown nonceCrypto (fun _ _ => 0) 0 0 0 secAes128Gcm wrappingReads =
      relayDownLoop nonceCrypto p (.new 0 0) (fun _ _ => 0) wrappingReads := if_neg (by decide)
  have hcalls : (relayDownLoop nonceCrypto p (.new 0 0) (fun _ _ => 0) wrappingReads).calls.map
        (fun c : AeadCall => (c.cipher, c.key, c.plain)) =
      (wrappingReads ++ [[]]).map fun b => (Cipher.aes128Gcm, p.key.toList, b) :=
    relayDownLoop_aes nonceCrypto_lawful rfl rfl hreads _ _
  have hcounted : Counted 0 0
      (relayDownLoop nonceCrypto p (.new 0 0) (fun _ _ => 0) wrappingReads).calls :=
    relayDownLoop_counted (.inl rfl) wrappingReads (.new 0 0) fun _ _ => 0
  rw [← hdown] at hcalls hcounted
  -- the calls 0 and 65536
  have hget : ∀ (i : Nat) (b : Bytes), (wrappingReads ++ [[]])[i]? = some b →
      ∃ c : AeadCall,
        (relayDown nonceCrypto (fun _ _ => 0) 0 0 0 secAes128Gcm wrappingReads).calls[i]? =
          some c ∧ c.cipher = .aes128Gcm ∧ c.key = p.key.toList ∧ c.plain = b := by
    intro i b hb
    have hi := congrArg (·[i]?) hcalls
    rw [List.getElem?_map, List.getElem?_map, hb, Option.map_some] at hi
    obtain ⟨c, hc, heq⟩ := Option.map_eq_some_iff.mp hi
    rw [Prod.mk.injEq, Prod.mk.injEq] at heq
    exact ⟨c, hc, heq⟩
  obtain ⟨c, hc, hcipher, hkey, hplain⟩ := hget 0 [0] rfl
  obtain ⟨d, hd, hcipher', hkey', hplain'⟩ := hget 65536 [1] (getElem?_last_replicated _ _ _ 65535)
  have hsame := hall nonceCrypto (fun _ _ => 0) 0 0 0 secAes128Gcm wrappingReads
    nonceCrypto_lawful (.inl rfl) hbounds c (List.mem_of_getElem? hc) d (List.mem_of_getElem? hd)
    (hcipher.trans hcipher'.symm) (hkey.trans hkey'.symm)
    ((hcounted.nonce_eq_iff hc hd).mpr (by decide))
  rw [hplain, hplain'] at hsame
  exact absurd hsame (by decide)

end Ruproxy.Vmess
