/-
  Vless/ClientHello.lean --- what `vless/tls/reality.rs` reads out of a ClientHello.

  `extract_x25519_from_key_share` walks over the cipher suites, the compression
  methods and the extensions to the key share, and `cipher_suite_prefers_aes` over
  the cipher suites, all with cursors into the bytes they are given.  Every index and
  slice is an `Outcome`, which panics where the source would; no input makes them
  panic.  A key share that is found in a byte string is found in every longer one.
-/
import Ruproxy.Foundation.Outcome
import Ruproxy.Foundation.Text

set_option autoImplicit false

namespace Ruproxy.Vless

open Ruproxy.Foundation
open Ruproxy.Foundation.Outcome

/-! ## The layout of a ClientHello record -/

/-- `RECORD_HDR`. -/
def recordHdr : Nat := 5
/-- `HANDSHAKE_HDR`. -/
def handshakeHdr : Nat := 4
/-- `LEGACY_VER_LEN`. -/
def legacyVerLen : Nat := 2
/-- `RANDOM_OFFSET`. -/
def randomOffset : Nat := recordHdr + handshakeHdr + legacyVerLen
/-- `RANDOM_LEN`. -/
def randomLen : Nat := 32
/-- `SID_LEN_OFFSET`. -/
def sidLenOffset : Nat := randomOffset + randomLen
/-- `SID_OFFSET`. -/
def sidOffset : Nat := sidLenOffset + 1

theorem randomOffset_eq : randomOffset = 11 := rfl

theorem sidLenOffset_eq : sidLenOffset = 43 := rfl

theorem sidOffset_eq : sidOffset = 44 := rfl

/-! ## Key shares -/

/-- An X25519 key. -/
abbrev X25519Key : Type := Vector UInt8 32

/-- The ways in which no key share is found. -/
inductive KeyShareError where
  | beforeCipherSuites
  | beforeCompressionMethods
  | beforeExtensionsLength
  | extensionsOutOfRecord
  | extensionOutOfBounds
  | noKeyShare
  | keyShareTooShort
  | entryOutOfBounds
  | noX25519
  deriving DecidableEq

/-- The text of an error. -/
def KeyShareError.text : KeyShareError → String
  | .beforeCipherSuites => "record 在 cipher_suites 前截断"
  | .beforeCompressionMethods => "record 在 compression_methods 前截断"
  | .beforeExtensionsLength => "record 在 extensions_length 前截断"
  | .extensionsOutOfRecord => "extensions 超出 record 边界"
  | .extensionOutOfBounds => "extension 数据超出边界"
  | .noKeyShare => "未找到 KeyShare 扩展（0x0033）"
  | .keyShareTooShort => "KeyShare data 太短"
  | .entryOutOfBounds => "KeyShare entry 超出边界"
  | .noX25519 => "KeyShare 中未找到 x25519（0x001d）或 X25519MLKEM768（0x11ec）"

/-- The loop of `parse_x25519_key_share`. -/
def keyShares (data : Bytes) (stop pos : Nat) (mlkemX25519 : Option X25519Key) :
    Outcome KeyShareError X25519Key :=
  if pos + 4 ≤ stop then do
    let group := u16OfBe (← index data pos) (← index data (pos + 1))
    let keLen := (u16OfBe (← index data (pos + 2)) (← index data (pos + 3))).toNat
    if stop < pos + 4 + keLen then err .entryOutOfBounds
    else if group = 0x001d ∧ keLen = 32 then
      unwrap (tryInto 32 (← slice data (pos + 4) (pos + 4 + 32)))
    else if group = 0x11ec ∧ 1088 + 32 ≤ keLen then
      -- the X25519 key stands behind the ML-KEM one
      let x25519Offset := keLen - 32
      let pubKey ← unwrap (tryInto 32
        (← slice data (pos + 4 + x25519Offset) (pos + 4 + x25519Offset + 32)))
      keyShares data stop (pos + 4 + keLen) (some pubKey)
    else keyShares data stop (pos + 4 + keLen) mlkemX25519
  else orErr .noX25519 mlkemX25519
termination_by stop - pos

/-- `parse_x25519_key_share`. -/
def parseX25519KeyShare (data : Bytes) : Outcome KeyShareError X25519Key :=
  if data.length < 2 then err .keyShareTooShort
  else do
    let sharesLen := (u16OfBe (← index data 0) (← index data 1)).toNat
    keyShares data (min (2 + sharesLen) data.length) 2 none

/-- The loop over the extensions. -/
def keyShareExtension (record : Bytes) (extEnd pos : Nat) : Outcome KeyShareError X25519Key :=
  if pos + 4 ≤ extEnd then do
    let extType := u16OfBe (← index record pos) (← index record (pos + 1))
    let extLen := (u16OfBe (← index record (pos + 2)) (← index record (pos + 3))).toNat
    if extEnd < pos + 4 + extLen then err .extensionOutOfBounds
    else if extType = 0x0033 then
      parseX25519KeyShare (← slice record (pos + 4) (pos + 4 + extLen))
    else keyShareExtension record extEnd (pos + 4 + extLen)
  else err .noKeyShare
termination_by extEnd - pos

/-- `extract_x25519_from_key_share`. -/
def extractX25519FromKeyShare (record : Bytes) : Outcome KeyShareError X25519Key :=
  let pos := sidOffset + 32
  if record.length < pos + 2 then err .beforeCipherSuites
  else do
    let csLen := (u16OfBe (← index record pos) (← index record (pos + 1))).toNat
    let pos := pos + (2 + csLen)
    if record.length < pos + 1 then err .beforeCompressionMethods
    else
      let cmLen := (← index record pos).toNat
      let pos := pos + (1 + cmLen)
      if record.length < pos + 2 then err .beforeExtensionsLength
      else
        let extTotal := (u16OfBe (← index record pos) (← index record (pos + 1))).toNat
        let pos := pos + 2
        let extEnd := pos + extTotal
        if record.length < extEnd then err .extensionsOutOfRecord
        else keyShareExtension record extEnd pos

/-! ## Cipher suites -/

section CipherSuites

variable {ε : Type}

/-- The loop of `cipher_suite_prefers_aes`. -/
def prefersAesFrom (record : Bytes) (stop i : Nat) : Outcome ε Bool :=
  if i + 1 < stop then do
    let suite := u16OfBe (← index record i) (← index record (i + 1))
    if suite ∈ [0x1301, 0x1302, 0x009c, 0x009d, 0xc02b, 0xc02c, 0xc02f, 0xc030] then
      return true
    else if suite ∈ [0x1303, 0xcca8, 0xcca9] then
      return false
    else prefersAesFrom record stop (i + 2)
  else return true
termination_by stop - i

/-- `cipher_suite_prefers_aes`. -/
def cipherSuitePrefersAes (record : Bytes) : Outcome ε Bool :=
  let pos := sidOffset + 32
  if record.length < pos + 2 then return true
  else do
    let csLen := (u16OfBe (← index record pos) (← index record (pos + 1))).toNat
    let csStart := pos + 2
    if record.length < csStart + csLen ∨ csLen < 2 then return true
    else prefersAesFrom record (csStart + csLen) csStart

end CipherSuites

/-! ## Nothing panics -/

/-- The four bytes in front of an entry are read. -/
theorem head_ne_panic {ε α : Type} {data : Bytes} {pos : Nat} (hpos : pos + 3 < data.length)
    {f : UInt8 → UInt8 → UInt8 → UInt8 → Outcome ε α} (hf : ∀ a b c d, f a b c d ≠ panic) :
    (index data pos >>= fun a => index data (pos + 1) >>= fun b => index data (pos + 2) >>=
      fun c => index data (pos + 3) >>= fun d => f a b c d) ≠ panic := by
  refine bind_ne_panic (index_ne_panic (by omega)) fun a _ => ?_
  refine bind_ne_panic (index_ne_panic (by omega)) fun b _ => ?_
  refine bind_ne_panic (index_ne_panic (by omega)) fun c _ => ?_
  refine bind_ne_panic (index_ne_panic (by omega)) fun d _ => ?_
  exact hf a b c d

/-- What comes behind the four bytes has a value. -/
theorem head_eq_ok {ε α : Type} {data : Bytes} {pos : Nat}
    {f : UInt8 → UInt8 → UInt8 → UInt8 → Outcome ε α} {x : α}
    (h : (index data pos >>= fun a => index data (pos + 1) >>= fun b => index data (pos + 2) >>=
      fun c => index data (pos + 3) >>= fun d => f a b c d) = ok x) :
    ∃ a b c d, f a b c d = ok x := by
  obtain ⟨a, -, h⟩ := bind_eq_ok.mp h
  obtain ⟨b, -, h⟩ := bind_eq_ok.mp h
  obtain ⟨c, -, h⟩ := bind_eq_ok.mp h
  obtain ⟨d, -, h⟩ := bind_eq_ok.mp h
  exact ⟨a, b, c, d, h⟩

theorem keyShares_ne_panic {data : Bytes} {stop : Nat} (hstop : stop ≤ data.length) (pos : Nat)
    (mlkem : Option X25519Key) : keyShares data stop pos mlkem ≠ panic := by
  fun_induction keyShares data stop pos mlkem with
  | case1 pos mlkem hpos ihMlkem ih =>
    refine head_ne_panic (by omega) fun a b c d => ?_
    dsimp only
    split
    · simp
    rename_i hfits
    split
    · refine bind_ne_panic (slice_ne_panic (by omega) (by omega)) fun s hs => ?_
      exact unwrap_tryInto_ne_panic hs
    split
    · rename_i hgroup
      refine bind_ne_panic (slice_ne_panic (by omega) (by omega)) fun s hs => ?_
      refine bind_ne_panic (unwrap_tryInto_ne_panic hs) fun pubKey _ => ?_
      exact ihMlkem a b c d hfits hgroup pubKey
    · exact ih c d hfits
  | case2 pos mlkem hpos => exact orErr_ne_panic _ _

theorem parseX25519KeyShare_ne_panic (data : Bytes) : parseX25519KeyShare data ≠ panic := by
  unfold parseX25519KeyShare
  split
  · simp
  · refine bind_ne_panic (index_ne_panic (by omega)) fun a _ => ?_
    refine bind_ne_panic (index_ne_panic (by omega)) fun b _ => ?_
    exact keyShares_ne_panic (Nat.min_le_right _ _) 2 none

theorem keyShareExtension_ne_panic {record : Bytes} {extEnd : Nat}
    (hend : extEnd ≤ record.length) (pos : Nat) : keyShareExtension record extEnd pos ≠ panic := by
  fun_induction keyShareExtension record extEnd pos with
  | case1 pos hpos ih =>
    refine head_ne_panic (by omega) fun a b c d => ?_
    dsimp only
    split
    · simp
    rename_i hfits
    split
    · refine bind_ne_panic (slice_ne_panic (by omega) (by omega)) fun s _ => ?_
      exact parseX25519KeyShare_ne_panic s
    · exact ih c d hfits
  | case2 pos hpos => simp

/-- The key share is looked for inside the bytes. -/
theorem extractX25519FromKeyShare_ne_panic (record : Bytes) :
    extractX25519FromKeyShare record ≠ panic := by
  unfold extractX25519FromKeyShare
  dsimp only
  split
  · simp
  refine bind_ne_panic (index_ne_panic (by omega)) fun a _ => ?_
  refine bind_ne_panic (index_ne_panic (by omega)) fun b _ => ?_
  split
  · simp
  refine bind_ne_panic (index_ne_panic (by omega)) fun c _ => ?_
  split
  · simp
  refine bind_ne_panic (index_ne_panic (by omega)) fun d _ => ?_
  refine bind_ne_panic (index_ne_panic (by omega)) fun e _ => ?_
  split
  · simp
  · exact keyShareExtension_ne_panic (by omega) _

theorem prefersAesFrom_ne_panic {ε : Type} {record : Bytes} {stop : Nat}
    (hstop : stop ≤ record.length) (i : Nat) :
    (prefersAesFrom record stop i : Outcome ε Bool) ≠ panic := by
  fun_induction prefersAesFrom (ε := ε) record stop i with
  | case1 i hi ih =>
    refine bind_ne_panic (index_ne_panic (by omega)) fun a _ => ?_
    refine bind_ne_panic (index_ne_panic (by omega)) fun b _ => ?_
    dsimp only
    split
    · simp
    rename_i haes
    split
    · simp
    · rename_i hchacha
      exact ih
  | case2 i hi => simp

/-- The cipher suites are read inside the bytes. -/
theorem cipherSuitePrefersAes_ne_panic {ε : Type} (record : Bytes) :
    (cipherSuitePrefersAes record : Outcome ε Bool) ≠ panic := by
  unfold cipherSuitePrefersAes
  dsimp only
  split
  · simp
  refine bind_ne_panic (index_ne_panic (by omega)) fun a _ => ?_
  refine bind_ne_panic (index_ne_panic (by omega)) fun b _ => ?_
  split
  · simp
  · exact prefersAesFrom_ne_panic (by omega) _

/-! ## Longer byte strings -/

theorem keyShareExtension_below {x y : Bytes} (h : x <+: y) (extEnd pos : Nat) :
    (keyShareExtension x extEnd pos).Below (keyShareExtension y extEnd pos) := by
  fun_induction keyShareExtension x extEnd pos with
  | case1 pos hpos ih =>
    rw [keyShareExtension, if_pos hpos]
    refine (index_below h _).bind fun a => ?_
    refine (index_below h _).bind fun b => ?_
    refine (index_below h _).bind fun c => ?_
    refine (index_below h _).bind fun d => ?_
    dsimp only
    split
    · exact below_err _ _
    rename_i hfits
    split
    · exact (slice_below h _ _).bind fun s => .refl _
    · exact ih c d hfits
  | case2 pos hpos => exact below_err _ _

/-- A key share that is found in a byte string is found in every longer one. -/
theorem extractX25519FromKeyShare_below {x y : Bytes} (h : x <+: y) :
    (extractX25519FromKeyShare x).Below (extractX25519FromKeyShare y) := by
  have hlen : x.length ≤ y.length := h.length_le
  unfold extractX25519FromKeyShare
  dsimp only
  refine below_guard (fun hlt => by omega) ?_
  refine (index_below h _).bind fun a => (index_below h _).bind fun b => ?_
  refine below_guard (fun hlt => by omega) ?_
  refine (index_below h _).bind fun c => ?_
  refine below_guard (fun hlt => by omega) ?_
  refine (index_below h _).bind fun d => (index_below h _).bind fun e => ?_
  refine below_guard (fun hlt => by omega) ?_
  exact keyShareExtension_below h _ _

/-- Where a key share is found, the extensions end inside the bytes. -/
theorem extensions_of_extract_eq_ok {x : Bytes} {share : X25519Key}
    (h : extractX25519FromKeyShare x = ok share) :
    ∃ a b c d e, x[76]? = some a ∧ x[77]? = some b ∧
      x[78 + (u16OfBe a b).toNat]? = some c ∧
      x[79 + (u16OfBe a b).toNat + c.toNat]? = some d ∧
      x[80 + (u16OfBe a b).toNat + c.toNat]? = some e ∧
      81 + (u16OfBe a b).toNat + c.toNat + (u16OfBe d e).toNat ≤ x.length := by
  unfold extractX25519FromKeyShare at h
  rw [sidOffset_eq] at h
  obtain ⟨-, h⟩ := guard_eq_ok.mp h
  obtain ⟨a, ha, h⟩ := bind_eq_ok.mp h
  obtain ⟨b, hb, h⟩ := bind_eq_ok.mp h
  obtain ⟨-, h⟩ := guard_eq_ok.mp h
  obtain ⟨c, hc, h⟩ := bind_eq_ok.mp h
  obtain ⟨-, h⟩ := guard_eq_ok.mp h
  obtain ⟨d, hd, h⟩ := bind_eq_ok.mp h
  obtain ⟨e, he, h⟩ := bind_eq_ok.mp h
  obtain ⟨hfit, -⟩ := guard_eq_ok.mp h
  have hat : ∀ {i j : Nat} {v : UInt8}, i = j →
      (index x i : Outcome KeyShareError UInt8) = ok v → x[j]? = some v := by
    rintro i j v rfl hi
    exact index_eq_ok.mp hi
  exact ⟨a, b, c, d, e, hat rfl ha, hat rfl hb, hat (by omega) hc, hat (by omega) hd,
    hat (by omega) he, by omega⟩

theorem prefersAesFrom_below {ε : Type} {x y : Bytes} (h : x <+: y) (stop i : Nat) :
    (prefersAesFrom x stop i : Outcome ε Bool).Below (prefersAesFrom y stop i) := by
  fun_induction prefersAesFrom (ε := ε) x stop i with
  | case1 i hi ih =>
    rw [prefersAesFrom.eq_def y stop i, if_pos hi]
    refine (index_below h _).bind fun a => ?_
    refine (index_below h _).bind fun b => ?_
    dsimp only
    split
    · exact .refl _
    split
    · exact .refl _
    · exact ih
  | case2 i hi =>
    rw [prefersAesFrom.eq_def y stop i, if_neg hi]
    exact .refl _

/-- Which cipher is preferred does not depend on what follows. -/
theorem cipherSuitePrefersAes_below {ε : Type} {x y : Bytes} (h : x <+: y) {share : X25519Key}
    (hshare : extractX25519FromKeyShare x = ok share) :
    (cipherSuitePrefersAes x : Outcome ε Bool).Below (cipherSuitePrefersAes y) := by
  obtain ⟨a, b, _, _, _, ha, hb, -, -, -, hfit⟩ := extensions_of_extract_eq_ok hshare
  have hlen : x.length ≤ y.length := h.length_le
  have hax : (index x 76 : Outcome ε UInt8) = ok a := index_eq_ok.mpr ha
  have hbx : (index x 77 : Outcome ε UInt8) = ok b := index_eq_ok.mpr hb
  unfold cipherSuitePrefersAes
  rw [sidOffset_eq]
  dsimp only
  rw [if_neg (by omega), if_neg (by omega), hax, hbx, index_below h _ _ hax, index_below h _ _ hbx]
  simp only [ok_bind]
  rcases Nat.lt_or_ge (u16OfBe a b).toNat 2 with hfew | hfew
  · rw [if_pos (.inr hfew), if_pos (.inr hfew)]
    exact .refl _
  · rw [if_neg (by omega), if_neg (by omega)]
    exact prefersAesFrom_below h _ _

end Ruproxy.Vless
