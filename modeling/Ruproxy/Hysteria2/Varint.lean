/-
  Hysteria2/Varint.lean --- the varint codecs of `auth.rs`, `server.rs` and `proxy.rs`.

  `read_varint` of `auth.rs` and of `server.rs` read a stream, `read_varint_bytes` of
  `proxy.rs` reads a datagram.  The first two take `(1 << class) - 1` bytes after the first
  one, the third takes `class` bytes, and the encoders write what the first two read.  The
  decoders agree on the classes 0 and 1, and on strings that are too short for both.
-/
import Ruproxy.Foundation.Varint
import Ruproxy.Hysteria2.Frame
import Ruproxy.Address.Decoders

set_option autoImplicit false

namespace Ruproxy.Hysteria2

open Ruproxy.Foundation Ruproxy.Address

/-! ## The decoders of a stream -/

/-- The loop of `read_varint` with `n` turns left. -/
def readVarintTail : Nat → UInt64 → Bytes → Except AddrError (UInt64 × Bytes)
  | 0, val, s => .ok (val, s)
  | n + 1, val, s => do
      let (b, s) ← readU8 s
      readVarintTail n ((val <<< 8) ||| b.toUInt64) s

/-- A varint from a stream. -/
def readStreamVarint (s : Bytes) : Except AddrError (UInt64 × Bytes) := do
  let (first, s) ← readU8 s
  let len := 1 <<< (first >>> 6).toNat
  readVarintTail (len - 1) (first &&& 0x3f).toUInt64 s

/-- `read_varint` of `auth.rs`. -/
def Auth.readVarint (stream : Bytes) : Except AddrError (UInt64 × Bytes) :=
  readStreamVarint stream

/-- `read_varint` of `server.rs`. -/
def Server.readVarint (recv : Bytes) : Except AddrError (UInt64 × Bytes) :=
  readStreamVarint recv

/-- `write_varint` of `auth.rs`, which has the body of `write_varint_bytes`. -/
def Auth.writeVarint (val : UInt64) : Bytes := writeVarintBytes val

/-- How many bytes the format has after a first byte of class `k`. -/
def quicExtra (k : Nat) : Nat := 2 ^ k - 1

/-! ## What the decoders read -/

/-- The value as a number. -/
def natValue (r : UInt64 × Bytes) : Nat × Bytes := (r.1.toNat, r.2)

theorem natValue_injective : Function.Injective natValue := by
  rintro ⟨v, r⟩ ⟨w, t⟩ h
  obtain ⟨hval, hrest⟩ := Prod.mk.inj h
  exact Prod.ext (UInt64.toNat_inj.mp hval) hrest

/-- The loop of `read_varint_bytes` takes the digits, if no bit is shifted out. -/
theorem readVarintLoop_toOption (n : Nat) (val : UInt64) (s : Bytes)
    (h : (val.toNat + 1) * 256 ^ n ≤ 2 ^ 64) :
    (readVarintLoop n val s).toOption.map natValue =
      (readExact n s).map fun r => (beNat val.toNat r.1, r.2) := by
  induction n generalizing val s with
  | zero =>
    have hread : readExact 0 s = some ([], s) := readExact_append (b := []) rfl s
    rw [hread]
    rfl
  | succ n ih =>
    cases s with
    | nil => rfl
    | cons b s =>
      have hb := b.toNat_lt
      rw [Nat.pow_succ', ← Nat.mul_assoc] at h
      have hval : (val.toNat + 1) * 256 ≤ 2 ^ 64 :=
        (Nat.le_mul_of_pos_right _ (Nat.pow_pos (by decide))).trans h
      have hshift := toNat_shiftIn b (by omega : val.toNat < 2 ^ 56)
      have hnext : (((val <<< 8) ||| b.toUInt64).toNat + 1) * 256 ^ n ≤ 2 ^ 64 := by
        rw [hshift]
        exact (Nat.mul_le_mul_right _ (by omega)).trans h
      rw [readVarintLoop, ih _ s hnext, hshift, readExact_succ_cons, Option.map_map]
      rfl

/-- The loop of the stream decoders takes the same bytes. -/
theorem readVarintTail_toOption (n : Nat) (val : UInt64) (s : Bytes) :
    (readVarintTail n val s).toOption = (readVarintLoop n val s).toOption := by
  induction n generalizing val s with
  | zero => rfl
  | succ n ih =>
    cases s with
    | nil => rfl
    | cons b s => exact ih _ s

theorem readVarintBytes_toOption (s : Bytes) :
    (readVarintBytes s).toOption.map natValue = varint id s := by
  cases s with
  | nil => rfl
  | cons first s =>
    have hfirst := first.toNat_lt
    have hval := toNat_and_63 first
    have hpow : 256 ^ (first.toNat / 64) ≤ 256 ^ 3 :=
      Nat.pow_le_pow_right (by decide) (by omega)
    rw [readVarintBytes, varint, id_eq, ← hval, toNat_shiftRight_six]
    apply readVarintLoop_toOption
    calc ((first &&& 0x3f).toUInt64.toNat + 1) * 256 ^ (first.toNat / 64)
        ≤ 64 * 256 ^ 3 := Nat.mul_le_mul (by omega) hpow
      _ ≤ 2 ^ 64 := by decide

theorem readStreamVarint_toOption (s : Bytes) :
    (readStreamVarint s).toOption.map natValue = varint quicExtra s := by
  cases s with
  | nil => rfl
  | cons first s =>
    have hfirst := first.toNat_lt
    have hval := toNat_and_63 first
    have hclass : first.toNat / 64 ≤ 3 := by omega
    have hpow : 256 ^ (2 ^ (first.toNat / 64) - 1) ≤ 256 ^ 7 := by
      apply Nat.pow_le_pow_right (by decide)
      have := Nat.pow_le_pow_right (by decide : 0 < 2) hclass
      omega
    have hread : readStreamVarint (first :: s) =
        readVarintTail (2 ^ (first.toNat / 64) - 1) (first &&& 0x3f).toUInt64 s := by
      rw [← toNat_shiftRight_six, ← Nat.one_shiftLeft]
      rfl
    rw [hread, readVarintTail_toOption, varint, quicExtra, ← hval]
    apply readVarintLoop_toOption
    calc ((first &&& 0x3f).toUInt64.toNat + 1) * 256 ^ (2 ^ (first.toNat / 64) - 1)
        ≤ 64 * 256 ^ 7 := Nat.mul_le_mul (by omega) hpow
      _ ≤ 2 ^ 64 := by decide

/-- The stream decoders return the value of the encoding in front. -/
theorem readStreamVarint_eq_ok {s rest : Bytes} {v : UInt64} :
    readStreamVarint s = .ok (v, rest) ↔
      ∃ b, s = b ++ rest ∧ IsVarint quicExtra b v.toNat := by
  rw [← varint_eq_some, ← readStreamVarint_toOption, ← Except.toOption_eq_some]
  exact (Option.map_injective natValue_injective).eq_iff.symm

/-- An encoding of the format is read, whatever stands behind it. -/
theorem exists_readStreamVarint {b : Bytes} {n : Nat} (h : IsVarint quicExtra b n)
    (rest : Bytes) : ∃ v : UInt64, v.toNat = n ∧ readStreamVarint (b ++ rest) = .ok (v, rest) := by
  have hread := (readStreamVarint_toOption (b ++ rest)).trans (h.varint_append rest)
  obtain ⟨⟨v, r⟩, hv, heq⟩ := Option.map_eq_some_iff.mp hread
  obtain ⟨hn, rfl⟩ := Prod.mk.inj heq
  exact ⟨v, hn, Except.toOption_eq_some.mp hv⟩

/-! ## What the encoders write -/

/-- What is written is an encoding of the value, of class 0 or 1 below 16384. -/
theorem writeVarintBytes_spec {val : UInt64} (h : val.toNat < 2 ^ 62) :
    ∃ first more, writeVarintBytes val = first :: more ∧
      IsVarint quicExtra (first :: more) val.toNat ∧
        (first.toNat / 64 < 2 ↔ val.toNat < 16384) := by
  unfold writeVarintBytes
  by_cases h1 : val < 64
  · have hlt : val.toNat < 64 := h1
    have hval : beNat 0 [val.toUInt8] = 0 * 64 * 256 ^ 0 + val.toNat := by
      rw [beNat_cons, beNat_nil, UInt64.toNat_toUInt8]
      omega
    rw [if_pos h1]
    obtain ⟨hclass, hvarint⟩ := isVarint_of_beNat (show quicExtra 0 = 0 from rfl) rfl hlt hval
    exact ⟨_, _, rfl, hvarint, by omega⟩
  rw [if_neg h1]
  by_cases h2 : val < 16384
  · have hlt : val.toNat < 16384 := h2
    have hval : beNat 0 (u16ToBe (0x4000 ||| val.toUInt16)) = 1 * 64 * 256 ^ 1 + val.toNat := by
      rw [beNat_u16ToBe, UInt16.toNat_or, UInt64.toNat_toUInt16, Nat.mod_eq_of_lt (by omega)]
      exact (Nat.two_pow_add_eq_or_of_lt (i := 14) hlt 1).symm
    rw [if_pos h2]
    obtain ⟨hclass, hvarint⟩ := isVarint_of_beNat (show quicExtra 1 = 1 from rfl) rfl hlt hval
    exact ⟨_, _, rfl, hvarint, by omega⟩
  rw [if_neg h2]
  have hge : 16384 ≤ val.toNat := Nat.le_of_not_lt h2
  by_cases h3 : val < 1073741824
  · have hlt : val.toNat < 64 * 256 ^ 3 := h3
    have hval : beNat 0 (u32ToBe (0x80000000 ||| val.toUInt32)) =
        2 * 64 * 256 ^ 3 + val.toNat := by
      rw [beNat_u32ToBe, UInt32.toNat_or, UInt64.toNat_toUInt32, Nat.mod_eq_of_lt (by omega)]
      exact (Nat.two_pow_add_eq_or_of_lt (i := 30) hlt 2).symm
    rw [if_pos h3]
    obtain ⟨hclass, hvarint⟩ := isVarint_of_beNat (show quicExtra 2 = 3 from rfl) rfl hlt hval
    exact ⟨_, _, rfl, hvarint, by omega⟩
  rw [if_neg h3]
  have hval : beNat 0 (u64ToBe (0xc000000000000000 ||| val)) = 3 * 64 * 256 ^ 7 + val.toNat := by
    rw [beNat_u64ToBe, UInt64.toNat_or]
    exact (Nat.two_pow_add_eq_or_of_lt (i := 62) h 3).symm
  obtain ⟨hclass, hvarint⟩ := isVarint_of_beNat (show quicExtra 3 = 7 from rfl) rfl h hval
  exact ⟨_, _, rfl, hvarint, by omega⟩

/-- The stream decoders read back what the encoders write, for every value. -/
theorem readStreamVarint_write {val : UInt64} (h : val.toNat < 2 ^ 62) (rest : Bytes) :
    readStreamVarint (writeVarintBytes val ++ rest) = .ok (val, rest) := by
  obtain ⟨first, more, hwrite, hvarint, -⟩ := writeVarintBytes_spec h
  exact readStreamVarint_eq_ok.mpr ⟨_, rfl, hwrite ▸ hvarint⟩

/-- `auth.rs` reads every value that it writes. -/
theorem Auth.readVarint_writeVarint {val : UInt64} (h : val.toNat < 2 ^ 62) (rest : Bytes) :
    Auth.readVarint (Auth.writeVarint val ++ rest) = .ok (val, rest) :=
  readStreamVarint_write h rest

/-! ## Agreement -/

/-- `read_varint_bytes` and the decoders of a stream return the same value after the same
number of bytes, or they all fail. -/
def SameVarint (data : Bytes) : Prop :=
  (readVarintBytes data).toOption = (Auth.readVarint data).toOption ∧
    (readVarintBytes data).toOption = (Server.readVarint data).toOption

theorem sameVarint_iff_toOption {data : Bytes} :
    SameVarint data ↔ (readVarintBytes data).toOption = (readStreamVarint data).toOption :=
  and_self_iff

/-- They agree on the classes with no or one more byte, and where the string ends before the
third byte of class 2 or the fourth byte of class 3. -/
theorem sameVarint_iff {data : Bytes} : SameVarint data ↔
    ∀ first more, data = first :: more →
      first.toNat / 64 < 2 ∨ data.length ≤ first.toNat / 64 := by
  rw [sameVarint_iff_toOption, ← (Option.map_injective natValue_injective).eq_iff,
    readVarintBytes_toOption, readStreamVarint_toOption, varint_eq_varint_iff]
  apply forall_congr'
  intro first
  apply forall_congr'
  intro more
  apply forall_congr'
  rintro rfl
  have hfirst := first.toNat_lt
  rw [List.length_cons, id_eq]
  -- one case for each class
  obtain hk | hk | hk | hk : first.toNat / 64 = 0 ∨ first.toNat / 64 = 1 ∨
      first.toNat / 64 = 2 ∨ first.toNat / 64 = 3 := by omega
  · simp [hk, quicExtra]
  · simp [hk, quicExtra]
  · simp [hk, quicExtra]
    omega
  · simp [hk, quicExtra]
    omega

/-- What is written for a value is read back by `read_varint_bytes` if it is of class 0
or 1. -/
theorem readVarintBytes_write_iff {val : UInt64} (h : val.toNat < 2 ^ 62) (rest : Bytes) :
    readVarintBytes (writeVarintBytes val ++ rest) = .ok (val, rest) ↔ val < 16384 := by
  obtain ⟨first, more, hwrite, hvarint, hclass⟩ := writeVarintBytes_spec h
  have hstream := readStreamVarint_write h rest
  have hsame : readVarintBytes (writeVarintBytes val ++ rest) = .ok (val, rest) ↔
      SameVarint (writeVarintBytes val ++ rest) := by
    rw [sameVarint_iff_toOption, hstream]
    exact Except.toOption_eq_some.symm
  rw [hsame, sameVarint_iff, UInt64.lt_iff_toNat_lt]
  have hlen : first.toNat / 64 < (writeVarintBytes val ++ rest).length := by
    obtain ⟨first', more', heq, hlen, -⟩ := hvarint
    obtain ⟨rfl, rfl⟩ := List.cons.inj heq
    rw [hwrite, List.length_append, List.length_cons, hlen, quicExtra]
    have := Nat.lt_two_pow_self (n := first.toNat / 64)
    omega
  constructor
  · intro hall
    rcases hall first (more ++ rest) (by rw [hwrite, List.cons_append]) with hlt | hle
    · exact hclass.mp hlt
    · omega
  · intro hlt first' more' heq
    rw [hwrite, List.cons_append] at heq
    obtain ⟨rfl, -⟩ := List.cons.inj heq
    exact .inl (hclass.mpr hlt)

/-- **Varint codecs.**  A value below 2^62 that `write_varint_bytes` wrote comes back from
`read_varint_bytes`, with the trailing bytes left, exactly if it is below 16384; and
`read_varint_bytes` agrees with `read_varint` on a byte string exactly if it is empty, its
first byte has the top bit clear, or it has no more bytes than the two top bits say. -/
theorem varint_codecs_iff {value : UInt64} (hvalue : value.toNat < 2 ^ 62)
    (trailing data : Bytes) :
    (readVarintBytes (writeVarintBytes value ++ trailing) = .ok (value, trailing) ↔
      value < 16384) ∧
    (SameVarint data ↔ ∀ first more, data = first :: more →
      first < 128 ∨ data.length ≤ (first >>> 6).toNat) := by
  refine ⟨readVarintBytes_write_iff hvalue trailing, ?_⟩
  rw [sameVarint_iff]
  apply forall_congr'
  intro first
  have hlt : first < 128 ↔ first.toNat / 64 < 2 := by
    rw [UInt8.lt_iff_toNat_lt, Nat.div_lt_iff_lt_mul (by decide)]
    rfl
  rw [hlt, toNat_shiftRight_six]

/-- 16384 is not read back.  Of three bytes, where the first one says four, one decoder makes a
value and the other one does not. -/
theorem varint_codecs_iff_sixteen_bits :
    (readVarintBytes (writeVarintBytes 16384 ++ []) = .ok (16384, []) ↔
      (16384 : UInt64) < 16384) ∧
    (SameVarint [0x80, 0x00, 0x40] ↔ ∀ first more, ([0x80, 0x00, 0x40] : Bytes) = first :: more →
      first < 128 ∨ ([0x80, 0x00, 0x40] : Bytes).length ≤ (first >>> 6).toNat) :=
  varint_codecs_iff (by decide) [] [0x80, 0x00, 0x40]

/-- 16384 is written in four bytes, of which `read_varint_bytes` takes three and
`read_varint` four. -/
theorem not_varint_codecs :
    ¬ ((∀ (value : UInt64) (trailing : Bytes), value.toNat < 2 ^ 62 →
        readVarintBytes (writeVarintBytes value ++ trailing) = .ok (value, trailing)) ∧
      ∀ data, SameVarint data) := by
  intro h
  have hread := h.1 16384 [] (by decide)
  exact absurd hread (by decide)

end Ruproxy.Hysteria2
