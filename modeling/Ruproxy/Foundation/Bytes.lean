/-
  Foundation/Bytes.lean --- byte strings, big-endian integers, exact reads.

  The wire formats of the repository are all built from `to_be_bytes`,
  `from_be_bytes` and `read_exact`.  The integers are the fixed-width ones, and
  the codecs are written in the arithmetic of the documentation of those
  functions, so every round trip below is one `omega`.
-/
import Mathlib

set_option autoImplicit false

namespace Ruproxy.Foundation

/-- A byte string (`Vec<u8>`, `&[u8]`, `Bytes`). -/
abbrev Bytes : Type := List UInt8

/-! ## Big-endian integers -/

/-- `u16::to_be_bytes`. -/
def u16ToBe (v : UInt16) : Bytes :=
  [UInt8.ofNat (v.toNat / 256), UInt8.ofNat v.toNat]

/-- `u16::from_be_bytes`. -/
def u16OfBe (a b : UInt8) : UInt16 := UInt16.ofNat (a.toNat * 256 + b.toNat)

/-- `u32::to_be_bytes`. -/
def u32ToBe (v : UInt32) : Bytes :=
  [UInt8.ofNat (v.toNat / 16777216), UInt8.ofNat (v.toNat / 65536),
    UInt8.ofNat (v.toNat / 256), UInt8.ofNat v.toNat]

/-- `u32::from_be_bytes`. -/
def u32OfBe (a b c d : UInt8) : UInt32 :=
  UInt32.ofNat (a.toNat * 16777216 + b.toNat * 65536 + c.toNat * 256 + d.toNat)

/-- `u64::to_be_bytes`. -/
def u64ToBe (v : UInt64) : Bytes :=
  (List.range 8).map fun i => UInt8.ofNat (v.toNat / 256 ^ (7 - i))

/-- `u64::from_be_bytes`. -/
def u64OfBe (b : Vector UInt8 8) : UInt64 :=
  UInt64.ofNat (b.toList.foldl (fun n x => n * 256 + x.toNat) 0)

@[simp] theorem u16ToBe_length (v : UInt16) : (u16ToBe v).length = 2 := rfl

@[simp] theorem u32ToBe_length (v : UInt32) : (u32ToBe v).length = 4 := rfl

@[simp] theorem u64ToBe_length (v : UInt64) : (u64ToBe v).length = 8 := by
  rw [u64ToBe, List.length_map, List.length_range]

/-- Decoding the two bytes of `u16::to_be_bytes` gives the integer back. -/
@[simp] theorem u16OfBe_toBe (v : UInt16) :
    u16OfBe (UInt8.ofNat (v.toNat / 256)) (UInt8.ofNat v.toNat) = v := by
  apply UInt16.toNat_inj.mp
  have hv := v.toNat_lt
  simp only [u16OfBe, UInt8.toNat_ofNat', UInt16.toNat_ofNat']
  omega

/-- The bytes of `u16::to_be_bytes` in front of others, as a decoder meets them. -/
theorem u16ToBe_append (v : UInt16) (rest : Bytes) :
    ∃ a b, u16ToBe v ++ rest = a :: b :: rest ∧ u16OfBe a b = v :=
  ⟨_, _, rfl, u16OfBe_toBe v⟩

/-- Decoding the four bytes of `u32::to_be_bytes` gives the integer back. -/
@[simp] theorem u32OfBe_toBe (v : UInt32) :
    u32OfBe (UInt8.ofNat (v.toNat / 16777216)) (UInt8.ofNat (v.toNat / 65536))
      (UInt8.ofNat (v.toNat / 256)) (UInt8.ofNat v.toNat) = v := by
  apply UInt32.toNat_inj.mp
  have hv := v.toNat_lt
  simp only [u32OfBe, UInt8.toNat_ofNat', UInt32.toNat_ofNat']
  omega

/-- Two bytes decode to an integer exactly if they are its bytes. -/
theorem u16OfBe_eq_iff {a b : UInt8} {v : UInt16} :
    u16OfBe a b = v ↔ a = UInt8.ofNat (v.toNat / 256) ∧ b = UInt8.ofNat v.toNat := by
  have ha := a.toNat_lt
  have hb := b.toNat_lt
  have hv := v.toNat_lt
  simp only [u16OfBe, ← UInt16.toNat_inj, ← UInt8.toNat_inj, UInt16.toNat_ofNat',
    UInt8.toNat_ofNat']
  omega

/-- Encoding what two bytes decode to gives the bytes back. -/
@[simp] theorem u16ToBe_ofBe (a b : UInt8) : u16ToBe (u16OfBe a b) = [a, b] := by
  obtain ⟨ha, hb⟩ := u16OfBe_eq_iff.mp (rfl : u16OfBe a b = u16OfBe a b)
  rw [u16ToBe, ← ha, ← hb]

theorem toNat_u32OfBe (a b c d : UInt8) : (u32OfBe a b c d).toNat =
    a.toNat * 16777216 + b.toNat * 65536 + c.toNat * 256 + d.toNat := by
  have ha := a.toNat_lt
  have hb := b.toNat_lt
  have hc := c.toNat_lt
  have hd := d.toNat_lt
  rw [u32OfBe, UInt32.toNat_ofNat']
  omega

/-- Encoding what four bytes decode to gives the bytes back. -/
theorem u32ToBe_ofBe (a b c d : UInt8) : u32ToBe (u32OfBe a b c d) = [a, b, c, d] := by
  have ha := a.toNat_lt
  have hb := b.toNat_lt
  have hc := c.toNat_lt
  have hd := d.toNat_lt
  simp only [u32ToBe, toNat_u32OfBe, List.cons.injEq, ← UInt8.toNat_inj, UInt8.toNat_ofNat',
    and_true]
  omega

theorem length_flatMap_u16ToBe (l : List UInt16) : (l.flatMap u16ToBe).length = 2 * l.length := by
  induction l with
  | nil => rfl
  | cons v l ih =>
    rw [List.flatMap_cons, List.length_append, u16ToBe_length, ih, List.length_cons]
    omega

theorem exists_u16OfBe (v : UInt16) : ∃ a b, u16OfBe a b = v := ⟨_, _, u16OfBe_toBe v⟩

theorem exists_u32OfBe (v : UInt32) : ∃ a b c d, u32OfBe a b c d = v :=
  ⟨_, _, _, _, u32OfBe_toBe v⟩

theorem toList_eq_ofFn {n : Nat} (v : Vector UInt8 n) :
    v.toList = List.ofFn fun i : Fin n => v[i.val] := by
  rw [← Vector.toList_ofFn, Vector.ofFn_getElem]

theorem exists_toList_eq {n : Nat} {b : Bytes} (hb : b.length = n) :
    ∃ v : Vector UInt8 n, v.toList = b := ⟨⟨b.toArray, hb⟩, rfl⟩

/-- The value of bytes, the most significant one first. -/
def beValue (b : Bytes) : Nat := b.foldl (fun n x => n * 256 + x.toNat) 0

/-- The last `k` bytes of a number, the most significant one first. -/
def beBytes (k n : Nat) : Bytes :=
  (List.range k).map fun i => UInt8.ofNat (n / 256 ^ (k - 1 - i))

theorem beValue_concat (b : Bytes) (x : UInt8) : beValue (b ++ [x]) = beValue b * 256 + x.toNat :=
  List.foldl_concat ..

theorem beBytes_succ (k n : Nat) : beBytes (k + 1) n = beBytes k (n / 256) ++ [UInt8.ofNat n] := by
  rw [beBytes, List.range_succ, List.map_append, List.map_singleton]
  congr 1
  · refine List.map_congr_left fun i hi => ?_
    have hlt := List.mem_range.mp hi
    have hexp : k + 1 - 1 - i = (k - 1 - i) + 1 := by omega
    rw [hexp, Nat.pow_succ', Nat.div_div_eq_div_mul]
  · rw [Nat.add_sub_cancel, Nat.sub_self, Nat.pow_zero, Nat.div_one]

theorem beValue_lt (b : Bytes) : beValue b < 256 ^ b.length := by
  induction b using List.reverseRecOn with
  | nil => exact Nat.one_pos
  | append_singleton b x ih =>
    have hx := x.toNat_lt
    rw [beValue_concat, List.length_append, List.length_singleton, Nat.pow_succ]
    omega

theorem beValue_beBytes {k n : Nat} (h : n < 256 ^ k) : beValue (beBytes k n) = n := by
  induction k generalizing n with
  | zero =>
    rw [Nat.pow_zero, Nat.lt_one_iff] at h
    rw [h]
    rfl
  | succ k ih =>
    rw [Nat.pow_succ] at h
    rw [beBytes_succ, beValue_concat, ih (Nat.div_lt_of_lt_mul (by rwa [Nat.mul_comm])),
      UInt8.toNat_ofNat']
    exact Nat.div_add_mod' n 256

theorem beBytes_beValue (b : Bytes) : beBytes b.length (beValue b) = b := by
  induction b using List.reverseRecOn with
  | nil => rfl
  | append_singleton b x ih =>
    have hx := x.toNat_lt
    have hdiv : (beValue b * 256 + x.toNat) / 256 = beValue b := by omega
    have hbyte : UInt8.ofNat (beValue b * 256 + x.toNat) = x := by
      rw [← UInt8.toNat_inj, UInt8.toNat_ofNat']
      omega
    rw [beValue_concat, List.length_append, List.length_singleton, beBytes_succ, hdiv, ih, hbyte]

/-- Eight bytes decode to an integer exactly if they are its bytes. -/
theorem u64OfBe_eq_iff {b : Vector UInt8 8} {v : UInt64} :
    u64OfBe b = v ↔ b.toList = u64ToBe v := by
  have hlen : b.toList.length = 8 := b.length_toList
  have hlt := beValue_lt b.toList
  rw [hlen] at hlt
  have hvalue : (u64OfBe b).toNat = beValue b.toList :=
    (UInt64.toNat_ofNat' ..).trans (Nat.mod_eq_of_lt hlt)
  rw [← UInt64.toNat_inj, hvalue]
  constructor
  · intro h
    have hbytes := beBytes_beValue b.toList
    rw [hlen, h] at hbytes
    exact hbytes.symm
  · intro h
    rw [h]
    exact @beValue_beBytes 8 v.toNat v.toNat_lt

/-! ## Slices of a fixed size -/

/-- `slice::chunks`: the consecutive parts of length `n`, the last one shorter
when the length is not a multiple of `n`. -/
def chunks (n : Nat) (l : Bytes) : List Bytes :=
  if _h : l = [] ∨ n = 0 then [] else l.take n :: chunks n (l.drop n)
termination_by l.length
decreasing_by
  rw [not_or] at _h
  have := List.length_pos_iff.mpr _h.1
  rw [List.length_drop]
  omega

/-- The chunks of a byte string join to it. -/
theorem flatten_chunks {n : Nat} (hn : 0 < n) (l : Bytes) : (chunks n l).flatten = l := by
  fun_induction chunks n l with
  | case1 l h => rcases h with rfl | h <;> [rfl; omega]
  | case2 l h ih => rw [List.flatten_cons, ih, List.take_append_drop]

/-- Buffers cut into chunks one by one join to the same bytes. -/
theorem flatten_flatMap_chunks {n : Nat} (hn : 0 < n) (bufs : List Bytes) :
    (bufs.flatMap (chunks n)).flatten = bufs.flatten := by
  induction bufs with
  | nil => rfl
  | cons b bufs ih =>
    rw [List.flatMap_cons, List.flatten_append, flatten_chunks hn, ih, List.flatten_cons]

theorem length_le_of_mem_chunks {n : Nat} {l c : Bytes} (h : c ∈ chunks n l) :
    c.length ≤ n := by
  fun_induction chunks n l with
  | case1 => simp at h
  | case2 l hl ih =>
    rcases List.mem_cons.mp h with rfl | h
    · exact List.length_take_le n l
    · exact ih h

theorem ne_nil_of_mem_chunks {n : Nat} (hn : 0 < n) {l c : Bytes} (h : c ∈ chunks n l) :
    c ≠ [] := by
  fun_induction chunks n l with
  | case1 => simp at h
  | case2 l hl ih =>
    rcases List.mem_cons.mp h with rfl | h
    · rw [ne_eq, List.take_eq_nil_iff, not_or]
      exact ⟨Nat.ne_of_gt hn, fun hnil => hl (.inl hnil)⟩
    · exact ih h

theorem length_chunks_le {n : Nat} (hn : 0 < n) (l : Bytes) :
    (chunks n l).length ≤ l.length / n + 1 := by
  fun_induction chunks n l with
  | case1 => simp
  | case2 l hl ih =>
    by_cases hlt : n ≤ l.length
    · rw [List.length_drop] at ih
      rw [Nat.div_eq_sub_div hn hlt, List.length_cons]
      omega
    · have hnil : l.drop n = [] := List.drop_eq_nil_of_le (by omega)
      rw [hnil] at ih ⊢
      simp [chunks]

theorem two_le_length_chunks {n : Nat} (hn : 0 < n) {l : Bytes} (h : n < l.length) :
    2 ≤ (chunks n l).length := by
  have hne : ∀ m : Bytes, m ≠ [] → 1 ≤ (chunks n m).length := by
    intro m hm
    rw [chunks, dif_neg (by simp [hm]; omega), List.length_cons]
    omega
  have hl : l ≠ [] := by rintro rfl; simp at h
  have hdrop : l.drop n ≠ [] := by simpa using h
  rw [chunks, dif_neg (by simp [hl]; omega), List.length_cons]
  have := hne _ hdrop
  omega

/-- A part of a prefix. -/
theorem take_drop_of_prefix {x y : Bytes} (h : x <+: y) {i n : Nat} (hn : i + n ≤ x.length) :
    (y.drop i).take n = (x.drop i).take n := by
  obtain ⟨t, rfl⟩ := h
  rw [List.drop_append_of_le_length (by omega), List.take_append_of_le_length]
  rw [List.length_drop]
  omega

/-! ## Exact reads -/

/-- `read_exact` on a byte string: the first `n` bytes and what follows them,
`none` when the string ends before. -/
def readExact (n : Nat) (s : Bytes) : Option (Bytes × Bytes) :=
  if n ≤ s.length then some (s.take n, s.drop n) else none

theorem readExact_append {n : Nat} {b : Bytes} (h : b.length = n) (r : Bytes) :
    readExact n (b ++ r) = some (b, r) := by
  subst h
  simp [readExact]

/-- What `read_exact` returns is a split of the string after `n` bytes. -/
theorem readExact_eq_some {n : Nat} {s b r : Bytes} :
    readExact n s = some (b, r) ↔ s = b ++ r ∧ b.length = n := by
  constructor
  · intro h
    unfold readExact at h
    split at h
    · rename_i hle
      simp only [Option.some.injEq, Prod.mk.injEq] at h
      obtain ⟨rfl, rfl⟩ := h
      exact ⟨(List.take_append_drop n s).symm, List.length_take_of_le hle⟩
    · simp at h
  · rintro ⟨rfl, hn⟩
    exact readExact_append hn r

end Ruproxy.Foundation
