/-
  Foundation/Net.lean --- socket addresses and their text.

  `Ipv4Addr`, `Ipv6Addr` and `SocketAddr` of the standard library, with the
  `Display` form of the addresses.  The IPv6 text is the one the library writes:
  the mapped form for `::ffff:a.b.c.d`, otherwise lowercase hexadecimal segments
  with the first longest run of at least two zero segments written `::`.  Flow
  label and scope of an IPv6 socket address are left out: no modelled function
  reads them.
-/
import Ruproxy.Foundation.Text

set_option autoImplicit false

namespace Ruproxy.Foundation

/-- `std::net::Ipv4Addr`. -/
structure Ipv4Addr where
  octets : Vector UInt8 4
  deriving DecidableEq, Repr

/-- `Ipv4Addr::new`. -/
def Ipv4Addr.new (a b c d : UInt8) : Ipv4Addr := ⟨#v[a, b, c, d]⟩

/-- `std::net::Ipv6Addr`. -/
structure Ipv6Addr where
  segments : Vector UInt16 8
  deriving DecidableEq, Repr

/-- `Ipv6Addr::new`. -/
def Ipv6Addr.new (a b c d e f g h : UInt16) : Ipv6Addr := ⟨#v[a, b, c, d, e, f, g, h]⟩

/-- `Ipv6Addr::from` on 16 bytes. -/
def Ipv6Addr.ofOctets (octets : Vector UInt8 16) : Ipv6Addr :=
  ⟨Vector.ofFn fun i => u16OfBe octets[2 * i.val] octets[2 * i.val + 1]⟩

/-- `std::net::IpAddr`. -/
inductive IpAddr where
  | v4 (ip : Ipv4Addr)
  | v6 (ip : Ipv6Addr)
  deriving DecidableEq, Repr

/-- `std::net::SocketAddr`. -/
structure SocketAddr where
  ip : IpAddr
  port : UInt16
  deriving DecidableEq, Repr

/-! ## Addresses and their parts -/

/-- `Ipv6Addr::octets` gives the bytes back that an address is made from. -/
theorem Ipv6Addr.octets_ofOctets (octets : Vector UInt8 16) :
    (Ipv6Addr.ofOctets octets).segments.toList.flatMap u16ToBe = octets.toList := by
  rw [toList_eq_ofFn octets, Ipv6Addr.ofOctets, Vector.toList_ofFn]
  simp [List.ofFn_succ, u16ToBe_ofBe]

theorem Ipv6Addr.exists_ofOctets (ip : Ipv6Addr) : ∃ octets, Ipv6Addr.ofOctets octets = ip := by
  refine ⟨Vector.ofFn fun i => if i.val % 2 = 0
    then UInt8.ofNat (ip.segments[i.val / 2].toNat / 256)
    else UInt8.ofNat ip.segments[i.val / 2].toNat, ?_⟩
  refine congrArg Ipv6Addr.mk (Vector.ext fun i hi => ?_)
  have hodd : (2 * i + 1) / 2 = i := by omega
  simp only [Vector.getElem_ofFn, Nat.mul_mod_right, if_true, hodd,
    Nat.mul_div_cancel_left i Nat.zero_lt_two, Nat.mul_add_mod_self_left]
  rw [if_neg (by decide)]
  exact u16OfBe_toBe _

theorem Ipv4Addr.exists_new (ip : Ipv4Addr) : ∃ a b c d, Ipv4Addr.new a b c d = ip := by
  refine ⟨ip.octets[0], ip.octets[1], ip.octets[2], ip.octets[3], ?_⟩
  refine congrArg Ipv4Addr.mk (Vector.ext fun i hi => ?_)
  interval_cases i <;> rfl

theorem Ipv6Addr.exists_new (ip : Ipv6Addr) :
    ∃ a b c d e f g h, Ipv6Addr.new a b c d e f g h = ip := by
  refine ⟨ip.segments[0], ip.segments[1], ip.segments[2], ip.segments[3], ip.segments[4],
    ip.segments[5], ip.segments[6], ip.segments[7], ?_⟩
  refine congrArg Ipv6Addr.mk (Vector.ext fun i hi => ?_)
  interval_cases i <;> rfl

/-! ## Display -/

/-- `Display for Ipv4Addr`. -/
def Ipv4Addr.fmt (ip : Ipv4Addr) : String :=
  dec ip.octets[0].toNat ++ "." ++ dec ip.octets[1].toNat ++ "." ++
    dec ip.octets[2].toNat ++ "." ++ dec ip.octets[3].toNat

/-- `Ipv6Addr::to_ipv4_mapped`. -/
def Ipv6Addr.toIpv4Mapped (ip : Ipv6Addr) : Option Ipv4Addr :=
  match ip.segments.toList with
  | [0, 0, 0, 0, 0, 65535, ab, cd] =>
      some ⟨#v[UInt8.ofNat (ab.toNat / 256), UInt8.ofNat ab.toNat,
        UInt8.ofNat (cd.toNat / 256), UInt8.ofNat cd.toNat]⟩
  | _ => none

/-- A run of zero segments. -/
structure Span where
  start : Nat
  len : Nat

/-- The loop of `Display for Ipv6Addr` that looks for the first longest run of
zero segments. -/
def zeroes : List UInt16 → Nat → Span → Span → Span
  | [], _, longest, _ => longest
  | segment :: rest, i, longest, current =>
      if segment = 0 then
        let current := { start := if current.len = 0 then i else current.start,
                         len := current.len + 1 : Span }
        zeroes rest (i + 1) (if current.len > longest.len then current else longest) current
      else zeroes rest (i + 1) longest ⟨0, 0⟩

/-- A colon-separated part of an IPv6 address. -/
def fmtSubslice : List UInt16 → List Char
  | [] => []
  | first :: tail =>
      (hex first.toNat).toList ++ tail.flatMap fun segment => ':' :: (hex segment.toNat).toList

/-- `Display for Ipv6Addr`. -/
def Ipv6Addr.fmt (ip : Ipv6Addr) : String :=
  match ip.toIpv4Mapped with
  | some ipv4 => "::ffff:" ++ ipv4.fmt
  | none =>
      let segments := ip.segments.toList
      let z := zeroes segments 0 ⟨0, 0⟩ ⟨0, 0⟩
      if z.len > 1 then
        String.ofList (fmtSubslice (segments.take z.start) ++ "::".toList ++
          fmtSubslice (segments.drop (z.start + z.len)))
      else String.ofList (fmtSubslice segments)

/-- `Display for IpAddr`. -/
def IpAddr.fmt : IpAddr → String
  | .v4 ip => ip.fmt
  | .v6 ip => ip.fmt

/-! ## The characters and the length of an address text -/

/-- The characters an address text is made of. -/
def isAddrChar (c : Char) : Bool :=
  c.isDigit || c ∈ "abcdef:.".toList

theorem isAddrChar_utf8Size {c : Char} (h : isAddrChar c = true) : c.utf8Size = 1 := by
  rw [isAddrChar, Bool.or_eq_true] at h
  rcases h with h | h
  · simp only [Char.isDigit, Bool.and_eq_true, decide_eq_true_eq] at h
    exact Char.utf8Size_eq_one_iff.mpr (by
      have := UInt32.le_iff_toNat_le.mp h.2
      exact UInt32.le_iff_toNat_le.mpr (Nat.le_trans this (by decide)))
  · have hall : ∀ d ∈ "abcdef:.".toList, d.utf8Size = 1 :=
      List.all_iff_forall_prop.mp (by decide)
    exact hall c (by simpa using h)

theorem isAddrChar_of_isDigit {c : Char} (h : c.isDigit = true) : isAddrChar c = true := by
  simp [isAddrChar, h]

theorem isAddrChar_of_mem_dec {n : Nat} {c : Char} (h : c ∈ (dec n).toList) :
    isAddrChar c = true :=
  isAddrChar_of_isDigit (isDigit_of_mem_dec h)

theorem isAddrChar_of_mem_hex (n : Nat) : ∀ c ∈ (hex n).toList, isAddrChar c = true := by
  have hdigit : ∀ k < 16, isAddrChar k.digitChar = true := by decide
  rw [hex, String.toList_ofList]
  induction n using Nat.strongRecOn with
  | ind n ih =>
    intro c hc
    by_cases hn : n < 16
    · rw [Nat.toDigits_of_lt_base hn, List.mem_singleton] at hc
      rw [hc]
      exact hdigit n hn
    · rw [Nat.toDigits_of_base_le (by decide) (by omega), List.mem_append,
        List.mem_singleton] at hc
      rcases hc with hc | hc
      · exact ih (n / 16) (by omega) c hc
      · rw [hc]
        exact hdigit (n % 16) (by omega)

theorem isAddrChar_of_mem_fmtSubslice {segments : List UInt16} {c : Char}
    (h : c ∈ fmtSubslice segments) : isAddrChar c = true := by
  cases segments with
  | nil => simp [fmtSubslice] at h
  | cons first tail =>
    simp only [fmtSubslice, List.mem_append, List.mem_flatMap, List.mem_cons] at h
    rcases h with h | ⟨segment, -, rfl | h⟩
    · exact isAddrChar_of_mem_hex _ c h
    · decide
    · exact isAddrChar_of_mem_hex _ c h

theorem Ipv4Addr.isAddrChar_of_mem_fmt {ip : Ipv4Addr} {c : Char}
    (h : c ∈ ip.fmt.toList) : isAddrChar c = true := by
  have hdot : ∀ d ∈ ".".toList, isAddrChar d = true := List.all_eq_true.mp (by decide)
  simp only [Ipv4Addr.fmt, String.toList_append, List.mem_append] at h
  rcases h with (((((h | h) | h) | h) | h) | h) | h
  · exact isAddrChar_of_mem_dec h
  · exact hdot c h
  · exact isAddrChar_of_mem_dec h
  · exact hdot c h
  · exact isAddrChar_of_mem_dec h
  · exact hdot c h
  · exact isAddrChar_of_mem_dec h

/-- An address text has no bracket and only one-byte characters. -/
theorem IpAddr.isAddrChar_of_mem_fmt {ip : IpAddr} {c : Char}
    (h : c ∈ ip.fmt.toList) : isAddrChar c = true := by
  cases ip with
  | v4 ip => exact ip.isAddrChar_of_mem_fmt h
  | v6 ip =>
    have hlit : ∀ d ∈ "::ffff:".toList, isAddrChar d = true :=
      List.all_eq_true.mp (by decide)
    have hgap : ∀ d ∈ "::".toList, isAddrChar d = true := List.all_eq_true.mp (by decide)
    simp only [IpAddr.fmt, Ipv6Addr.fmt] at h
    split at h
    · rw [String.toList_append, List.mem_append] at h
      rcases h with h | h
      · exact hlit c h
      · exact Ipv4Addr.isAddrChar_of_mem_fmt h
    · split at h
      · rw [String.toList_ofList, List.mem_append, List.mem_append] at h
        rcases h with (h | h) | h
        · exact isAddrChar_of_mem_fmtSubslice h
        · exact hgap c h
        · exact isAddrChar_of_mem_fmtSubslice h
      · rw [String.toList_ofList] at h
        exact isAddrChar_of_mem_fmtSubslice h

theorem Ipv4Addr.fmt_length_le (ip : Ipv4Addr) : ip.fmt.toList.length ≤ 15 := by
  have hoctet : ∀ o : UInt8, (dec o.toNat).toList.length ≤ 3 := fun o =>
    dec_length_le (by decide) (Nat.lt_trans o.toNat_lt (by decide))
  have h0 := hoctet ip.octets[0]
  have h1 := hoctet ip.octets[1]
  have h2 := hoctet ip.octets[2]
  have h3 := hoctet ip.octets[3]
  have hdot : ".".toList.length = 1 := by decide
  simp only [Ipv4Addr.fmt, String.toList_append, List.length_append, hdot]
  omega

theorem fmtSubslice_length_le (segments : List UInt16) :
    (fmtSubslice segments).length ≤ 5 * segments.length - 1 := by
  have hseg : ∀ s : UInt16, (hex s.toNat).toList.length ≤ 4 := fun s =>
    hex_length_le (by decide) (Nat.lt_of_lt_of_le s.toNat_lt (by decide))
  have htail : ∀ tail : List UInt16,
      (tail.flatMap fun s => ':' :: (hex s.toNat).toList).length ≤ 5 * tail.length := by
    intro tail
    induction tail with
    | nil => simp
    | cons s tail ih =>
      have := hseg s
      simp only [List.flatMap_cons, List.length_append, List.length_cons]
      omega
  cases segments with
  | nil => simp [fmtSubslice]
  | cons first tail =>
    have h1 := hseg first
    have h2 := htail tail
    simp only [fmtSubslice, List.length_append, List.length_cons]
    omega

/-- An address text has at most 41 characters. -/
theorem IpAddr.fmt_length_le (ip : IpAddr) : ip.fmt.toList.length ≤ 41 := by
  cases ip with
  | v4 ip => exact Nat.le_trans ip.fmt_length_le (by decide)
  | v6 ip =>
    have hlen : ip.segments.toList.length = 8 := by simp
    have hlit : "::ffff:".toList.length = 7 := by decide
    have hgap : "::".toList.length = 2 := by decide
    simp only [IpAddr.fmt, Ipv6Addr.fmt]
    split
    · rename_i ipv4 _
      have := ipv4.fmt_length_le
      rw [String.toList_append, List.length_append, hlit]
      omega
    · split
      · rename_i z
        have h1 := fmtSubslice_length_le (ip.segments.toList.take
          (zeroes ip.segments.toList 0 ⟨0, 0⟩ ⟨0, 0⟩).start)
        have h2 := fmtSubslice_length_le (ip.segments.toList.drop
          ((zeroes ip.segments.toList 0 ⟨0, 0⟩ ⟨0, 0⟩).start +
            (zeroes ip.segments.toList 0 ⟨0, 0⟩ ⟨0, 0⟩).len))
        rw [List.length_take, hlen] at h1
        rw [List.length_drop, hlen] at h2
        rw [String.toList_ofList, List.length_append, List.length_append, hgap]
        omega
      · have := fmtSubslice_length_le ip.segments.toList
        rw [String.toList_ofList]
        omega

end Ruproxy.Foundation
