/-
  Address/Grammar.lean --- the SOCKS5 address format, as what is written.

  `target` of `Decoders` reads the format; here it is written.  A byte string has a
  target exactly if it begins with an address and a port whose text the target is.
-/
import Ruproxy.Address.Decoders

set_option autoImplicit false

namespace Ruproxy.Address

open Ruproxy.Foundation

/-! ## The reads of a connection -/

theorem readU8_eq_ok {b : UInt8} {s rest : Bytes} : readU8 s = .ok (b, rest) ↔ s = b :: rest := by
  cases s with
  | nil => simp [readU8]
  | cons c s => simp [readU8]

theorem readU16_eq_ok {v : UInt16} {s rest : Bytes} :
    readU16 s = .ok (v, rest) ↔ s = u16ToBe v ++ rest := by
  constructor
  · intro h
    unfold readU16 at h
    split at h
    · cases h
      rw [u16ToBe_ofBe]
      rfl
    · cases h
  · rintro rfl
    obtain ⟨a, b, hbytes, rfl⟩ := u16ToBe_append v rest
    rw [hbytes]
    rfl

theorem readN_eq_ok {n : Nat} {s b rest : Bytes} :
    readN n s = .ok (b, rest) ↔ s = b ++ rest ∧ b.length = n := by
  rw [← readExact_eq_some, readN]
  cases readExact n s with
  | none => simp
  | some r => simp

/-- A read of as many bytes as a byte says. -/
theorem readN_toNat_eq_ok {l : UInt8} {s b rest : Bytes} : readN l.toNat s = .ok (b, rest) ↔
    l = UInt8.ofNat b.length ∧ b.length ≤ 255 ∧ s = b ++ rest := by
  have hl := l.toNat_lt
  rw [readN_eq_ok]
  constructor
  · rintro ⟨rfl, hlen⟩
    exact ⟨by rw [hlen, UInt8.ofNat_toNat], by omega, rfl⟩
  · rintro ⟨rfl, hshort, rfl⟩
    refine ⟨rfl, ?_⟩
    rw [UInt8.toNat_ofNat']
    omega

theorem utf8_eq_ok {b : Bytes} {d : String} : utf8 b = .ok d ↔ b = asBytes d := by
  rw [← fromUtf8_eq_some_iff, utf8]
  cases fromUtf8 b with
  | none => simp
  | some r => simp

/-! ## Addresses -/

/-- An address of the format.  The length of a domain has to fit into its byte. -/
inductive SocksAddr where
  | ipv4 (octets : Vector UInt8 4)
  | domain (d : String) (short : (asBytes d).length ≤ 255)
  | ipv6 (octets : Vector UInt8 16)

/-- The bytes of an address, with its type. -/
def SocksAddr.bytes : SocksAddr → Bytes
  | .ipv4 octets => 1 :: octets.toList
  | .domain d _ => 3 :: UInt8.ofNat (asBytes d).length :: asBytes d
  | .ipv6 octets => 4 :: octets.toList

/-- The host that an address names; an IPv6 one stands in brackets. -/
def SocksAddr.host : SocksAddr → String
  | .ipv4 octets => (Ipv4Addr.mk octets).fmt
  | .domain d _ => d
  | .ipv6 octets => "[" ++ (Ipv6Addr.ofOctets octets).fmt ++ "]"

theorem filled_toList {n : Nat} (v : Vector UInt8 n) : filled n v.toList = v := by
  apply Vector.ext
  intro i hi
  rw [filled, Vector.getElem_ofFn, List.getD_eq_getElem _ _ (by simpa using hi),
    Vector.getElem_toList]

/-- `read_exact` of an array gives the array that stands there. -/
theorem readExact_eq_some_iff_array {n : Nat} {s rest : Bytes} {α : Type} {f : Bytes → α}
    {a : α} : (readExact n s).map (fun r => (f r.1, r.2)) = some (a, rest) ↔
      ∃ v : Vector UInt8 n, v.toList ++ rest = s ∧ f v.toList = a := by
  rw [Option.map_eq_some_iff]
  constructor
  · rintro ⟨⟨b, r⟩, hread, heq⟩
    cases heq
    obtain ⟨rfl, hlen⟩ := readExact_eq_some.mp hread
    obtain ⟨v, rfl⟩ := exists_toList_eq hlen
    exact ⟨v, rfl, rfl⟩
  · rintro ⟨v, rfl, rfl⟩
    exact ⟨(v.toList, rest), readExact_append v.length_toList rest, rfl⟩

theorem host_domain_eq_some_iff {s rest : Bytes} {h : String} :
    host 3 s = some (h, rest) ↔ ∃ short : (asBytes h).length ≤ 255,
      (SocksAddr.domain h short).bytes ++ rest = 3 :: s := by
  have hread : host 3 s = some (h, rest) ↔ ∃ l t, s = l :: t ∧
      ∃ r, readExact l.toNat t = some r ∧ fromUtf8 r.1 = some h ∧ r.2 = rest := by
    cases s with
    | nil => simp [host]
    | cons l t =>
      simp only [host, show (3 : UInt8) ≠ 1 by decide, if_false, if_true,
        Option.bind_eq_some_iff, Option.map_eq_some_iff, Prod.mk.injEq, List.cons.injEq]
      constructor
      · rintro ⟨r, hr, d, hd, rfl, rfl⟩
        exact ⟨l, t, ⟨rfl, rfl⟩, r, hr, hd, rfl⟩
      · rintro ⟨l', t', ⟨rfl, rfl⟩, r, hr, hd, rfl⟩
        exact ⟨r, hr, h, hd, rfl, rfl⟩
  rw [hread]
  constructor
  · rintro ⟨l, t, rfl, ⟨b, r⟩, hr, hd, rfl⟩
    obtain ⟨rfl, hlen⟩ := readExact_eq_some.mp hr
    obtain rfl := fromUtf8_eq_some_iff.mp hd
    have hl := l.toNat_lt
    refine ⟨by omega, ?_⟩
    simp [SocksAddr.bytes, hlen]
  · rintro ⟨short, hs⟩
    simp only [SocksAddr.bytes, List.cons_append, List.cons.injEq, true_and] at hs
    refine ⟨_, _, hs.symm, (asBytes h, rest), ?_, fromUtf8_asBytes h, rfl⟩
    refine readExact_append ?_ rest
    rw [UInt8.toNat_ofNat']
    omega

/-- **Hosts.**  What is read behind a type byte is the host of an address. -/
theorem host_eq_some_iff {atyp : UInt8} {s rest : Bytes} {h : String} :
    host atyp s = some (h, rest) ↔
      ∃ a : SocksAddr, a.bytes ++ rest = atyp :: s ∧ a.host = h := by
  constructor
  · intro hread
    rcases eq_or_ne atyp 1 with rfl | h1
    · obtain ⟨v, rfl, rfl⟩ := readExact_eq_some_iff_array.mp hread
      exact ⟨.ipv4 v, rfl, by rw [ipv4Text, filled_toList]; rfl⟩
    rcases eq_or_ne atyp 3 with rfl | h3
    · obtain ⟨short, hs⟩ := host_domain_eq_some_iff.mp hread
      exact ⟨.domain h short, hs, rfl⟩
    rcases eq_or_ne atyp 4 with rfl | h4
    · obtain ⟨v, rfl, rfl⟩ := readExact_eq_some_iff_array.mp hread
      exact ⟨.ipv6 v, rfl, by rw [ipv6Text, filled_toList]; rfl⟩
    · unfold host at hread
      rw [if_neg h1, if_neg h3, if_neg h4] at hread
      cases hread
  · rintro ⟨a, hs, rfl⟩
    cases a with
    | ipv4 octets =>
      obtain ⟨rfl, rfl⟩ := List.cons.inj hs
      refine readExact_eq_some_iff_array.mpr ⟨octets, rfl, ?_⟩
      rw [ipv4Text, filled_toList]
      rfl
    | domain d short =>
      obtain ⟨rfl, -⟩ := List.cons.inj hs
      exact host_domain_eq_some_iff.mpr ⟨short, hs⟩
    | ipv6 octets =>
      obtain ⟨rfl, rfl⟩ := List.cons.inj hs
      refine readExact_eq_some_iff_array.mpr ⟨octets, rfl, ?_⟩
      rw [ipv6Text, filled_toList]
      rfl

/-- **Targets.**  A byte string has a target exactly if it begins with an address and a
port, and the target is their text. -/
theorem target_eq_some_iff {b rest : Bytes} {t : String} :
    target b = some (t, rest) ↔ ∃ (a : SocksAddr) (port : UInt16),
      a.bytes ++ (u16ToBe port ++ rest) = b ∧ hostPort a.host port = t := by
  constructor
  · intro hread
    unfold target at hread
    split at hread
    · cases hread
    rename_i atyp s
    split at hread
    · rename_i h p q r hhost
      cases hread
      obtain ⟨a, hb, rfl⟩ := host_eq_some_iff.mp hhost
      exact ⟨a, u16OfBe p q, by rw [u16ToBe_ofBe]; exact hb, rfl⟩
    · cases hread
  · rintro ⟨a, port, rfl, rfl⟩
    obtain ⟨p, q, hport, hpq⟩ := u16ToBe_append port rest
    rw [hport]
    cases hb : a.bytes ++ p :: q :: rest with
    | nil => simp at hb
    | cons atyp s =>
      have hhost := host_eq_some_iff.mpr ⟨a, hb, rfl⟩
      simp only [target, hhost, hpq]

end Ruproxy.Address
