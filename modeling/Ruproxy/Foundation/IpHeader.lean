/-
  Foundation/IpHeader.lean --- the headers of IP packets and the ports behind them.

  The layouts of RFC 791 and RFC 8200, and parsers that read back exactly what is laid
  out.  An IPv4 header carries options of whole words, 40 bytes at most, so a header
  length below five words is the length of no header.
-/
import Ruproxy.Foundation.Bytes
import Ruproxy.Foundation.Net

set_option autoImplicit false

namespace Ruproxy.Foundation

/-! ## IPv4 -/

/-- An IPv4 header. -/
structure Ipv4Header where
  tos : UInt8
  totalLength : UInt16
  identification : UInt16
  /-- three flags and the fragment offset -/
  flagsAndOffset : UInt16
  ttl : UInt8
  protocol : UInt8
  checksum : UInt16
  source : Ipv4Addr
  destination : Ipv4Addr
  options : Bytes
  options_words : options.length % 4 = 0
  options_le : options.length ≤ 40

namespace Ipv4Header

/-- Where the payload belongs in the whole datagram, in units of 8 bytes. -/
def fragmentOffset (h : Ipv4Header) : Nat := h.flagsAndOffset.toNat % 8192

/-- The header on the wire. -/
def bytes (h : Ipv4Header) : Bytes :=
  [UInt8.ofNat (69 + h.options.length / 4), h.tos] ++ u16ToBe h.totalLength ++
    u16ToBe h.identification ++ u16ToBe h.flagsAndOffset ++ [h.ttl, h.protocol] ++
    u16ToBe h.checksum ++ h.source.octets.toList ++ h.destination.octets.toList ++ h.options

/-- The header at the front of a packet, and the payload. -/
def read : Bytes → Option (Ipv4Header × Bytes)
  | b :: tos :: l₀ :: l₁ :: i₀ :: i₁ :: f₀ :: f₁ :: ttl :: protocol :: c₀ :: c₁ ::
      s₀ :: s₁ :: s₂ :: s₃ :: d₀ :: d₁ :: d₂ :: d₃ :: rest =>
      if hb : b.toNat / 16 = 4 ∧ 5 ≤ b.toNat % 16 ∧ (b.toNat % 16 - 5) * 4 ≤ rest.length then
        some ({
          tos := tos
          totalLength := u16OfBe l₀ l₁
          identification := u16OfBe i₀ i₁
          flagsAndOffset := u16OfBe f₀ f₁
          ttl := ttl
          protocol := protocol
          checksum := u16OfBe c₀ c₁
          source := .new s₀ s₁ s₂ s₃
          destination := .new d₀ d₁ d₂ d₃
          options := rest.take ((b.toNat % 16 - 5) * 4)
          options_words := by
            rw [List.length_take_of_le hb.2.2]
            exact Nat.mul_mod_left _ 4
          options_le := by
            rw [List.length_take_of_le hb.2.2]
            omega }, rest.drop ((b.toNat % 16 - 5) * 4))
      else none
  | _ => none

end Ipv4Header

/-! ## IPv6 -/

/-- An IPv6 header. -/
structure Ipv6Header where
  /-- the traffic class and the flow label -/
  flow : Nat
  payloadLength : UInt16
  nextHeader : UInt8
  hopLimit : UInt8
  source : Vector UInt8 16
  destination : Vector UInt8 16
  flow_lt : flow < 268435456

namespace Ipv6Header

/-- The header on the wire. -/
def bytes (h : Ipv6Header) : Bytes :=
  u32ToBe (UInt32.ofNat (1610612736 + h.flow)) ++ u16ToBe h.payloadLength ++
    [h.nextHeader, h.hopLimit] ++ h.source.toList ++ h.destination.toList

/-- The header at the front of a packet, and the payload. -/
def read : Bytes → Option (Ipv6Header × Bytes)
  | a :: b :: c :: d :: l₀ :: l₁ :: next :: hop :: rest =>
      if hb : a.toNat / 16 = 6 ∧ 32 ≤ rest.length then
        some ({
          flow := (u32OfBe a b c d).toNat % 268435456
          payloadLength := u16OfBe l₀ l₁
          nextHeader := next
          hopLimit := hop
          source := ⟨(rest.take 16).toArray, by simp; omega⟩
          destination := ⟨((rest.drop 16).take 16).toArray, by simp; omega⟩
          flow_lt := Nat.mod_lt _ (by decide) }, rest.drop 32)
      else none
  | _ => none

end Ipv6Header

/-! ## Lengths -/

theorem Ipv4Header.length_bytes (h : Ipv4Header) : h.bytes.length = 20 + h.options.length := by
  simp only [Ipv4Header.bytes, List.length_append, List.length_cons, List.length_nil,
    u16ToBe_length, Vector.length_toList]

theorem Ipv6Header.length_bytes (h : Ipv6Header) : h.bytes.length = 40 := by
  simp only [Ipv6Header.bytes, List.length_append, List.length_cons, List.length_nil,
    u16ToBe_length, u32ToBe_length, Vector.length_toList]

/-! ## First bytes -/

theorem Ipv4Header.toNat_first (h : Ipv4Header) (payload : Bytes) :
    ((h.bytes ++ payload).getD 0 0).toNat = 69 + h.options.length / 4 := by
  have hle := h.options_le
  show (UInt8.ofNat (69 + h.options.length / 4)).toNat = _
  rw [UInt8.toNat_ofNat']
  omega

theorem Ipv4Header.version (h : Ipv4Header) (payload : Bytes) :
    ((h.bytes ++ payload).getD 0 0).toNat / 16 = 4 := by
  have hle := h.options_le
  rw [h.toNat_first]
  omega

theorem Ipv6Header.version (h : Ipv6Header) (payload : Bytes) :
    ((h.bytes ++ payload).getD 0 0).toNat / 16 = 6 := by
  have hflow := h.flow_lt
  show (UInt8.ofNat ((UInt32.ofNat (1610612736 + h.flow)).toNat / 16777216)).toNat / 16 = 6
  rw [UInt8.toNat_ofNat', UInt32.toNat_ofNat']
  omega

/-! ## Ports -/

/-- The ports at the front of a TCP or UDP header. -/
def readPorts : Bytes → Option (UInt16 × UInt16)
  | a :: b :: c :: d :: _ => some (u16OfBe a b, u16OfBe c d)
  | _ => none

/-! ## What is read is what is laid out -/

theorem readPorts_eq_some {s : Bytes} {p q : UInt16} :
    readPorts s = some (p, q) ↔ ∃ rest, s = u16ToBe p ++ u16ToBe q ++ rest := by
  constructor
  · intro h
    unfold readPorts at h
    split at h
    · rename_i a b c d rest
      obtain ⟨rfl, rfl⟩ := Prod.mk.inj (Option.some.inj h)
      exact ⟨rest, by rw [u16ToBe_ofBe, u16ToBe_ofBe]; rfl⟩
    · cases h
  · rintro ⟨rest, rfl⟩
    exact congrArg some (congrArg₂ Prod.mk (u16OfBe_toBe p) (u16OfBe_toBe q))

/-- There are ports where there are four bytes. -/
theorem readPorts_eq_none_iff {s : Bytes} : readPorts s = none ↔ s.length < 4 := by
  match s with
  | [] | [_] | [_, _] | [_, _, _] => exact iff_of_true rfl (by simp)
  | _ :: _ :: _ :: _ :: _ => exact iff_of_false nofun (by simp)

theorem Ipv4Addr.toList_new (a b c d : UInt8) :
    (Ipv4Addr.new a b c d).octets.toList = [a, b, c, d] := rfl

/-- What the IPv4 parser accepts is a header and its payload, as they are laid out. -/
theorem Ipv4Header.read_eq_some {s : Bytes} {h : Ipv4Header} {rest : Bytes} :
    Ipv4Header.read s = some (h, rest) ↔ s = h.bytes ++ rest := by
  constructor
  · intro hread
    unfold Ipv4Header.read at hread
    split at hread
    · rename_i b tos l₀ l₁ i₀ i₁ f₀ f₁ ttl protocol c₀ c₁ s₀ s₁ s₂ s₃ d₀ d₁ d₂ d₃ tail
      split at hread
      · rename_i hb
        obtain ⟨hversion, hihl, hlen⟩ := hb
        obtain ⟨rfl, rfl⟩ := Prod.mk.inj (Option.some.inj hread)
        have hfirst : UInt8.ofNat (69 + (tail.take ((b.toNat % 16 - 5) * 4)).length / 4) = b := by
          rw [List.length_take_of_le hlen, Nat.mul_div_cancel _ (by decide),
            show 69 + (b.toNat % 16 - 5) = b.toNat by omega]
          exact UInt8.ofNat_toNat
        simp only [Ipv4Header.bytes, hfirst, u16ToBe_ofBe, Ipv4Addr.toList_new, List.cons_append,
          List.nil_append, List.take_append_drop]
      · cases hread
    · cases hread
  · rintro rfl
    obtain ⟨tos, len, ident, off, ttl, protocol, checksum, src, dst, options, hwords, hle⟩ := h
    obtain ⟨s₀, s₁, s₂, s₃, rfl⟩ := src.exists_new
    obtain ⟨d₀, d₁, d₂, d₃, rfl⟩ := dst.exists_new
    obtain ⟨l₀, l₁, rfl⟩ := exists_u16OfBe len
    obtain ⟨i₀, i₁, rfl⟩ := exists_u16OfBe ident
    obtain ⟨f₀, f₁, rfl⟩ := exists_u16OfBe off
    obtain ⟨c₀, c₁, rfl⟩ := exists_u16OfBe checksum
    have hb : (UInt8.ofNat (69 + options.length / 4)).toNat = 69 + options.length / 4 := by
      rw [UInt8.toNat_ofNat']
      omega
    have hoptions : ((UInt8.ofNat (69 + options.length / 4)).toNat % 16 - 5) * 4 =
        options.length := by omega
    simp only [Ipv4Header.bytes, u16ToBe_ofBe, Ipv4Addr.toList_new, List.cons_append,
      List.nil_append, Ipv4Header.read, hoptions, List.take_left, List.drop_left]
    rw [dif_pos]
    rw [hb, List.length_append]
    omega

/-- What the IPv6 parser accepts is a header and its payload, as they are laid out. -/
theorem Ipv6Header.read_eq_some {s : Bytes} {h : Ipv6Header} {rest : Bytes} :
    Ipv6Header.read s = some (h, rest) ↔ s = h.bytes ++ rest := by
  constructor
  · intro hread
    unfold Ipv6Header.read at hread
    split at hread
    · rename_i a b c d l₀ l₁ next hop tail
      split at hread
      · rename_i hb
        obtain ⟨hversion, hlen⟩ := hb
        obtain ⟨rfl, rfl⟩ := Prod.mk.inj (Option.some.inj hread)
        have hfirst : UInt32.ofNat (1610612736 + (u32OfBe a b c d).toNat % 268435456) =
            u32OfBe a b c d := by
          have hb := b.toNat_lt
          have hc := c.toNat_lt
          have hd := d.toNat_lt
          rw [show 1610612736 + (u32OfBe a b c d).toNat % 268435456 = (u32OfBe a b c d).toNat by
            rw [toNat_u32OfBe]
            omega]
          exact UInt32.ofNat_toNat
        have hsplit : tail = tail.take 16 ++ ((tail.drop 16).take 16 ++ tail.drop 32) := by
          rw [show tail.drop 32 = (tail.drop 16).drop 16 by rw [List.drop_drop],
            List.take_append_drop, List.take_append_drop]
        simp only [Ipv6Header.bytes, hfirst, u32ToBe_ofBe, u16ToBe_ofBe, List.cons_append,
          List.nil_append, List.append_assoc, List.cons.injEq, true_and]
        exact hsplit
      · cases hread
    · cases hread
  · rintro rfl
    obtain ⟨flow, len, next, hop, src, dst, hflow⟩ := h
    obtain ⟨l₀, l₁, rfl⟩ := exists_u16OfBe len
    obtain ⟨a, b, c, d, hword⟩ := exists_u32OfBe (UInt32.ofNat (1610612736 + flow))
    have hvalue : (u32OfBe a b c d).toNat = 1610612736 + flow := by
      rw [hword, UInt32.toNat_ofNat']
      omega
    have hflow' : (u32OfBe a b c d).toNat % 268435456 = flow := by omega
    have hsrc : (src.toList ++ (dst.toList ++ rest)).take 16 = src.toList :=
      List.take_left' src.length_toList
    have hdst : (src.toList ++ (dst.toList ++ rest)).drop 16 = dst.toList ++ rest :=
      List.drop_left' src.length_toList
    have hrest : (src.toList ++ (dst.toList ++ rest)).drop 32 = rest := by
      rw [← List.append_assoc]
      exact List.drop_left' (by rw [List.length_append, src.length_toList, dst.length_toList])
    simp only [Ipv6Header.bytes, ← hword, u32ToBe_ofBe, u16ToBe_ofBe, List.cons_append,
      List.nil_append, List.append_assoc, Ipv6Header.read, hsrc, hdst]
    rw [dif_pos]
    · simp only [hflow', hrest, List.take_left' dst.length_toList]
      rfl
    · rw [List.length_append, List.length_append, src.length_toList, dst.length_toList]
      rw [toNat_u32OfBe] at hvalue
      have hb := b.toNat_lt
      have hc := c.toNat_lt
      have hd := d.toNat_lt
      omega

/-! ## Whole headers are read -/

theorem Ipv4Header.exists_read {s : Bytes} (hversion : (s.getD 0 0).toNat / 16 = 4)
    (hihl : 5 ≤ (s.getD 0 0).toNat % 16) (hlen : (s.getD 0 0).toNat % 16 * 4 ≤ s.length) :
    ∃ h payload, Ipv4Header.read s = some (h, payload) := by
  obtain ⟨n, hn⟩ := Nat.exists_eq_add_of_le' (show 20 ≤ s.length by omega)
  match s, hn with
  | b :: _ :: _ :: _ :: _ :: _ :: _ :: _ :: _ :: _ :: _ :: _ :: _ :: _ :: _ :: _ :: _ :: _ :: _ ::
      _ :: rest, _ =>
      unfold Ipv4Header.read
      refine ⟨_, _, dif_pos ⟨hversion, hihl, ?_⟩⟩
      simp only [List.getD_cons_zero, List.length_cons] at hihl hlen
      omega

theorem Ipv6Header.exists_read {s : Bytes} (hversion : (s.getD 0 0).toNat / 16 = 6)
    (hlen : 40 ≤ s.length) : ∃ h payload, Ipv6Header.read s = some (h, payload) := by
  obtain ⟨n, hn⟩ := Nat.exists_eq_add_of_le' hlen
  match s, hn with
  | a :: _ :: _ :: _ :: _ :: _ :: _ :: _ :: rest, hn =>
      unfold Ipv6Header.read
      refine ⟨_, _, dif_pos ⟨hversion, ?_⟩⟩
      simp only [List.length_cons] at hn
      omega

end Ruproxy.Foundation
