/-
  Vless/Request.lean --- the request header of `vless/protocol.rs`.

  `decode_request` reads the version, the uuid, the addons, the command, the port and the
  address off a connection, which is the list of the bytes it will give before its end.
  `IsRequest` is the format as what is written.  The decoder accepts exactly that, and
  leaves what stands behind it, the payload that is going to be proxied.
-/
import Ruproxy.Address.Grammar

set_option autoImplicit false

namespace Ruproxy.Vless

open Ruproxy.Foundation Ruproxy.Address

/-- `VLESS_VERSION`. -/
def vlessVersion : UInt8 := 0x00
/-- `CMD_TCP`. -/
def cmdTcp : UInt8 := 0x01
/-- `CMD_UDP`. -/
def cmdUdp : UInt8 := 0x02
/-- `ATYP_IPV4`. -/
def atypIpv4 : UInt8 := 0x01
/-- `ATYP_DOMAIN`. -/
def atypDomain : UInt8 := 0x02
/-- `ATYP_IPV6`. -/
def atypIpv6 : UInt8 := 0x03

/-- `VlessRequest`. -/
structure VlessRequest where
  command : UInt8
  target : String
  deriving DecidableEq

/-- The `{:#x}` format of a byte. -/
def hexPrefixed (b : UInt8) : String := "0x" ++ hex b.toNat

/-! ## The decoder -/

/-- `read_address`. -/
def readAddress (reader : Bytes) : Except AddrError (String × Bytes) := do
  let (atyp, reader) ← readU8 reader
  if atyp = atypIpv4 then do
    let (buf, reader) ← readN 4 reader
    return (ipv4Text buf, reader)
  else if atyp = atypDomain then do
    let (domainLen, reader) ← readU8 reader
    if domainLen.toNat = 0 then throw (.bail "vless: empty domain")
    else do
      let (domainBuf, reader) ← readN domainLen.toNat reader
      let domain ← utf8 domainBuf
      return (domain, reader)
  else if atyp = atypIpv6 then do
    let (buf, reader) ← readN 16 reader
    return (ipv6Text buf, reader)
  else throw (.bail ("vless: unknown address type " ++ hexPrefixed atyp))

/-- The addons of `decode_request`: a length, and as many bytes, which are skipped. -/
def skipAddons (reader : Bytes) : Except AddrError (Unit × Bytes) := do
  let (addonLen, reader) ← readU8 reader
  if 0 < addonLen.toNat then do
    let (_, reader) ← readN addonLen.toNat reader
    return ((), reader)
  else return ((), reader)

/-- `decode_request`. -/
def decodeRequest (reader : Bytes) (expectedUuid : Vector UInt8 16) :
    Except AddrError (VlessRequest × Bytes) := do
  let (version, reader) ← readU8 reader
  if version ≠ vlessVersion then
    throw (.bail ("vless: unsupported version " ++ hexPrefixed version ++ ", expected 0x00"))
  else do
    let (uuidBuf, reader) ← readN 16 reader
    if uuidBuf ≠ expectedUuid.toList then throw (.bail "vless: invalid UUID")
    else do
      let (_, reader) ← skipAddons reader
      let (command, reader) ← readU8 reader
      if command ≠ cmdTcp ∧ command ≠ cmdUdp then
        throw (.bail ("vless: unsupported command " ++ hexPrefixed command))
      else do
        let (port, reader) ← readU16 reader
        let (addr, reader) ← readAddress reader
        return (⟨command, hostPort addr port⟩, reader)

/-! ## The format -/

/-- An address of the format.  A domain has at least one byte, and its length fits into a
byte. -/
inductive VlessAddr where
  | ipv4 (octets : Vector UInt8 4)
  | domain (d : String) (nonempty : 1 ≤ (asBytes d).length) (short : (asBytes d).length ≤ 255)
  | ipv6 (octets : Vector UInt8 16)

/-- The bytes of an address, with its type. -/
def VlessAddr.bytes : VlessAddr → Bytes
  | .ipv4 octets => 1 :: octets.toList
  | .domain d _ _ => 2 :: UInt8.ofNat (asBytes d).length :: asBytes d
  | .ipv6 octets => 3 :: octets.toList

/-- The host that an address names; an IPv6 one stands in brackets. -/
def VlessAddr.host : VlessAddr → String
  | .ipv4 octets => (Ipv4Addr.mk octets).fmt
  | .domain d _ _ => d
  | .ipv6 octets => "[" ++ (Ipv6Addr.ofOctets octets).fmt ++ "]"

/-- `s` is a request for `req` by the client `uuid`, and `rest` behind it. -/
structure IsRequest (uuid : Vector UInt8 16) (s : Bytes) (req : VlessRequest) (rest : Bytes) :
    Prop where
  command : req.command = 1 ∨ req.command = 2
  bytes : ∃ (addons : Bytes) (port : UInt16) (addr : VlessAddr), addons.length ≤ 255 ∧
    s = 0 :: (uuid.toList ++ UInt8.ofNat addons.length :: (addons ++
      req.command :: (u16ToBe port ++ (addr.bytes ++ rest)))) ∧
    req.target = hostPort addr.host port

/-! ## Soundness and completeness -/

/-- **Addresses.**  What is read is an address, and every address is read. -/
theorem readAddress_eq_ok {s rest : Bytes} {h : String} :
    readAddress s = .ok (h, rest) ↔ ∃ a : VlessAddr, s = a.bytes ++ rest ∧ a.host = h := by
  constructor
  · intro hread
    obtain ⟨⟨atyp, s1⟩, htype, hrest⟩ := Except.bind_eq_ok.mp hread
    obtain rfl := readU8_eq_ok.mp htype
    dsimp only at hrest
    split at hrest
    · rename_i h4
      obtain ⟨⟨b, r⟩, hb, heq⟩ := Except.bind_eq_ok.mp hrest
      obtain ⟨rfl, hlen⟩ := readN_eq_ok.mp hb
      obtain ⟨v, rfl⟩ := exists_toList_eq hlen
      cases heq
      exact ⟨.ipv4 v, by rw [h4]; rfl, by rw [ipv4Text, filled_toList]; rfl⟩
    split at hrest
    · rename_i hd
      obtain ⟨⟨l, s2⟩, hl, hlenOk⟩ := Except.bind_eq_ok.mp hrest
      obtain rfl := readU8_eq_ok.mp hl
      dsimp only at hlenOk
      split at hlenOk
      · cases hlenOk
      rename_i hne
      obtain ⟨⟨b, r⟩, hb, hbOk⟩ := Except.bind_eq_ok.mp hlenOk
      obtain ⟨rfl, hlen⟩ := readN_eq_ok.mp hb
      obtain ⟨d, hutf8, heq⟩ := Except.bind_eq_ok.mp hbOk
      obtain rfl := utf8_eq_ok.mp hutf8
      cases heq
      have hlt := l.toNat_lt
      refine ⟨.domain h (by omega) (by omega), ?_, rfl⟩
      rw [VlessAddr.bytes, hlen, UInt8.ofNat_toNat, hd]
      rfl
    split at hrest
    · rename_i h6
      obtain ⟨⟨b, r⟩, hb, heq⟩ := Except.bind_eq_ok.mp hrest
      obtain ⟨rfl, hlen⟩ := readN_eq_ok.mp hb
      obtain ⟨v, rfl⟩ := exists_toList_eq hlen
      cases heq
      exact ⟨.ipv6 v, by rw [h6]; rfl, by rw [ipv6Text, filled_toList]; rfl⟩
    · cases hrest
  · rintro ⟨a, rfl, rfl⟩
    cases a with
    | ipv4 octets =>
      refine Except.bind_eq_ok.mpr ⟨_, readU8_eq_ok.mpr rfl, ?_⟩
      refine Except.bind_eq_ok.mpr ⟨_, readN_eq_ok.mpr ⟨rfl, octets.length_toList⟩, ?_⟩
      dsimp only
      rw [ipv4Text, filled_toList]
      rfl
    | domain d nonempty short =>
      have hlen : (UInt8.ofNat (asBytes d).length).toNat = (asBytes d).length := by
        rw [UInt8.toNat_ofNat']
        omega
      refine Except.bind_eq_ok.mpr ⟨_, readU8_eq_ok.mpr rfl, ?_⟩
      refine Except.bind_eq_ok.mpr ⟨_, readU8_eq_ok.mpr rfl, ?_⟩
      dsimp only
      rw [if_neg (by omega)]
      refine Except.bind_eq_ok.mpr ⟨_, readN_eq_ok.mpr ⟨rfl, hlen.symm⟩, ?_⟩
      exact Except.bind_eq_ok.mpr ⟨_, utf8_eq_ok.mpr rfl, rfl⟩
    | ipv6 octets =>
      refine Except.bind_eq_ok.mpr ⟨_, readU8_eq_ok.mpr rfl, ?_⟩
      refine Except.bind_eq_ok.mpr ⟨_, readN_eq_ok.mpr ⟨rfl, octets.length_toList⟩, ?_⟩
      dsimp only
      rw [ipv6Text, filled_toList]
      rfl

/-- Any addons are skipped, and nothing behind them. -/
theorem skipAddons_eq_ok {s rest : Bytes} : skipAddons s = .ok ((), rest) ↔
    ∃ addons : Bytes, addons.length ≤ 255 ∧
      s = UInt8.ofNat addons.length :: (addons ++ rest) := by
  constructor
  · intro h
    obtain ⟨⟨l, s1⟩, hl, hrest⟩ := Except.bind_eq_ok.mp h
    obtain rfl := readU8_eq_ok.mp hl
    dsimp only at hrest
    split at hrest
    · obtain ⟨⟨b, r⟩, hb, heq⟩ := Except.bind_eq_ok.mp hrest
      obtain ⟨rfl, hshort, rfl⟩ := readN_toNat_eq_ok.mp hb
      cases heq
      exact ⟨b, hshort, rfl⟩
    · rename_i hzero
      cases hrest
      have hnil : l = 0 := UInt8.toNat_inj.mp (Nat.eq_zero_of_not_pos hzero)
      exact ⟨[], Nat.zero_le _, by rw [hnil]; rfl⟩
  · rintro ⟨addons, hshort, rfl⟩
    have hread : readN (UInt8.ofNat addons.length).toNat (addons ++ rest) = .ok (addons, rest) :=
      readN_toNat_eq_ok.mpr ⟨rfl, hshort, rfl⟩
    refine Except.bind_eq_ok.mpr ⟨_, readU8_eq_ok.mpr rfl, ?_⟩
    dsimp only
    split
    · exact Except.bind_eq_ok.mpr ⟨_, hread, rfl⟩
    · rename_i hzero
      rw [Nat.eq_zero_of_not_pos hzero] at hread
      -- no bytes are read, so there are none
      obtain ⟨-, hlen⟩ := readN_eq_ok.mp hread
      rw [List.eq_nil_of_length_eq_zero hlen]
      rfl

/-- What is accepted is a request. -/
theorem decodeRequest_sound {uuid : Vector UInt8 16} {s rest : Bytes} {req : VlessRequest}
    (h : decodeRequest s uuid = .ok (req, rest)) : IsRequest uuid s req rest := by
  obtain ⟨⟨version, s1⟩, hversion, hversionOk⟩ := Except.bind_eq_ok.mp h
  obtain rfl := readU8_eq_ok.mp hversion
  dsimp only at hversionOk
  split at hversionOk
  · cases hversionOk
  rename_i hzero
  obtain ⟨⟨id, s2⟩, hid, hidOk⟩ := Except.bind_eq_ok.mp hversionOk
  obtain ⟨rfl, -⟩ := readN_eq_ok.mp hid
  dsimp only at hidOk
  split at hidOk
  · cases hidOk
  rename_i huuid
  obtain ⟨⟨⟨⟩, s3⟩, haddons, haddonsOk⟩ := Except.bind_eq_ok.mp hidOk
  obtain ⟨addons, hshort, rfl⟩ := skipAddons_eq_ok.mp haddons
  obtain ⟨⟨command, s4⟩, hcommand, hcommandOk⟩ := Except.bind_eq_ok.mp haddonsOk
  obtain rfl := readU8_eq_ok.mp hcommand
  dsimp only at hcommandOk
  split at hcommandOk
  · cases hcommandOk
  rename_i hcmd
  obtain ⟨⟨port, s5⟩, hport, hportOk⟩ := Except.bind_eq_ok.mp hcommandOk
  obtain rfl := readU16_eq_ok.mp hport
  obtain ⟨⟨host, s6⟩, haddr, heq⟩ := Except.bind_eq_ok.mp hportOk
  obtain ⟨addr, rfl, rfl⟩ := readAddress_eq_ok.mp haddr
  cases heq
  rw [not_not] at hzero huuid
  refine ⟨?_, addons, port, addr, hshort, ?_, rfl⟩
  · rw [not_and_or, not_not, not_not] at hcmd
    exact hcmd
  · rw [hzero, huuid]
    rfl

/-- Every request is accepted, and what stands behind it is left. -/
theorem decodeRequest_complete {uuid : Vector UInt8 16} {s rest : Bytes} {req : VlessRequest}
    (h : IsRequest uuid s req rest) : decodeRequest s uuid = .ok (req, rest) := by
  obtain ⟨hcommand, addons, port, addr, hshort, rfl, htarget⟩ := h
  obtain ⟨command, target⟩ := req
  obtain rfl := htarget
  have hcmd : ¬ (command ≠ cmdTcp ∧ command ≠ cmdUdp) := by
    rw [not_and_or, not_not, not_not]
    exact hcommand
  refine Except.bind_eq_ok.mpr ⟨_, readU8_eq_ok.mpr rfl, ?_⟩
  refine Except.bind_eq_ok.mpr ⟨_, readN_eq_ok.mpr ⟨rfl, uuid.length_toList⟩, ?_⟩
  dsimp only
  rw [if_neg (not_not.mpr rfl)]
  refine Except.bind_eq_ok.mpr ⟨_, skipAddons_eq_ok.mpr ⟨addons, hshort, rfl⟩, ?_⟩
  refine Except.bind_eq_ok.mpr ⟨_, readU8_eq_ok.mpr rfl, ?_⟩
  dsimp only
  rw [if_neg hcmd]
  refine Except.bind_eq_ok.mpr ⟨_, readU16_eq_ok.mpr rfl, ?_⟩
  exact Except.bind_eq_ok.mpr ⟨_, readAddress_eq_ok.mpr ⟨addr, rfl, rfl⟩, rfl⟩

/-- **VLESS requests.**  `decode_request` returns a command and a target and leaves `rest`
exactly on a request for them in front of `rest`; on every other stream it fails. -/
theorem decodeRequest_iff (uuid : Vector UInt8 16) (s : Bytes) :
    (∀ req rest, decodeRequest s uuid = .ok (req, rest) ↔ IsRequest uuid s req rest) ∧
      ((∀ req rest, ¬ IsRequest uuid s req rest) → ∃ e, decodeRequest s uuid = .error e) := by
  refine ⟨fun req rest => ⟨decodeRequest_sound, decodeRequest_complete⟩, fun hnone => ?_⟩
  cases hread : decodeRequest s uuid with
  | error e => exact ⟨e, rfl⟩
  | ok r => exact absurd (decodeRequest_sound hread) (hnone r.1 r.2)

/-- A request for a domain, with the first byte of the payload behind it. -/
example : decodeRequest (0 :: (List.replicate 16 7 ++
    [1, 0xff, 1, 0, 80, 2, 1, 0x61, 0x47])) (.replicate 16 7) = .ok (⟨1, "a:80"⟩, [0x47]) := by
  decide +kernel

end Ruproxy.Vless
