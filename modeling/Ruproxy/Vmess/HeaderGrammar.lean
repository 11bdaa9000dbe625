/-
  Vmess/HeaderGrammar.lean --- the grammar of the request header.

  `HeaderFields` are the values a client chooses, `encode` is the header it makes of
  them.  The parser accepts a byte string exactly when it begins with such a header,
  and returns the request of its fields.  It does not look at what follows the
  checksum, nor at the reserved byte and the padding otherwise than in the checksum.
-/
import Ruproxy.Foundation.Position
import Ruproxy.Vmess.RequestHeader

set_option autoImplicit false

namespace Ruproxy.Vmess

open Ruproxy.Foundation
open Ruproxy.Foundation.Outcome

/-! ## The grammar -/

/-- An address of the header. -/
inductive HeaderAddr where
  | ipv4 (octets : Vector UInt8 4)
  | domain (d : String) (short : (asBytes d).length ≤ 255)
  | ipv6 (octets : Vector UInt8 16)

/-- The type byte of an address. -/
def HeaderAddr.atyp : HeaderAddr → UInt8
  | .ipv4 _ => 0x01
  | .domain _ _ => 0x02
  | .ipv6 _ => 0x03

/-- The bytes of an address behind its type. -/
def HeaderAddr.bytes : HeaderAddr → Bytes
  | .ipv4 octets => octets.toList
  | .domain d _ => UInt8.ofNat (asBytes d).length :: asBytes d
  | .ipv6 octets => octets.toList

/-- The host that an address names; an IPv6 one stands in brackets. -/
def HeaderAddr.host : HeaderAddr → String
  | .ipv4 octets => (Ipv4Addr.mk octets).fmt
  | .domain d _ => d
  | .ipv6 octets => "[" ++ (Ipv6Addr.ofOctets octets).fmt ++ "]"

/-- The fields of a header. -/
structure HeaderFields where
  iv : Vector UInt8 16
  key : Vector UInt8 16
  token : UInt8
  option : UInt8
  security : UInt8
  security_lt : security < 16
  reserved : UInt8
  port : UInt16
  addr : HeaderAddr
  padding : Bytes
  padding_le : padding.length ≤ 15

namespace HeaderFields

/-- The byte that holds the length of the padding and the security. -/
def nibbles (r : HeaderFields) : UInt8 :=
  UInt8.ofNat r.padding.length <<< 4 ||| r.security

/-- The header up to the address. -/
def fixedPart (r : HeaderFields) : Bytes :=
  1 :: (r.iv.toList ++ (r.key.toList ++
    [r.token, r.option, r.nibbles, r.reserved, 1, UInt8.ofNat (r.port.toNat / 256),
      UInt8.ofNat r.port.toNat, r.addr.atyp]))

/-- The header up to the checksum. -/
def body (r : HeaderFields) : Bytes := r.fixedPart ++ (r.addr.bytes ++ r.padding)

/-- The header. -/
def encode (r : HeaderFields) : Bytes := r.body ++ u32ToBe (fnv1a32 r.body)

/-- The request of the fields. -/
def request (crypto : HeaderCrypto) (r : HeaderFields) : VmessRequest where
  target := r.addr.host ++ ":" ++ dec r.port.toNat
  requestBodyKey := r.key
  requestBodyIv := r.iv
  responseBodyKey := sha256x16 crypto r.key
  responseBodyIv := sha256x16 crypto r.iv
  responseToken := r.token
  option := r.option
  security := r.security

theorem fixedPart_length (r : HeaderFields) : r.fixedPart.length = 41 := by
  simp [fixedPart]

theorem body_length (r : HeaderFields) :
    r.body.length = 41 + r.addr.bytes.length + r.padding.length := by
  simp [body, fixedPart_length, Nat.add_assoc]

theorem encode_length (r : HeaderFields) :
    r.encode.length = 41 + r.addr.bytes.length + r.padding.length + 4 := by
  simp [encode, body_length]

/-- Where the header stands, the parser finds its fields at their places. -/
theorem fixedPart_standsAt {r : HeaderFields} {h : Bytes} :
    StandsAt h 0 r.fixedPart ↔ h[0]? = some 1 ∧ StandsAt h 1 r.iv.toList ∧
      StandsAt h 17 r.key.toList ∧ h[33]? = some r.token ∧ h[34]? = some r.option ∧
      h[35]? = some r.nibbles ∧ h[36]? = some r.reserved ∧ h[37]? = some 1 ∧
      h[38]? = some (UInt8.ofNat (r.port.toNat / 256)) ∧
      h[39]? = some (UInt8.ofNat r.port.toNat) ∧ h[40]? = some r.addr.atyp := by
  simp only [fixedPart, standsAt_cons, standsAt_append, standsAt_nil, Vector.length_toList,
    and_true]

theorem encode_standsAt {r : HeaderFields} {h : Bytes} :
    StandsAt h 0 r.encode ↔ StandsAt h 0 r.fixedPart ∧ StandsAt h 41 r.addr.bytes ∧
      StandsAt h (41 + r.addr.bytes.length) r.padding ∧
      StandsAt h r.body.length (u32ToBe (fnv1a32 r.body)) := by
  rw [encode, standsAt_append, body, standsAt_append, standsAt_append, fixedPart_length,
    Nat.zero_add]
  simp only [Nat.zero_add, and_assoc]

end HeaderFields

/-! ## The two nibbles -/

theorem split_nibbles : ∀ p < 16, ∀ s < 16,
    ((UInt8.ofNat p <<< 4 ||| UInt8.ofNat s) >>> 4).toNat = p ∧
      (UInt8.ofNat p <<< 4 ||| UInt8.ofNat s) &&& 0x0f = UInt8.ofNat s := by
  decide

/-- Every byte is made of the two nibbles the parser reads from it. -/
theorem exists_nibbles (b : UInt8) : ∃ p < 16, ∃ s < 16,
    b = UInt8.ofNat p <<< 4 ||| UInt8.ofNat s := by
  have hall : ∀ p < 16, ∀ s < 16,
      UInt8.ofNat (16 * p + s) = UInt8.ofNat p <<< 4 ||| UInt8.ofNat s := by
    decide
  have hb := b.toNat_lt
  refine ⟨b.toNat / 16, by omega, b.toNat % 16, by omega, ?_⟩
  rw [← hall _ (by omega) _ (by omega), Nat.div_add_mod, UInt8.ofNat_toNat]

theorem HeaderFields.nibbles_split (r : HeaderFields) :
    (r.nibbles >>> 4).toNat = r.padding.length ∧ r.nibbles &&& 0x0f = r.security := by
  have hsec : r.security.toNat < 16 := UInt8.lt_iff_toNat_lt.mp r.security_lt
  have hsplit := split_nibbles r.padding.length (by have := r.padding_le; omega) _ hsec
  rwa [UInt8.ofNat_toNat] at hsplit

/-! ## The parts of the parser -/

theorem u32OfArray_eq_iff {v : Vector UInt8 4} {w : UInt32} :
    u32OfArray v = w ↔ v.toList = u32ToBe w := by
  obtain ⟨a, b, c, d, hv⟩ : ∃ a b c d, v.toList = [a, b, c, d] := by
    match hl : v.toList, v.length_toList with
    | [a, b, c, d], _ => exact ⟨a, b, c, d, rfl⟩
  have ha := a.toNat_lt
  have hb := b.toNat_lt
  have hc := c.toNat_lt
  have hd := d.toNat_lt
  have hw := w.toNat_lt
  simp only [u32OfArray, hv, u32ToBe, List.foldl_cons, List.foldl_nil, List.cons.injEq,
    and_true, ← UInt8.toNat_inj, ← UInt32.toNat_inj, UInt32.toNat_ofNat', UInt8.toNat_ofNat']
  omega

/-- The checksum is accepted where the one of everything before it stands. -/
theorem checkFnv_eq_ok_iff {h : Bytes} {idx : Nat} :
    checkFnv h idx = ok () ↔ StandsAt h idx (u32ToBe (fnv1a32 (h.take idx))) := by
  have hfront : idx ≤ h.length →
      slice h 0 idx = (ok (h.take idx) : Outcome HeaderError Bytes) := by
    intro hle
    rw [slice_of_le (Nat.zero_le _) hle, List.drop_zero, Nat.sub_zero]
  unfold checkFnv
  rw [guard_eq_ok]
  constructor
  · rintro ⟨hlen, hcheck⟩
    obtain ⟨exp, hexp, hcheck⟩ := (readArray_eq_ok (by omega) fun _ _ => unwrap_eq_ok).mp hcheck
    rw [hfront (by omega), ok_bind] at hcheck
    obtain ⟨hfnv, -⟩ := guard_eq_ok.mp hcheck
    rwa [← u32OfArray_eq_iff.mp (not_not.mp hfnv).symm]
  · intro hat
    have hle : idx + 4 ≤ h.length := hat.le_length_of_ne_nil (List.cons_ne_nil _ _)
    obtain ⟨exp, hexp⟩ := exists_toList_eq (u32ToBe_length (fnv1a32 (h.take idx)))
    refine ⟨by omega, (readArray_eq_ok (by omega) fun _ _ => unwrap_eq_ok).mpr ⟨exp, ?_, ?_⟩⟩
    · rwa [hexp]
    · rw [hfront (by omega), ok_bind, if_neg (not_not.mpr (u32OfArray_eq_iff.mpr hexp).symm),
        pure_eq_ok]

theorem parseHost_v4_eq_ok_iff {h : Bytes} {idx : Nat} (hidx : idx ≤ h.length)
    {r : String × Nat} :
    parseHost h 0x01 idx = ok r ↔ ∃ octets : Vector UInt8 4,
      StandsAt h idx octets.toList ∧ r = ((Ipv4Addr.mk octets).fmt, idx + 4) := by
  rw [parseHost, if_pos rfl, readArray_eq_ok hidx fun _ _ => orErr_eq_ok]
  simp only [pure_eq_ok, Outcome.ok.injEq, eq_comm]

theorem parseHost_v6_eq_ok_iff {h : Bytes} {idx : Nat} (hidx : idx ≤ h.length)
    {r : String × Nat} :
    parseHost h 0x03 idx = ok r ↔ ∃ octets : Vector UInt8 16,
      StandsAt h idx octets.toList ∧
        r = ("[" ++ (Ipv6Addr.ofOctets octets).fmt ++ "]", idx + 16) := by
  rw [parseHost, if_neg (by decide), if_neg (by decide), if_pos rfl,
    readArray_eq_ok hidx fun _ _ => orErr_eq_ok]
  simp only [pure_eq_ok, Outcome.ok.injEq, eq_comm]

theorem parseHost_domain_eq_ok_iff {h : Bytes} {idx : Nat} {r : String × Nat} :
    parseHost h 0x02 idx = ok r ↔ ∃ d : String, (asBytes d).length ≤ 255 ∧
      StandsAt h idx (UInt8.ofNat (asBytes d).length :: asBytes d) ∧
        r = (d, idx + 1 + (asBytes d).length) := by
  rw [parseHost, if_neg (by decide), if_pos rfl]
  constructor
  · intro hparse
    obtain ⟨l, hl, hparse⟩ := bind_eq_ok.mp hparse
    obtain ⟨c, hc, hparse⟩ := bind_eq_ok.mp hparse
    obtain ⟨d, hd, hparse⟩ := bind_eq_ok.mp hparse
    cases hparse
    rw [index_eq_ok] at hl
    obtain ⟨hidx, -⟩ := List.getElem?_eq_some_iff.mp hl
    obtain ⟨hcl, hat⟩ := (slice_eq_ok_iff_standsAt hidx).mp hc
    obtain rfl := fromUtf8_eq_some_iff.mp (orErr_eq_ok.mp hd)
    have hlt := l.toNat_lt
    refine ⟨d, by omega, standsAt_cons.mpr ⟨?_, hat⟩, by rw [hcl]⟩
    rw [hcl, UInt8.ofNat_toNat]
    exact hl
  · rintro ⟨d, hd, hat, rfl⟩
    obtain ⟨hl, hat⟩ := standsAt_cons.mp hat
    obtain ⟨hidx, -⟩ := List.getElem?_eq_some_iff.mp hl
    have hlen : (UInt8.ofNat (asBytes d).length).toNat = (asBytes d).length := by
      rw [UInt8.toNat_ofNat']
      omega
    rw [index_eq_ok.mpr hl, ok_bind]
    dsimp only
    rw [hlen, (slice_eq_ok_iff_standsAt hidx).mpr ⟨rfl, hat⟩, ok_bind, fromUtf8_asBytes,
      orErr_some, ok_bind, pure_eq_ok]

/-- The address is read where one stands. -/
theorem parseHost_eq_ok_iff {h : Bytes} {atyp : UInt8} {idx : Nat} (hidx : idx ≤ h.length)
    {r : String × Nat} :
    parseHost h atyp idx = ok r ↔ ∃ a : HeaderAddr, a.atyp = atyp ∧
      StandsAt h idx a.bytes ∧ r = (a.host, idx + a.bytes.length) := by
  constructor
  · intro hparse
    rcases eq_or_ne atyp 0x01 with rfl | h1
    · obtain ⟨octets, hat, rfl⟩ := (parseHost_v4_eq_ok_iff hidx).mp hparse
      exact ⟨.ipv4 octets, rfl, hat, by simp [HeaderAddr.host, HeaderAddr.bytes]⟩
    rcases eq_or_ne atyp 0x02 with rfl | h2
    · obtain ⟨d, hd, hat, rfl⟩ := parseHost_domain_eq_ok_iff.mp hparse
      refine ⟨.domain d hd, rfl, hat, ?_⟩
      simp [HeaderAddr.host, HeaderAddr.bytes, Nat.add_assoc, Nat.add_comm 1]
    rcases eq_or_ne atyp 0x03 with rfl | h3
    · obtain ⟨octets, hat, rfl⟩ := (parseHost_v6_eq_ok_iff hidx).mp hparse
      exact ⟨.ipv6 octets, rfl, hat, by simp [HeaderAddr.host, HeaderAddr.bytes]⟩
    · simp [parseHost, h1, h2, h3] at hparse
  · rintro ⟨a, rfl, hat, rfl⟩
    cases a with
    | ipv4 octets =>
      refine (parseHost_v4_eq_ok_iff hidx).mpr ⟨octets, hat, ?_⟩
      simp [HeaderAddr.host, HeaderAddr.bytes]
    | domain d short =>
      refine parseHost_domain_eq_ok_iff.mpr ⟨d, short, hat, ?_⟩
      simp [HeaderAddr.host, HeaderAddr.bytes, Nat.add_assoc, Nat.add_comm 1]
    | ipv6 octets =>
      refine (parseHost_v6_eq_ok_iff hidx).mpr ⟨octets, hat, ?_⟩
      simp [HeaderAddr.host, HeaderAddr.bytes]

/-! ## The parser -/

/-- Every header is parsed into its fields, whatever follows it. -/
theorem parsePlainHeader_of_encode (crypto : HeaderCrypto) {h : Bytes} {r : HeaderFields}
    (hat : StandsAt h 0 r.encode) : parsePlainHeader crypto h = ok (r.request crypto) := by
  have hlen : 0 + r.encode.length ≤ h.length := hat.le_length (Nat.zero_le _)
  rw [HeaderFields.encode_length] at hlen
  obtain ⟨hfixed, haddr, hpadding, hfnv⟩ := HeaderFields.encode_standsAt.mp hat
  obtain ⟨h0, hiv, hkey, h33, h34, h35, -, h37, h38, h39, h40⟩ :=
    HeaderFields.fixedPart_standsAt.mp hfixed
  obtain ⟨hpad, hsec⟩ := r.nibbles_split
  have hbody : h.take r.body.length = r.body :=
    take_of_standsAt (standsAt_append.mp hat).1
  have hcheck : checkFnv h (41 + r.addr.bytes.length + r.padding.length) = ok () := by
    rw [← HeaderFields.body_length, checkFnv_eq_ok_iff, hbody]
    exact hfnv
  unfold parsePlainHeader
  rw [if_neg (by omega), index_eq_ok.mpr h0, ok_bind, if_neg (not_not.mpr rfl)]
  refine (readArray_eq_ok (by omega) fun _ _ => unwrap_eq_ok).mpr ⟨r.iv, hiv, ?_⟩
  refine (readArray_eq_ok (by omega) fun _ _ => unwrap_eq_ok).mpr ⟨r.key, hkey, ?_⟩
  rw [index_eq_ok.mpr h33, ok_bind, index_eq_ok.mpr h34, ok_bind, index_eq_ok.mpr h35, ok_bind,
    ok_bind, index_eq_ok.mpr h37, ok_bind, if_neg (not_not.mpr rfl), index_eq_ok.mpr h38,
    ok_bind, index_eq_ok.mpr h39, ok_bind, index_eq_ok.mpr h40, ok_bind]
  dsimp only
  rw [(parseHost_eq_ok_iff (by omega)).mpr ⟨r.addr, rfl, haddr, rfl⟩, ok_bind]
  dsimp only
  rw [hpad, hcheck, ok_bind, u16OfBe_toBe, hsec, pure_eq_ok]
  rfl

/-- What is parsed begins with a header of the request. -/
theorem exists_encode_of_parsePlainHeader {crypto : HeaderCrypto} {h : Bytes}
    {req : VmessRequest} (hparse : parsePlainHeader crypto h = ok req) :
    ∃ r : HeaderFields, StandsAt h 0 r.encode ∧ req = r.request crypto := by
  unfold parsePlainHeader at hparse
  obtain ⟨hlen, hparse⟩ := guard_eq_ok.mp hparse
  rw [Nat.not_lt] at hlen
  obtain ⟨version, h0, hparse⟩ := bind_eq_ok.mp hparse
  obtain ⟨hversion, hparse⟩ := guard_eq_ok.mp hparse
  obtain rfl := not_not.mp hversion
  obtain ⟨iv, hiv, hparse⟩ :=
    (@readArray_eq_ok _ _ h 1 16 (by omega) _ (fun _ _ => unwrap_eq_ok) _ _).mp hparse
  obtain ⟨key, hkey, hparse⟩ :=
    (@readArray_eq_ok _ _ h 17 16 (by omega) _ (fun _ _ => unwrap_eq_ok) _ _).mp hparse
  obtain ⟨token, h33, hparse⟩ := bind_eq_ok.mp hparse
  obtain ⟨option, h34, hparse⟩ := bind_eq_ok.mp hparse
  obtain ⟨nibbles, h35, hparse⟩ := bind_eq_ok.mp hparse
  rw [h35, ok_bind] at hparse
  obtain ⟨cmd, h37, hparse⟩ := bind_eq_ok.mp hparse
  obtain ⟨hcmd, hparse⟩ := guard_eq_ok.mp hparse
  obtain rfl := not_not.mp hcmd
  obtain ⟨a, h38, hparse⟩ := bind_eq_ok.mp hparse
  obtain ⟨b, h39, hparse⟩ := bind_eq_ok.mp hparse
  obtain ⟨atyp, h40, hparse⟩ := bind_eq_ok.mp hparse
  obtain ⟨⟨host, idx⟩, hhost, hparse⟩ := bind_eq_ok.mp hparse
  obtain ⟨⟨⟩, hcheck, hparse⟩ := bind_eq_ok.mp hparse
  cases hparse
  obtain ⟨addr, rfl, haddr, hr⟩ := (parseHost_eq_ok_iff hlen).mp hhost
  cases hr
  obtain ⟨p, hp, s, hs, rfl⟩ := exists_nibbles nibbles
  obtain ⟨hhi, hlo⟩ := split_nibbles p hp s hs
  obtain ⟨ha, hb⟩ := u16OfBe_eq_iff.mp (rfl : u16OfBe a b = u16OfBe a b)
  rw [hhi, checkFnv_eq_ok_iff] at hcheck
  have hend := hcheck.le_length_of_ne_nil (List.cons_ne_nil _ _)
  rw [u32ToBe_length] at hend
  have hpadding : ((h.drop (41 + addr.bytes.length)).take p).length = p := by
    rw [List.length_take, List.length_drop]
    omega
  have hsecurity : UInt8.ofNat s < 16 := by
    rw [UInt8.lt_iff_toNat_lt, UInt8.toNat_ofNat']
    exact (Nat.mod_le _ _).trans_lt hs
  let r : HeaderFields :=
    { iv := iv, key := key, token := token, option := option
      security := UInt8.ofNat s
      security_lt := hsecurity
      reserved := h[36], port := u16OfBe a b, addr := addr
      padding := (h.drop (41 + addr.bytes.length)).take p
      padding_le := by omega }
  have hnibbles : r.nibbles = UInt8.ofNat p <<< 4 ||| UInt8.ofNat s := by
    unfold HeaderFields.nibbles
    rw [hpadding]
  have hfixed : StandsAt h 0 r.fixedPart := by
    rw [HeaderFields.fixedPart_standsAt, hnibbles]
    rw [index_eq_ok] at h0 h33 h34 h35 h37 h38 h39 h40
    exact ⟨h0, hiv, hkey, h33, h34, h35, List.getElem?_eq_getElem _, h37, ha ▸ h38, hb ▸ h39,
      h40⟩
  have hpad : StandsAt h (41 + addr.bytes.length) r.padding := List.take_prefix _ _
  have hbody : StandsAt h 0 r.body := by
    rw [HeaderFields.body, standsAt_append, standsAt_append, HeaderFields.fixedPart_length]
    exact ⟨hfixed, haddr, hpad⟩
  have hlength : r.body.length = 41 + addr.bytes.length + p := by
    rw [HeaderFields.body_length, hpadding]
  refine ⟨r, HeaderFields.encode_standsAt.mpr ⟨hfixed, haddr, hpad, ?_⟩, ?_⟩
  · rw [← hlength, take_of_standsAt hbody] at hcheck
    exact hcheck
  · rw [hlo]
    rfl

/-- **Header grammar.**  Every header is parsed into its fields, and the parser accepts
exactly the byte strings that begin with a header of the request it returns. -/
theorem parsePlainHeader_grammar (crypto : HeaderCrypto) :
    (∀ r : HeaderFields, 41 ≤ r.encode.length ∧
      parsePlainHeader crypto r.encode = ok (r.request crypto)) ∧
    ∀ (h : Bytes) (req : VmessRequest), parsePlainHeader crypto h = ok req ↔
      ∃ r : HeaderFields, r.encode <+: h ∧ req = r.request crypto := by
  refine ⟨fun r => ⟨?_, parsePlainHeader_of_encode crypto (List.prefix_rfl)⟩, fun h req => ?_⟩
  · rw [HeaderFields.encode_length]
    omega
  · constructor
    · exact exists_encode_of_parsePlainHeader
    · rintro ⟨r, hat, rfl⟩
      exact parsePlainHeader_of_encode crypto hat

end Ruproxy.Vmess
