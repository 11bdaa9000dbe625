/-
  Shadowsocks/RequestHeader.lean --- the request header of `shadowsocks/protocol.rs`.

  `parse_request_header` reads the first chunk of a client and `build_request_header`
  writes it.  `RequestFields` is the layout of the documentation: the parser takes the
  byte strings of at least 18 bytes that begin with one.  That minimum is the length of
  a header with an IPv4 address; one with a domain of a single byte has 16.
-/
import Ruproxy.Address.Agreement
import Ruproxy.Address.Grammar
import Ruproxy.Foundation.AddrParse
import Ruproxy.Foundation.Position

set_option autoImplicit false

namespace Ruproxy.Shadowsocks

open Ruproxy.Foundation Ruproxy.Address
open Ruproxy.Foundation.Outcome

/-! ## The parser -/

/-- `MAX_TIMESTAMP_DIFF`. -/
def maxTimestampDiff : Nat := 30

/-- `STREAM_TYPE_REQUEST`. -/
def streamTypeRequest : UInt8 := 0x00

/-- `u64::abs_diff`. -/
def absDiff (a b : UInt64) : Nat := max a.toNat b.toNat - min a.toNat b.toNat

/-- `check_timestamp`, with the clock. -/
def checkTimestamp (now ts : UInt64) : Outcome AddrError Unit :=
  let diff := absDiff ts now
  if maxTimestampDiff < diff then
    err (.bail ("shadowsocks 2022: timestamp diff " ++ dec diff ++ "s exceeds " ++
      dec maxTimestampDiff ++ "s limit"))
  else return ()

/-- `Buf::advance`. -/
def advance (cnt : Nat) (buf : Bytes) : Outcome AddrError Bytes :=
  if buf.length < cnt then panic else ok (buf.drop cnt)

/-- `parse_request_header`, with the clock. -/
def parseRequestHeader (now : UInt64) (data : Bytes) (expectedType : UInt8) :
    Outcome AddrError String :=
  if data.length < 18 then
    err (.bail ("shadowsocks 2022: request header too short (" ++ dec data.length ++ " bytes)"))
  else do
    let pos := 0
    let streamType ← index data pos
    let pos := pos + 1
    if streamType ≠ expectedType then
      err (.bail ("shadowsocks 2022: wrong stream type 0x" ++ hex streamType.toNat ++
        ", expected 0x" ++ hex expectedType.toNat))
    else
    let ts ← slice data pos (pos + 8) >>= fun b => unwrap (tryInto 8 b)
    let pos := pos + 8
    checkTimestamp now (u64OfBe ts)
    let remaining ← slice data pos data.length
    let (addr, remaining) ← parseAddress remaining
    if remaining.length < 2 then err (.bail "shadowsocks 2022: missing padding length")
    else
    let (paddingLen, remaining) ← getU16 remaining
    if remaining.length < paddingLen.toNat then err (.bail "shadowsocks 2022: truncated padding")
    else
    let _ ← advance paddingLen.toNat remaining
    return addr

/-! ## The builder -/

/-- Why a header is not built. -/
inductive BuildError where
  | invalidAddress (addr : String)
  /-- the `ParseIntError` of a port -/
  | parseInt
  | domainTooLong (len : Nat)
  deriving DecidableEq

/-- The text of an error; that of a `ParseIntError` is the library's own. -/
def BuildError.text : BuildError → Option String
  | .invalidAddress addr => some ("invalid address: " ++ addr)
  | .parseInt => none
  | .domainTooLong len => some ("domain too long: " ++ dec len)

/-- The `if let` chain of `encode_address`. -/
def encodeHost (host : String) : Except BuildError Bytes :=
  match Ipv4Addr.parse host with
  | some ip4 => .ok (0x01 :: ip4.octets.toList)
  | none =>
      match Ipv6Addr.parse host with
      | some ip6 => .ok (0x04 :: ip6.segments.toList.flatMap u16ToBe)
      | none =>
          let hostBytes := asBytes host
          if 255 < hostBytes.length then .error (.domainTooLong hostBytes.length)
          else .ok (0x03 :: UInt8.ofNat hostBytes.length :: hostBytes)

/-- `encode_address`, by the bytes it puts. -/
def encodeAddress (addr : String) : Except BuildError Bytes :=
  match rsplitOnce ':' addr with
  | none => .error (.invalidAddress addr)
  | some (host, portStr) =>
      match parseU16 portStr with
      | none => .error .parseInt
      | some port =>
          let host := trimMatches (fun c => c = '[' || c = ']') host
          (encodeHost host).map (· ++ u16ToBe port)

/-- `build_request_header`, with the clock; the length of the salt is not used. -/
def buildRequestHeader (now : UInt64) (target : String) (_saltLen : Nat) :
    Except BuildError Bytes :=
  (encodeAddress target).map fun addr =>
    streamTypeRequest :: (u64ToBe now ++ (addr ++ u16ToBe 0))

/-! ## The layout -/

/-- The fields of a request header. -/
structure RequestFields where
  timestamp : UInt64
  addr : SocksAddr
  port : UInt16
  padding : Bytes
  padding_lt : padding.length < 65536

namespace RequestFields

/-- TYPE, TIMESTAMP, ATYP and ADDR, PORT, PADDING_LEN and PADDING. -/
def layout (type : UInt8) (r : RequestFields) : Bytes :=
  type :: (u64ToBe r.timestamp ++ (r.addr.bytes ++ (u16ToBe r.port ++
    (u16ToBe (UInt16.ofNat r.padding.length) ++ r.padding))))

/-- The `host:port` of the fields. -/
def target (r : RequestFields) : String := hostPort r.addr.host r.port

/-- The time stamp is at most 30 seconds from the clock. -/
def Timely (now : UInt64) (r : RequestFields) : Prop :=
  |(r.timestamp.toNat : Int) - now.toNat| ≤ 30

/-- The domain, if there is one, has at least one byte. -/
def Named (r : RequestFields) : Prop :=
  match r.addr with
  | .domain d _ => 1 ≤ (asBytes d).length
  | .ipv4 _ | .ipv6 _ => True

/-- A domain that has, with the padding and what follows it, fewer than three bytes. -/
def Short (r : RequestFields) (rest : Bytes) : Prop :=
  match r.addr with
  | .domain d _ => (asBytes d).length + r.padding.length + rest.length < 3
  | .ipv4 _ | .ipv6 _ => False

end RequestFields

/-! ## The targets of the builder -/

/-- The address that is written for a host: an IP address if the host is the text of one. -/
def Writes (host : String) : SocksAddr → Prop
  | .ipv4 octets => Ipv4Addr.parse host = some ⟨octets⟩
  | .ipv6 octets =>
      Ipv4Addr.parse host = none ∧ Ipv6Addr.parse host = some (.ofOctets octets)
  | .domain d _ => Ipv4Addr.parse host = none ∧ Ipv6Addr.parse host = none ∧ d = host

/-- A target is a host and a port; brackets around the host do not count. -/
def IsTarget (target : String) (a : SocksAddr) (port : UInt16) : Prop :=
  ∃ host portStr, rsplitOnce ':' target = some (host, portStr) ∧
    parseU16 portStr = some port ∧ Writes (trimMatches (fun c => c = '[' || c = ']') host) a

/-! ## What the parser takes -/

theorem checkTimestamp_eq_ok_iff {now ts : UInt64} :
    checkTimestamp now ts = ok () ↔ |(ts.toNat : Int) - now.toNat| ≤ 30 := by
  have hdiff : maxTimestampDiff < absDiff ts now ↔ ¬ |(ts.toNat : Int) - now.toNat| ≤ 30 := by
    rw [not_le, lt_abs, maxTimestampDiff, absDiff]
    omega
  unfold checkTimestamp
  dsimp only
  rw [guard_eq_ok, hdiff, not_not]
  exact and_iff_left rfl

theorem parseAddress_eq_ok_iff {buf rest : Bytes} {t : String} :
    parseAddress buf = ok (t, rest) ↔ target buf = some (t, rest) := by
  have hdecodes := decodes_parseAddress buf
  cases htarget : target buf with
  | none =>
    rw [htarget] at hdecodes
    obtain ⟨e, he⟩ := hdecodes
    rw [he]
    simp
  | some r =>
    rw [htarget] at hdecodes
    rw [show parseAddress buf = ok r from hdecodes]
    simp

theorem getU16_eq_ok_iff {buf rest : Bytes} {v : UInt16} :
    getU16 buf = ok (v, rest) ↔ buf = u16ToBe v ++ rest := by
  constructor
  · intro h
    unfold getU16 at h
    split at h
    · cases h
      rw [u16ToBe_ofBe]
      rfl
    · cases h
  · rintro rfl
    obtain ⟨a, b, hab, rfl⟩ := u16ToBe_append v rest
    rw [hab]
    rfl

/-- The address and the padding stand at the end of a header. -/
theorem layout_standsAt {type : UInt8} {r : RequestFields} {data : Bytes} :
    r.layout type <+: data ↔ data[0]? = some type ∧ StandsAt data 1 (u64ToBe r.timestamp) ∧
      StandsAt data 9 (r.addr.bytes ++ (u16ToBe r.port ++
        (u16ToBe (UInt16.ofNat r.padding.length) ++ r.padding))) := by
  rw [← standsAt_zero, RequestFields.layout, standsAt_cons, standsAt_append, u64ToBe_length]

/-- The padding is there where its length says. -/
theorem padding_eq_ok_iff {remaining : Bytes} {t t' : String} :
    (if remaining.length < 2 then err (.bail "shadowsocks 2022: missing padding length")
      else do
        let (paddingLen, remaining) ← getU16 remaining
        if remaining.length < paddingLen.toNat then
          err (.bail "shadowsocks 2022: truncated padding")
        else
        let _ ← advance paddingLen.toNat remaining
        return t : Outcome AddrError String) = ok t' ↔
      t = t' ∧ ∃ padding : Bytes, padding.length < 65536 ∧
        u16ToBe (UInt16.ofNat padding.length) ++ padding <+: remaining := by
  constructor
  · intro h
    obtain ⟨-, h⟩ := guard_eq_ok.mp h
    obtain ⟨⟨paddingLen, rest⟩, hlen, h⟩ := bind_eq_ok.mp h
    have hbuf := getU16_eq_ok_iff.mp hlen
    dsimp only at h
    obtain ⟨hfits, h⟩ := guard_eq_ok.mp h
    obtain ⟨behind, -, h⟩ := bind_eq_ok.mp h
    cases h
    have htake : (rest.take paddingLen.toNat).length = paddingLen.toNat :=
      List.length_take_of_le (Nat.le_of_not_lt hfits)
    refine ⟨rfl, rest.take paddingLen.toNat, ?_, ?_⟩
    · rw [htake]
      exact paddingLen.toNat_lt
    · rw [htake, UInt16.ofNat_toNat, hbuf]
      exact (List.prefix_append_right_inj _).mpr (List.take_prefix _ _)
  · rintro ⟨rfl, padding, hlt, behind, rfl⟩
    have hlen := UInt16.toNat_ofNat_of_lt' hlt
    refine guard_eq_ok.mpr ⟨?_, bind_eq_ok.mpr
      ⟨(UInt16.ofNat padding.length, padding ++ behind), ?_, ?_⟩⟩
    · rw [List.append_assoc, List.length_append, u16ToBe_length]
      omega
    · rw [getU16_eq_ok_iff, List.append_assoc]
    · dsimp only
      rw [hlen, advance, if_neg (by simp), if_neg (by simp), ok_bind, pure_eq_ok]

/-- **The parser.**  It takes the byte strings of at least 18 bytes that begin with a timely
header, and returns its target. -/
theorem parseRequestHeader_eq_ok_iff {now : UInt64} {data : Bytes} {type : UInt8} {t : String} :
    parseRequestHeader now data type = ok t ↔ 18 ≤ data.length ∧
      ∃ r : RequestFields, r.Timely now ∧ r.layout type <+: data ∧ r.target = t := by
  unfold parseRequestHeader
  dsimp only
  rw [guard_eq_ok, Nat.not_lt]
  refine and_congr_right fun hlen => ?_
  have hbehind : (slice data (0 + 1 + 8) data.length : Outcome AddrError Bytes) =
      ok (data.drop 9) := by
    rw [slice_of_le (by omega) (Nat.le_refl _), List.take_of_length_le]
    rw [List.length_drop]
  constructor
  · intro h
    obtain ⟨streamType, htype, h⟩ := bind_eq_ok.mp h
    obtain ⟨htypes, h⟩ := guard_eq_ok.mp h
    rw [not_not.mp htypes] at htype
    obtain ⟨ts, hts, h⟩ := bind_eq_ok.mp h
    obtain ⟨b, hb, hinto⟩ := bind_eq_ok.mp hts
    obtain rfl := tryInto_eq_some.mp (unwrap_eq_ok.mp hinto)
    obtain ⟨-, hts⟩ := (slice_eq_ok_iff_standsAt (by omega)).mp hb
    obtain ⟨⟨⟩, hcheck, h⟩ := bind_eq_ok.mp h
    rw [hbehind, ok_bind] at h
    obtain ⟨⟨addr, remaining⟩, haddr, h⟩ := bind_eq_ok.mp h
    obtain ⟨rfl, padding, hlt, hpad⟩ := padding_eq_ok_iff.mp h
    obtain ⟨a, port, hdrop, rfl⟩ := target_eq_some_iff.mp (parseAddress_eq_ok_iff.mp haddr)
    refine ⟨⟨u64OfBe ts, a, port, padding, hlt⟩, checkTimestamp_eq_ok_iff.mp hcheck, ?_, rfl⟩
    refine layout_standsAt.mpr ⟨index_eq_ok.mp htype, ?_, ?_⟩
    · rwa [← u64OfBe_eq_iff.mp rfl]
    · unfold StandsAt
      rw [← hdrop, List.prefix_append_right_inj, List.prefix_append_right_inj]
      exact hpad
  · rintro ⟨r, htimely, hlayout, rfl⟩
    obtain ⟨htype, hts, haddr⟩ := layout_standsAt.mp hlayout
    obtain ⟨behind, hdrop⟩ := haddr
    obtain ⟨ts, htoList⟩ := exists_toList_eq (u64ToBe_length r.timestamp)
    have hts : (slice data (0 + 1) (0 + 1 + 8) : Outcome AddrError Bytes) = ok ts.toList :=
      (slice_eq_ok_iff_standsAt (by omega)).mpr ⟨ts.length_toList, by rwa [htoList]⟩
    rw [index_eq_ok.mpr htype, ok_bind, if_neg (not_not.mpr rfl), hts, ok_bind,
      tryInto_eq_some.mpr rfl, unwrap_some, ok_bind, u64OfBe_eq_iff.mpr htoList,
      checkTimestamp_eq_ok_iff.mpr htimely, ok_bind, hbehind, ok_bind]
    refine bind_eq_ok.mpr ⟨(r.target, u16ToBe (UInt16.ofNat r.padding.length) ++
      r.padding ++ behind), ?_, padding_eq_ok_iff.mpr ⟨rfl, r.padding, r.padding_lt, ?_⟩⟩
    · refine parseAddress_eq_ok_iff.mpr (target_eq_some_iff.mpr ⟨r.addr, r.port, ?_, rfl⟩)
      rw [← hdrop]
      simp only [List.append_assoc]
    · exact List.prefix_append _ _

/-! ## What the builder writes -/

theorem encodeHost_eq_ok_iff {host : String} {b : Bytes} :
    encodeHost host = .ok b ↔ ∃ a, Writes host a ∧ a.bytes = b := by
  unfold encodeHost
  constructor
  · intro h
    split at h
    · rename_i ip4 hip4
      cases h
      exact ⟨.ipv4 ip4.octets, hip4, rfl⟩
    rename_i hip4
    split at h
    · rename_i ip6 hip6
      cases h
      obtain ⟨octets, rfl⟩ := ip6.exists_ofOctets
      exact ⟨.ipv6 octets, ⟨hip4, hip6⟩, by rw [Ipv6Addr.octets_ofOctets]; rfl⟩
    rename_i hip6
    dsimp only at h
    split at h
    · cases h
    · rename_i hfits
      cases h
      exact ⟨.domain host (Nat.le_of_not_lt hfits), ⟨hip4, hip6, rfl⟩, rfl⟩
  · rintro ⟨a, ha, rfl⟩
    cases a with
    | ipv4 octets =>
      rw [show Ipv4Addr.parse host = some ⟨octets⟩ from ha]
      rfl
    | ipv6 octets =>
      obtain ⟨hip4, hip6⟩ := ha
      rw [hip4, hip6]
      dsimp only
      rw [Ipv6Addr.octets_ofOctets]
      rfl
    | domain d short =>
      obtain ⟨hip4, hip6, rfl⟩ := ha
      rw [hip4, hip6]
      exact if_neg (Nat.not_lt.mpr short)

theorem encodeAddress_eq_ok_iff {target : String} {b : Bytes} :
    encodeAddress target = .ok b ↔
      ∃ a port, IsTarget target a port ∧ a.bytes ++ u16ToBe port = b := by
  unfold encodeAddress
  constructor
  · intro h
    split at h
    · cases h
    rename_i host portStr hsplit
    split at h
    · cases h
    rename_i port hport
    obtain ⟨hostBytes, hhost, rfl⟩ := Except.map_eq_ok.mp h
    obtain ⟨a, ha, rfl⟩ := encodeHost_eq_ok_iff.mp hhost
    exact ⟨a, port, ⟨host, portStr, hsplit, hport, ha⟩, rfl⟩
  · rintro ⟨a, port, ⟨host, portStr, hsplit, hport, ha⟩, rfl⟩
    rw [hsplit]
    dsimp only
    rw [hport]
    exact Except.map_eq_ok.mpr ⟨a.bytes, encodeHost_eq_ok_iff.mpr ⟨a, ha, rfl⟩, rfl⟩

/-- **The builder.**  A header is the layout of a target, without padding. -/
theorem buildRequestHeader_eq_ok_iff {now : UInt64} {target : String} {saltLen : Nat}
    {b : Bytes} : buildRequestHeader now target saltLen = .ok b ↔
      ∃ a port, IsTarget target a port ∧
        RequestFields.layout streamTypeRequest ⟨now, a, port, [], by decide⟩ = b := by
  rw [buildRequestHeader, Except.map_eq_ok]
  have hlayout : ∀ (a : SocksAddr) (port : UInt16), RequestFields.layout streamTypeRequest
      ⟨now, a, port, [], by decide⟩ =
        streamTypeRequest :: (u64ToBe now ++ (a.bytes ++ u16ToBe port ++ u16ToBe 0)) := by
    intro a port
    simp only [RequestFields.layout, List.append_assoc, List.append_nil, List.length_nil]
    rfl
  constructor
  · rintro ⟨addr, haddr, rfl⟩
    obtain ⟨a, port, htarget, rfl⟩ := encodeAddress_eq_ok_iff.mp haddr
    exact ⟨a, port, htarget, hlayout a port⟩
  · rintro ⟨a, port, htarget, rfl⟩
    exact ⟨_, encodeAddress_eq_ok_iff.mpr ⟨a, port, htarget, rfl⟩, (hlayout a port).symm⟩

/-! ## Acceptance -/

theorem length_layout (type : UInt8) (r : RequestFields) :
    (r.layout type).length = 13 + r.addr.bytes.length + r.padding.length := by
  simp only [RequestFields.layout, List.length_cons, List.length_append, u64ToBe_length,
    u16ToBe_length]
  omega

/-- A header has, with what follows it, the minimal length unless its domain is short. -/
theorem le_length_layout_iff {type : UInt8} {r : RequestFields} {rest : Bytes} :
    18 ≤ (r.layout type ++ rest).length ↔ ¬ r.Short rest := by
  rw [List.length_append, length_layout, RequestFields.Short]
  cases r.addr with
  | ipv4 octets =>
    simp only [SocksAddr.bytes, List.length_cons, Vector.length_toList, not_false_iff, iff_true]
    omega
  | domain d short =>
    simp only [SocksAddr.bytes, List.length_cons]
    omega
  | ipv6 octets =>
    simp only [SocksAddr.bytes, List.length_cons, Vector.length_toList, not_false_iff, iff_true]
    omega

/-- The bytes show whether the domain of a header is empty. -/
theorem named_iff {type : UInt8} {r : RequestFields} {data : Bytes} (h : r.layout type <+: data) :
    r.Named ↔ ¬ (data[9]? = some 3 ∧ data[10]? = some 0) := by
  obtain ⟨-, -, haddr⟩ := layout_standsAt.mp h
  obtain ⟨behind, hdrop⟩ := haddr
  have hnine : data[9]? = (data.drop 9)[0]? := by rw [List.getElem?_drop]
  have hten : data[10]? = (data.drop 9)[1]? := by rw [List.getElem?_drop]
  rw [hnine, hten, ← hdrop, RequestFields.Named]
  cases r.addr with
  | ipv4 octets => simp [SocksAddr.bytes]
  | domain d short =>
    have hlen : UInt8.ofNat (asBytes d).length = 0 ↔ (asBytes d).length = 0 := by
      rw [← UInt8.toNat_inj, UInt8.toNat_ofNat']
      show (asBytes d).length % 256 = 0 ↔ _
      omega
    simp only [SocksAddr.bytes, List.cons_append, List.getElem?_cons_zero,
      List.getElem?_cons_succ, Option.some.injEq, hlen, true_and]
    omega
  | ipv6 octets => simp [SocksAddr.bytes]

/-- A layout is taken, with its target, unless it is short. -/
theorem parseRequestHeader_layout {now : UInt64} {type : UInt8} {r : RequestFields}
    (htimely : r.Timely now) (rest : Bytes) :
    parseRequestHeader now (r.layout type ++ rest) type = ok r.target ↔ ¬ r.Short rest := by
  rw [← @le_length_layout_iff type, parseRequestHeader_eq_ok_iff]
  exact and_iff_left ⟨r, htimely, List.prefix_append _ _, rfl⟩

/-- The headers that are taken. -/
theorem parseRequestHeader_named {now : UInt64} {type : UInt8} {data : Bytes} :
    (∀ t, parseRequestHeader now data type = ok t →
        ∃ r : RequestFields, r.Named ∧ r.Timely now ∧ r.layout type <+: data ∧ r.target = t) ↔
      ¬ (18 ≤ data.length ∧
        ∃ r : RequestFields, ¬ r.Named ∧ r.Timely now ∧ r.layout type <+: data) := by
  constructor
  · rintro hall ⟨hlen, r, hnamed, htimely, hlayout⟩
    obtain ⟨r', hnamed', -, hlayout', -⟩ := hall r.target
      (parseRequestHeader_eq_ok_iff.mpr ⟨hlen, r, htimely, hlayout, rfl⟩)
    exact hnamed ((named_iff hlayout).mpr ((named_iff hlayout').mp hnamed'))
  · intro hnone t ht
    obtain ⟨hlen, r, htimely, hlayout, rfl⟩ := parseRequestHeader_eq_ok_iff.mp ht
    exact ⟨r, not_not.mp fun hnamed => hnone ⟨hlen, r, hnamed, htimely, hlayout⟩, htimely,
      hlayout, rfl⟩

/-- **Acceptance.**  A timely layout is taken, with its target, exactly if it is not short for
what follows it; what is taken begins with a layout whose domain is not empty exactly if the
bytes do not begin with one whose domain is; and the header that is built for a target is
taken exactly if it is not short. -/
theorem parseRequestHeader_accepts_iff (now : UInt64) :
    (∀ (type : UInt8) (r : RequestFields) (rest : Bytes), r.Named → r.Timely now →
      (parseRequestHeader now (r.layout type ++ rest) type = ok r.target ↔ ¬ r.Short rest)) ∧
    (∀ (type : UInt8) (data : Bytes),
      (∀ t, parseRequestHeader now data type = ok t →
        ∃ r : RequestFields, r.Named ∧ r.Timely now ∧ r.layout type <+: data ∧ r.target = t) ↔
      ¬ (18 ≤ data.length ∧
        ∃ r : RequestFields, ¬ r.Named ∧ r.Timely now ∧ r.layout type <+: data)) ∧
    (∀ (written : UInt64) (target : String) (saltLen : Nat) (a : SocksAddr) (port : UInt16),
      IsTarget target a port →
      RequestFields.Timely now ⟨written, a, port, [], by decide⟩ →
      ∃ b, buildRequestHeader written target saltLen = .ok b ∧
        (parseRequestHeader now b streamTypeRequest = ok (hostPort a.host port) ↔
          ¬ RequestFields.Short ⟨written, a, port, [], by decide⟩ [])) :=
  ⟨fun _ _ rest _ htimely => parseRequestHeader_layout htimely rest,
    fun _ _ => parseRequestHeader_named,
    fun _ _ _ a port htarget htimely =>
      ⟨_, buildRequestHeader_eq_ok_iff.mpr ⟨a, port, htarget, rfl⟩, by
        have hlayout := @parseRequestHeader_layout now streamTypeRequest _ htimely []
        rwa [List.append_nil] at hlayout⟩⟩

/-- A header with the domain `a`, port 80 and no padding. -/
def shortDomain : RequestFields := ⟨0, .domain "a" (by decide), 80, [], by decide⟩

theorem shortDomain_named_timely : shortDomain.Named ∧ shortDomain.Timely 0 := by
  refine ⟨show 1 ≤ (asBytes "a").length by decide, ?_⟩
  show |((0 : UInt64).toNat : Int) - (0 : UInt64).toNat| ≤ 30
  decide

theorem parseRequestHeader_accepts_iff_shortDomain :
    (parseRequestHeader 0 (shortDomain.layout 0 ++ [7, 7]) 0 = ok shortDomain.target ↔
      ¬ shortDomain.Short [7, 7]) ∧
    ∃ b, buildRequestHeader 0 "a:80" 16 = .ok b ∧
      (parseRequestHeader 0 b streamTypeRequest = ok (hostPort "a" 80) ↔ ¬ shortDomain.Short []) :=
  ⟨(parseRequestHeader_accepts_iff 0).1 0 shortDomain [7, 7] shortDomain_named_timely.1
      shortDomain_named_timely.2,
    (parseRequestHeader_accepts_iff 0).2.2 0 "a:80" 16 (.domain "a" (by decide)) 80
      ⟨"a", "80", by decide +kernel, by decide +kernel, by decide +kernel, by decide +kernel,
        by decide +kernel⟩ shortDomain_named_timely.2⟩

/-- The header of 16 bytes for the domain `a` is built and not taken. -/
theorem not_accepts_shortDomain :
    (shortDomain.Named ∧ shortDomain.Timely 0) ∧
      buildRequestHeader 0 "a:80" 16 = .ok (shortDomain.layout streamTypeRequest) ∧
      parseRequestHeader 0 (shortDomain.layout streamTypeRequest) streamTypeRequest =
        err (.bail "shadowsocks 2022: request header too short (16 bytes)") :=
  ⟨shortDomain_named_timely, by decide +kernel, by decide +kernel⟩

end Ruproxy.Shadowsocks
