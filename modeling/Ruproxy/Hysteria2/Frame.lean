/-
  Hysteria2/Frame.lean --- the UDP frame of `hysteria2/proxy.rs`.

  A frame is `session_id(4) packet_id(2) frag_id(1) frag_total(1)`, a varint
  address length, the address text `host:port` and the payload.  This file has
  the codec (`parse_udp_frame`, `build_single_udp_frame`, `build_udp_frames`
  and the helpers they use) and proves that what is built parses back.  The
  `tracing` output and the buffer capacities have no effect and are left out.
-/
import Ruproxy.Foundation.Net

set_option autoImplicit false

namespace Ruproxy.Hysteria2

open Ruproxy.Foundation

/-- `DATAGRAM_MAX_PAYLOAD`. -/
def datagramMaxPayload : Nat := 1100

/-- `UDP_MAX_PKT`: the longest datagram the receive task reads. -/
def udpMaxPkt : Nat := 65507

/-- `UdpFrame`. -/
structure UdpFrame where
  sessionId : UInt32
  packetId : UInt16
  fragId : UInt8
  fragTotal : UInt8
  addr : String
  port : UInt16
  payload : Bytes
  deriving DecidableEq

/-- Why a frame was refused; each text is the one of the source. -/
inductive FrameError where
  /-- `varint: no data` -/
  | noData
  /-- `varint: truncated` -/
  | truncated
  /-- `UDP frame too short ({len})` -/
  | tooShort (len : Nat)
  /-- `invalid addr_len: {addr_len}` -/
  | invalidAddrLen (addrLen : Nat)
  /-- `UDP frame: addr truncated` -/
  | addrTruncated
  /-- the error of `String::from_utf8` -/
  | utf8
  /-- `invalid addr (no port): {s}` -/
  | noPort (s : String)
  /-- the error of `parse::<u16>` -/
  | parseInt
  deriving DecidableEq

/-! ## Varints -/

/-- The loop of `read_varint_bytes` over the bytes after the first. -/
def readVarintLoop : Nat → UInt64 → Bytes → Except FrameError (UInt64 × Bytes)
  | 0, val, data => .ok (val, data)
  | _ + 1, _, [] => .error .truncated
  | extra + 1, val, b :: data => readVarintLoop extra ((val <<< 8) ||| b.toUInt64) data

/-- `read_varint_bytes`. -/
def readVarintBytes : Bytes → Except FrameError (UInt64 × Bytes)
  | [] => .error .noData
  | first :: data =>
      readVarintLoop (first >>> 6).toNat (first &&& 0x3f).toUInt64 data

/-- `write_varint_bytes`. -/
def writeVarintBytes (val : UInt64) : Bytes :=
  if val < 64 then [val.toUInt8]
  else if val < 16384 then u16ToBe (0x4000 ||| val.toUInt16)
  else if val < 1073741824 then u32ToBe (0x80000000 ||| val.toUInt32)
  else u64ToBe (0xc000000000000000 ||| val)

/-- A length below 64 is written as one byte that reads back. -/
theorem readVarintBytes_write {n : Nat} (h : n < 64) (rest : Bytes) :
    readVarintBytes (writeVarintBytes (UInt64.ofNat n) ++ rest) =
      .ok (UInt64.ofNat n, rest) := by
  have hall : ∀ n < 64, writeVarintBytes (UInt64.ofNat n) = [UInt8.ofNat n] ∧
      (UInt8.ofNat n >>> 6).toNat = 0 ∧
      (UInt8.ofNat n &&& 0x3f).toUInt64 = UInt64.ofNat n := by decide
  obtain ⟨hwrite, hextra, hval⟩ := hall n h
  rw [hwrite, List.singleton_append, readVarintBytes, hextra, hval, readVarintLoop]

/-! ## Addresses -/

/-- `split_host_port`. -/
def splitHostPort (s : String) : Except FrameError (String × UInt16) :=
  match rsplitOnce ':' s with
  | none => .error (.noPort s)
  | some (host, portStr) =>
      let host := trimMatches (fun c => c == '[' || c == ']') host
      match parseU16 portStr with
      | none => .error .parseInt
      | some port => .ok (host, port)

/-- The address text of a reply: `ip:port`, an IPv6 address in brackets. -/
def addrStr (src : SocketAddr) : String :=
  match src.ip with
  | .v4 ip => ip.fmt ++ ":" ++ dec src.port.toNat
  | .v6 ip => "[" ++ ip.fmt ++ "]:" ++ dec src.port.toNat

theorem not_isBracket_of_isAddrChar {c : Char} (h : isAddrChar c = true) :
    (c == '[' || c == ']') = false := by
  rw [Bool.or_eq_false_iff, beq_eq_false_iff_ne, beq_eq_false_iff_ne]
  constructor <;> rintro rfl <;> exact absurd h (by decide)

theorem colon_notMem_dec (n : Nat) : ':' ∉ (dec n).toList := fun h =>
  absurd (isDigit_of_mem_dec h) (by decide)

/-- The address text of a reply splits into the address and the port. -/
theorem splitHostPort_addrStr (src : SocketAddr) :
    splitHostPort (addrStr src) = .ok (src.ip.fmt, src.port) := by
  have hip : ∀ c ∈ src.ip.fmt.toList, (c == '[' || c == ']') = false := fun c hc =>
    not_isBracket_of_isAddrChar (IpAddr.isAddrChar_of_mem_fmt hc)
  have hport := parseU16_dec src.port
  cases hsrc : src.ip with
  | v4 ip =>
    rw [hsrc] at hip
    have htext : addrStr src = ip.fmt ++ String.singleton ':' ++ dec src.port.toNat := by
      apply String.toList_injective
      simp [addrStr, hsrc]
    have hsplit : rsplitOnce ':' (addrStr src) = some (ip.fmt, dec src.port.toNat) := by
      rw [htext]
      exact rsplitOnce_append (colon_notMem_dec _)
    have htrim : trimMatches (fun c => c == '[' || c == ']') ip.fmt = ip.fmt :=
      trimMatches_eq_self hip
    simp only [splitHostPort, hsplit, hport, htrim, IpAddr.fmt]
  | v6 ip =>
    rw [hsrc] at hip
    have htext : addrStr src =
        (String.singleton '[' ++ ip.fmt ++ String.singleton ']') ++ String.singleton ':' ++
          dec src.port.toNat := by
      apply String.toList_injective
      simp [addrStr, hsrc]
    have hsplit : rsplitOnce ':' (addrStr src) =
        some (String.singleton '[' ++ ip.fmt ++ String.singleton ']', dec src.port.toNat) := by
      rw [htext]
      exact rsplitOnce_append (colon_notMem_dec _)
    have htrim : trimMatches (fun c => c == '[' || c == ']')
        (String.singleton '[' ++ ip.fmt ++ String.singleton ']') = ip.fmt :=
      trimMatches_delimited (by decide) (by decide) hip
    simp only [splitHostPort, hsplit, hport, htrim, IpAddr.fmt]

theorem addrStr_length_pos (src : SocketAddr) : 0 < (asBytes (addrStr src)).length := by
  have hcolon : (asBytes ":").length = 1 := by decide
  have hopen : (asBytes "[").length = 1 := by decide
  cases hsrc : src.ip with
  | v4 ip =>
    simp only [addrStr, hsrc, asBytes_append, List.length_append]
    omega
  | v6 ip =>
    simp only [addrStr, hsrc, asBytes_append, List.length_append]
    omega

/-- An address text takes at most 49 bytes. -/
theorem addrStr_length_le (src : SocketAddr) : (asBytes (addrStr src)).length ≤ 49 := by
  have hip := src.ip.fmt_length_le
  have hport := dec_length_le (n := src.port.toNat) (k := 5) (by decide)
    (Nat.lt_trans src.port.toNat_lt (by decide))
  have hlen : (addrStr src).toList.length ≤ 49 := by
    cases hsrc : src.ip with
    | v4 ip =>
      rw [hsrc] at hip
      simp only [addrStr, hsrc, String.toList_append, List.length_append]
      simp only [IpAddr.fmt] at hip
      have : ":".toList.length = 1 := by decide
      omega
    | v6 ip =>
      rw [hsrc] at hip
      simp only [addrStr, hsrc, String.toList_append, List.length_append]
      simp only [IpAddr.fmt] at hip
      have h1 : "[".toList.length = 1 := by decide
      have h2 : "]:".toList.length = 2 := by decide
      omega
  have hascii : ∀ c ∈ (addrStr src).toList, c.utf8Size = 1 := by
    have hcolon : ∀ c ∈ ":".toList, c.utf8Size = 1 := List.all_iff_forall_prop.mp (by decide)
    have hopen : ∀ c ∈ "[".toList, c.utf8Size = 1 := List.all_iff_forall_prop.mp (by decide)
    have hclose : ∀ c ∈ "]:".toList, c.utf8Size = 1 := List.all_iff_forall_prop.mp (by decide)
    have hdec : ∀ c ∈ (dec src.port.toNat).toList, c.utf8Size = 1 := fun c hc =>
      isAddrChar_utf8Size (isAddrChar_of_mem_dec hc)
    have hfmt : ∀ c ∈ src.ip.fmt.toList, c.utf8Size = 1 := fun c hc =>
      isAddrChar_utf8Size (IpAddr.isAddrChar_of_mem_fmt hc)
    intro c hc
    cases hsrc : src.ip with
    | v4 ip =>
      rw [hsrc] at hfmt
      simp only [addrStr, hsrc, String.toList_append, List.mem_append] at hc
      rcases hc with (hc | hc) | hc
      · exact hfmt c hc
      · exact hcolon c hc
      · exact hdec c hc
    | v6 ip =>
      rw [hsrc] at hfmt
      simp only [addrStr, hsrc, String.toList_append, List.mem_append] at hc
      rcases hc with ((hc | hc) | hc) | hc
      · exact hopen c hc
      · exact hfmt c hc
      · exact hclose c hc
      · exact hdec c hc
  rw [asBytes_length_of_ascii hascii]
  exact hlen

/-! ## Frames -/

/-- `parse_udp_frame`. -/
def parseUdpFrame (data : Bytes) : Except FrameError UdpFrame :=
  match data with
  | s0 :: s1 :: s2 :: s3 :: p0 :: p1 :: fragId :: fragTotal :: data => do
      let (len, data) ← readVarintBytes data
      let addrLen := len.toNat
      if ¬ (addrLen > 0 ∧ addrLen ≤ 2048) then
        throw (.invalidAddrLen addrLen)
      match readExact addrLen data with
      | none => throw .addrTruncated
      | some (addrBytes, payload) =>
          match fromUtf8 addrBytes with
          | none => throw .utf8
          | some addrStr => do
              let (addr, port) ← splitHostPort addrStr
              return { sessionId := u32OfBe s0 s1 s2 s3, packetId := u16OfBe p0 p1,
                       fragId, fragTotal, addr, port, payload }
  | _ => .error (.tooShort data.length)

/-- `build_single_udp_frame`. -/
def buildSingleUdpFrame (sessionId : UInt32) (packetId : UInt16) (fragId fragTotal : UInt8)
    (addrStr : String) (payload : Bytes) : Bytes :=
  let addrBytes := asBytes addrStr
  u32ToBe sessionId ++ u16ToBe packetId ++ [fragId, fragTotal] ++
    writeVarintBytes (UInt64.ofNat addrBytes.length) ++ addrBytes ++ payload

/-- `build_udp_frames`. -/
def buildUdpFrames (sessionId : UInt32) (packetId : UInt16) (src : SocketAddr)
    (payload : Bytes) : List Bytes :=
  if payload.length ≤ datagramMaxPayload then
    [buildSingleUdpFrame sessionId packetId 0 1 (addrStr src) payload]
  else
    let parts := chunks datagramMaxPayload payload
    let fragTotal := UInt8.ofNat parts.length
    parts.zipIdx.map fun (chunk, i) =>
      buildSingleUdpFrame sessionId packetId (UInt8.ofNat i) fragTotal (addrStr src) chunk

/-- The frame a reply fragment parses to. -/
def replyFrame (sessionId : UInt32) (packetId : UInt16) (src : SocketAddr)
    (fragId fragTotal : UInt8) (payload : Bytes) : UdpFrame :=
  { sessionId, packetId, fragId, fragTotal, addr := src.ip.fmt, port := src.port, payload }

/-- A frame parses back if its address text does, and the length of the text. -/
theorem parseUdpFrame_buildSingle (sessionId : UInt32) (packetId : UInt16)
    (fragId fragTotal : UInt8) {text addr : String} {port : UInt16} {payload : Bytes}
    (hpos : 0 < (asBytes text).length) (hle : (asBytes text).length ≤ 2048)
    (hvar : readVarintBytes (writeVarintBytes (UInt64.ofNat (asBytes text).length) ++
      (asBytes text ++ payload)) =
        .ok (UInt64.ofNat (asBytes text).length, asBytes text ++ payload))
    (hsplit : splitHostPort text = .ok (addr, port)) :
    parseUdpFrame (buildSingleUdpFrame sessionId packetId fragId fragTotal text payload) =
      .ok { sessionId, packetId, fragId, fragTotal, addr, port, payload } := by
  have hnat : (UInt64.ofNat (asBytes text).length).toNat = (asBytes text).length := by
    rw [UInt64.toNat_ofNat']
    omega
  have hread := readExact_append (b := asBytes text) rfl payload
  simp only [buildSingleUdpFrame, u32ToBe, u16ToBe, List.cons_append, List.nil_append,
    List.append_assoc, parseUdpFrame, u32OfBe_toBe, u16OfBe_toBe, hvar, hnat, hread,
    fromUtf8_asBytes, hsplit, bind, Except.bind, pure, Except.pure]
  rw [if_neg (by omega)]

/-- **A reply fragment parses back**, with every field as it was written. -/
theorem parseUdpFrame_build (sessionId : UInt32) (packetId : UInt16) (src : SocketAddr)
    (fragId fragTotal : UInt8) (payload : Bytes) :
    parseUdpFrame
        (buildSingleUdpFrame sessionId packetId fragId fragTotal (addrStr src) payload) =
      .ok (replyFrame sessionId packetId src fragId fragTotal payload) := by
  have hle := addrStr_length_le src
  exact parseUdpFrame_buildSingle sessionId packetId fragId fragTotal (addrStr_length_pos src)
    (by omega) (readVarintBytes_write (by omega) _) (splitHostPort_addrStr src)

/-- A frame over a chunk of the maximal payload fits the datagram bound. -/
theorem buildSingleUdpFrame_length_le (sessionId : UInt32) (packetId : UInt16)
    (src : SocketAddr) (fragId fragTotal : UInt8) {payload : Bytes}
    (h : payload.length ≤ datagramMaxPayload) :
    (buildSingleUdpFrame sessionId packetId fragId fragTotal (addrStr src) payload).length
      ≤ 1200 := by
  have hle := addrStr_length_le src
  have hvar : ∀ n < 64, (writeVarintBytes (UInt64.ofNat n)).length = 1 := by decide
  simp only [datagramMaxPayload] at h
  simp only [buildSingleUdpFrame, List.length_append, u32ToBe_length, u16ToBe_length,
    List.length_cons, List.length_nil, hvar _ (show (asBytes (addrStr src)).length < 64 by omega)]
  omega

end Ruproxy.Hysteria2
