/-
  Address/Decoders.lean --- the SOCKS5 addresses of four protocols.

  Trojan, the SOCKS5 server, AnyTLS and Shadowsocks each have their own decoder
  for the same format, over three kinds of input: a connection, a `StreamConn`
  that is fed with chunks, and a buffer that panics when it is read past its end
  and is therefore asked for its length first.  Each is written here from its own
  source; `target` is what the format means.

  A connection is the list of the bytes that it will give before its end.
-/
import Ruproxy.AnyTls.Stream
import Ruproxy.Foundation.Net
import Ruproxy.Foundation.Outcome

set_option autoImplicit false

namespace Ruproxy.Address

open Ruproxy.Foundation

/-- Why an address is refused. -/
inductive AddrError where
  /-- the error of `read_exact` and its like at the end of the input -/
  | unexpectedEof
  /-- the `FromUtf8Error` of a domain -/
  | fromUtf8
  /-- `bail!` -/
  | bail (msg : String)
  deriving DecidableEq

/-- A buffer of `n` bytes that was filled with those of `b`. -/
def filled (n : Nat) (b : Bytes) : Vector UInt8 n := Vector.ofFn fun i => b.getD i 0

/-- `Ipv4Addr::from` on a filled buffer, as text. -/
def ipv4Text (b : Bytes) : String := (Ipv4Addr.mk (filled 4 b)).fmt

/-- `Ipv6Addr::from` on a filled buffer, as text between brackets. -/
def ipv6Text (b : Bytes) : String := "[" ++ (Ipv6Addr.ofOctets (filled 16 b)).fmt ++ "]"

/-- The `host:port` text of a target. -/
def hostPort (host : String) (port : UInt16) : String := host ++ ":" ++ dec port.toNat

/-! ## The format -/

/-- The host behind the type byte `atyp`, and what follows it. -/
def host (atyp : UInt8) (s : Bytes) : Option (String × Bytes) :=
  if atyp = 1 then (readExact 4 s).map fun r => (ipv4Text r.1, r.2)
  else if atyp = 3 then
    match s with
    | [] => none
    | l :: s => (readExact l.toNat s).bind fun r => (fromUtf8 r.1).map fun d => (d, r.2)
  else if atyp = 4 then (readExact 16 s).map fun r => (ipv6Text r.1, r.2)
  else none

/-- The target at the front of a byte string, and what follows it. -/
def target : Bytes → Option (String × Bytes)
  | [] => none
  | atyp :: s =>
      match host atyp s with
      | some (h, p :: q :: rest) => some (hostPort h (u16OfBe p q), rest)
      | _ => none

/-! ## Connections -/

/-- `read_exact` on a connection. -/
def readN (n : Nat) (s : Bytes) : Except AddrError (Bytes × Bytes) :=
  match readExact n s with
  | some r => .ok r
  | none => .error .unexpectedEof

/-- `read_u8`. -/
def readU8 : Bytes → Except AddrError (UInt8 × Bytes)
  | b :: s => .ok (b, s)
  | [] => .error .unexpectedEof

/-- `read_u16`. -/
def readU16 : Bytes → Except AddrError (UInt16 × Bytes)
  | a :: b :: s => .ok (u16OfBe a b, s)
  | _ => .error .unexpectedEof

/-- `String::from_utf8(b)?`. -/
def utf8 (b : Bytes) : Except AddrError String :=
  match fromUtf8 b with
  | some d => .ok d
  | none => .error .fromUtf8

end Ruproxy.Address

namespace Ruproxy.Trojan

open Ruproxy.Foundation Ruproxy.Address

/-- The `match atyp` of `decode_trojan`. -/
def decodeHost (atyp : UInt8) (s : Bytes) : Except AddrError (String × Bytes) :=
  if atyp = 1 then do
    let (b, s) ← readN 4 s
    return (ipv4Text b, s)
  else if atyp = 3 then do
    let (l, s) ← readU8 s
    let (b, s) ← readN l.toNat s
    return (← utf8 b, s)
  else if atyp = 4 then do
    let (b, s) ← readN 16 s
    return (ipv6Text b, s)
  else throw (.bail "bad atyp")

/-- The target of `decode_trojan`, from the type byte to the port. -/
def decodeTarget (s : Bytes) : Except AddrError (String × Bytes) := do
  let (atyp, s) ← readU8 s
  let (host, s) ← decodeHost atyp s
  let (port, s) ← readU16 s
  return (hostPort host port, s)

end Ruproxy.Trojan

namespace Ruproxy.Socks

open Ruproxy.Foundation Ruproxy.Address

/-- `ATYP_IPV4`. -/
def atypIpv4 : UInt8 := 0x01
/-- `ATYP_DOMAIN`. -/
def atypDomain : UInt8 := 0x03
/-- `ATYP_IPV6`. -/
def atypIpv6 : UInt8 := 0x04
/-- `VER`. -/
def ver : UInt8 := 0x05
/-- `REP_ATYP_NOT_SUPPORTED`. -/
def repAtypNotSupported : UInt8 := 0x08

/-- `send_reply`, by the bytes it writes. -/
def sendReply (rep : UInt8) : Bytes := [ver, rep, 0x00, atypIpv4, 0, 0, 0, 0, 0, 0]

/-- The `match atyp` of `handle`: what it writes to the client, and its result. -/
def handleHost (atyp : UInt8) (s : Bytes) : Bytes × Except AddrError (String × Bytes) :=
  if atyp = atypIpv4 then
    ([], do
      let (b, s) ← readN 4 s
      return (ipv4Text b, s))
  else if atyp = atypDomain then
    ([], do
      let (len, s) ← readU8 s
      let (b, s) ← readN len.toNat s
      return (← utf8 b, s))
  else if atyp = atypIpv6 then
    ([], do
      let (b, s) ← readN 16 s
      return (ipv6Text b, s))
  else
    (sendReply repAtypNotSupported,
      throw (.bail ("unsupported address type: 0x" ++ hex02 atyp.toNat)))

/-- The target of `handle`, from the type byte to the port, with what is written. -/
def handleTarget (s : Bytes) : Bytes × Except AddrError (String × Bytes) :=
  match readU8 s with
  | .error e => ([], .error e)
  | .ok (atyp, s) =>
      let (written, result) := handleHost atyp s
      (written, do
        let (targetHost, s) ← result
        let (port, s) ← readU16 s
        return (hostPort targetHost port, s))

end Ruproxy.Socks

/-! ## The stream of a session -/

namespace Ruproxy.AnyTls

open Ruproxy.Foundation Ruproxy.Address

/-- A call on a stream: `none` while it waits for a chunk. -/
abbrev Call (α : Type) : Type := ExceptT AddrError Option α

/-- `StreamConn::read_exact_from` for `n` bytes. -/
def readExactFrom (n : Nat) (s : StreamConn) : Call (Bytes × StreamConn) :=
  if n = 0 then return ([], s)
  else
    match s.read n with
    | none => .mk none
    | some ([], _) => throw .unexpectedEof
    | some (b :: bs, s) => do
        let (rest, s) ← readExactFrom (n - (b :: bs).length) s
        return (b :: bs ++ rest, s)
termination_by n
decreasing_by
  rw [List.length_cons]
  omega

/-- The `match atyp[0]` of `read_socks5_addr`. -/
def readSocks5Host (atyp : UInt8) (stream : StreamConn) : Call (String × StreamConn) :=
  if atyp = 0x01 then do
    let (b, stream) ← readExactFrom 4 stream
    return (ipv4Text b, stream)
  else if atyp = 0x03 then do
    let (lb, stream) ← readExactFrom 1 stream
    let (b, stream) ← readExactFrom (lb.getD 0 0).toNat stream
    match fromUtf8 b with
    | some d => return (d, stream)
    | none => throw .fromUtf8
  else if atyp = 0x04 then do
    let (b, stream) ← readExactFrom 16 stream
    return (ipv6Text b, stream)
  else throw (.bail ("anytls: unknown ATYP 0x" ++ hex atyp.toNat))

/-- `read_socks5_addr`. -/
def readSocks5Addr (stream : StreamConn) : Call (String × StreamConn) := do
  let (atyp, stream) ← readExactFrom 1 stream
  let (host, stream) ← readSocks5Host (atyp.getD 0 0) stream
  let (pb, stream) ← readExactFrom 2 stream
  let port := u16OfBe (pb.getD 0 0) (pb.getD 1 0)
  return (hostPort host port, stream)

end Ruproxy.AnyTls

/-! ## Buffers -/

namespace Ruproxy.Shadowsocks

open Ruproxy.Foundation Ruproxy.Foundation.Outcome Ruproxy.Address

/-- `Buf::get_u8`. -/
def getU8 (buf : Bytes) : Outcome AddrError (UInt8 × Bytes) :=
  match buf with
  | b :: buf => ok (b, buf)
  | [] => panic

/-- `Buf::get_u16`. -/
def getU16 (buf : Bytes) : Outcome AddrError (UInt16 × Bytes) :=
  match buf with
  | a :: b :: buf => ok (u16OfBe a b, buf)
  | _ => panic

/-- `Buf::copy_to_slice` into `n` bytes. -/
def copyToSlice (n : Nat) (buf : Bytes) : Outcome AddrError (Bytes × Bytes) :=
  unwrap (readExact n buf)

/-- The `match atyp` of `parse_address`. -/
def parseHost (atyp : UInt8) (buf : Bytes) : Outcome AddrError (String × Bytes) :=
  if atyp = 0x01 then
    if buf.length < 4 then err (.bail "truncated IPv4")
    else do
      let (b, buf) ← copyToSlice 4 buf
      return (ipv4Text b, buf)
  else if atyp = 0x03 then
    if buf.length < 1 then err (.bail "truncated domain length")
    else do
      let (len, buf) ← getU8 buf
      if buf.length < len.toNat then
        err (.bail "truncated domain")
      else
        let (b, buf) ← copyToSlice len.toNat buf
        return (← orErr .fromUtf8 (fromUtf8 b), buf)
  else if atyp = 0x04 then
    if buf.length < 16 then err (.bail "truncated IPv6")
    else do
      let (b, buf) ← copyToSlice 16 buf
      return (ipv6Text b, buf)
  else err (.bail ("shadowsocks 2022: unknown ATYP 0x" ++ hex atyp.toNat))

/-- `parse_address`. -/
def parseAddress (buf : Bytes) : Outcome AddrError (String × Bytes) :=
  if buf.length < 1 then err (.bail "shadowsocks 2022: truncated address (no ATYP)")
  else do
    let (atyp, buf) ← getU8 buf
    let (host, buf) ← parseHost atyp buf
    if buf.length < 2 then
      err (.bail "truncated port")
    else
      let (port, buf) ← getU16 buf
      return (hostPort host port, buf)

end Ruproxy.Shadowsocks
