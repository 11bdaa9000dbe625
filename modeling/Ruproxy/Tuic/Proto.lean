/-
  Tuic/Proto.lean --- the TUIC codec of `tuic/proto.rs`.

  A reader is the list of the bytes it will give.  The parsers of
  `connection.rs`, which read from a stream, and those of `proto.rs`, which read
  from a datagram, differ in the texts of their errors and in the commands they
  know; the parts they have in common take the text as an argument.
-/
import Ruproxy.Foundation.Net

set_option autoImplicit false

namespace Ruproxy.Tuic

open Ruproxy.Foundation

/-- `VERSION`. -/
def version : UInt8 := 0x05

/-! ## Addresses -/

/-- `Address`. -/
inductive Address where
  | none
  | domain (name : String) (port : UInt16)
  | socket (addr : SocketAddr)
  deriving DecidableEq

/-- `std::io::Error`, by the way the parsers make one. -/
inductive IoError where
  | unexpectedEof
  /-- the `FromUtf8Error` of a domain -/
  | utf8
  | invalidData (msg : String)
  deriving DecidableEq

/-- `read_exact` of a parser. -/
def read (n : Nat) (r : Bytes) : Except IoError (Bytes × Bytes) :=
  match readExact n r with
  | some (b, r) => .ok (b, r)
  | Option.none => .error .unexpectedEof

/-- A domain of known length, with its port. -/
def readDomain (len : Nat) (r : Bytes) : Except IoError (Address × Bytes) := do
  let (buf, r) ← read (len + 2) r
  match buf.drop len, fromUtf8 (buf.take len) with
  | [p, q], some name => return (.domain name (u16OfBe p q), r)
  | _, _ => throw .utf8

/-- The address parsers, up to the text for an unknown type. -/
def readAddress (unknown : UInt8 → String) (r : Bytes) : Except IoError (Address × Bytes) := do
  let (buf, r) ← read 1 r
  match buf with
  | [t] =>
      if t = 0xff then return (.none, r)
      else if t = 0x00 then
        let (buf, r) ← read 1 r
        readDomain (buf.headD 0).toNat r
      else if t = 0x01 then
        let (b, r) ← read 6 r
        match b with
        | [a, b, c, d, p, q] => return (.socket ⟨.v4 (.new a b c d), u16OfBe p q⟩, r)
        | _ => throw .unexpectedEof
      else if t = 0x02 then
        let (b, r) ← read 18 r
        match b with
        | [a0, b0, a1, b1, a2, b2, a3, b3, a4, b4, a5, b5, a6, b6, a7, b7, p, q] =>
            return (.socket ⟨.v6 (.new (u16OfBe a0 b0) (u16OfBe a1 b1) (u16OfBe a2 b2)
              (u16OfBe a3 b3) (u16OfBe a4 b4) (u16OfBe a5 b5) (u16OfBe a6 b6) (u16OfBe a7 b7)),
              u16OfBe p q⟩, r)
        | _ => throw .unexpectedEof
      else throw (.invalidData (unknown t))
  | _ => throw .unexpectedEof

/-- `Address::read_from`. -/
def Address.readFrom (r : Bytes) : Except IoError (Address × Bytes) :=
  readAddress (fun t => "unknown address type: " ++ dec t.toNat) r

/-- `Command::read_address_sync`. -/
def readAddressSync (r : Bytes) : Except IoError (Address × Bytes) :=
  readAddress (fun t => "unknown address type " ++ dec t.toNat) r

/-- `Address::to_bytes`. -/
def Address.toBytes : Address → Bytes
  | .none => [0xff]
  | .domain name port =>
      0x00 :: UInt8.ofNat (asBytes name).length :: asBytes name ++ u16ToBe port
  | .socket ⟨.v4 ip, port⟩ => 0x01 :: ip.octets.toList ++ u16ToBe port
  | .socket ⟨.v6 ip, port⟩ => 0x02 :: ip.segments.toList.flatMap u16ToBe ++ u16ToBe port

/-! ## Commands -/

/-- `CMD_AUTHENTICATE`. -/
def cmdAuthenticate : UInt8 := 0x00
/-- `CMD_CONNECT`. -/
def cmdConnect : UInt8 := 0x01
/-- `CMD_PACKET`. -/
def cmdPacket : UInt8 := 0x02
/-- `CMD_DISSOCIATE`. -/
def cmdDissociate : UInt8 := 0x03
/-- `CMD_HEARTBEAT`. -/
def cmdHeartbeat : UInt8 := 0x04

/-- A `Uuid`, by its 16 bytes. -/
abbrev Uuid : Type := Bytes

/-- `AuthInfo`. -/
structure AuthInfo where
  uuid : Uuid
  token : Bytes
  deriving DecidableEq

/-- `PacketInfo`. -/
structure PacketInfo where
  assocId : UInt16
  pktId : UInt16
  fragTotal : UInt8
  fragId : UInt8
  size : UInt16
  addr : Address
  deriving DecidableEq

/-- `Command`. -/
inductive Command where
  | authenticate (auth : AuthInfo)
  | connect (addr : Address)
  | packet (info : PacketInfo)
  | dissociate (assocId : UInt16)
  | heartbeat
  deriving DecidableEq

/-- The body of an AUTHENTICATE command. -/
def readAuthInfo (r : Bytes) : Except IoError (Command × Bytes) := do
  let (buf, r) ← read 48 r
  return (.authenticate ⟨buf.take 16, buf.drop 16⟩, r)

/-- The body of a PACKET command. -/
def readPacketInfo (readAddr : Bytes → Except IoError (Address × Bytes)) (r : Bytes) :
    Except IoError (Command × Bytes) := do
  let (buf, r) ← read 8 r
  match buf with
  | [a0, a1, p0, p1, fragTotal, fragId, s0, s1] =>
      let (addr, r) ← readAddr r
      return (.packet ⟨u16OfBe a0 a1, u16OfBe p0 p1, fragTotal, fragId, u16OfBe s0 s1, addr⟩, r)
  | _ => throw .unexpectedEof

/-- The body of a DISSOCIATE command. -/
def readDissociate (r : Bytes) : Except IoError (Command × Bytes) := do
  let (buf, r) ← read 2 r
  match buf with
  | [a, b] => return (.dissociate (u16OfBe a b), r)
  | _ => throw .unexpectedEof

/-- `Command::read_from_sync`. -/
def readFromSync (r : Bytes) : Except IoError (Command × Bytes) := do
  let (hdr, r) ← read 2 r
  match hdr with
  | [ver, cmd] =>
      if ver ≠ version then
        throw (.invalidData ("unsupported TUIC version: " ++ dec ver.toNat))
      else if cmd = cmdAuthenticate then readAuthInfo r
      else if cmd = cmdPacket then readPacketInfo readAddressSync r
      else if cmd = cmdHeartbeat then return (.heartbeat, r)
      else if cmd = cmdDissociate then readDissociate r
      else throw (.invalidData ("unexpected cmd " ++ dec cmd.toNat ++ " in datagram"))
  | _ => throw .unexpectedEof

/-- `Command::read_from_datagram`. -/
def readFromDatagram (data : Bytes) : Except IoError Command :=
  (readFromSync data).map Prod.fst

/-- `Command::is_tuic_prefix`. -/
def isTuicPrefix (ver cmd : UInt8) : Bool :=
  ver = version && cmd ≤ cmdHeartbeat

/-- The errors of `error.rs` that the stream parser makes. -/
inductive Error where
  | io (e : IoError)
  | protocol (msg : String)
  deriving DecidableEq

/-- `parse_command_with_prefix`. -/
def parseCommandWithPrefix (ver cmd : UInt8) (recv : Bytes) : Except Error (Command × Bytes) :=
  if ver ≠ version then
    .error (.protocol ("unsupported TUIC version: " ++ dec ver.toNat))
  else if cmd = cmdAuthenticate then (readAuthInfo recv).mapError .io
  else if cmd = cmdConnect then
    ((Address.readFrom recv).map fun (addr, r) => (.connect addr, r)).mapError .io
  else if cmd = cmdPacket then (readPacketInfo Address.readFrom recv).mapError .io
  else if cmd = cmdDissociate then (readDissociate recv).mapError .io
  else if cmd = cmdHeartbeat then .ok (.heartbeat, recv)
  else .error (.protocol ("unknown command: " ++ dec cmd.toNat))

/-- `build_packet_header`. -/
def buildPacketHeader (assocId pktId : UInt16) (addr : Address) (payloadLen : UInt16) : Bytes :=
  [version, cmdPacket] ++ u16ToBe assocId ++ u16ToBe pktId ++ [1, 0] ++ u16ToBe payloadLen ++
    addr.toBytes

end Ruproxy.Tuic
