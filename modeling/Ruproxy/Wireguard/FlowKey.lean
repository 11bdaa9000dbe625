/-
  Wireguard/FlowKey.lean --- the flow key of a decrypted IP packet.

  `parse_flow_key` and its two parsers.  An index below the length that was
  checked before reads its byte; `slice` is `<[u8]>::get` at a range.
-/
import Ruproxy.Foundation.Bytes
import Ruproxy.Foundation.Net

set_option autoImplicit false

namespace Ruproxy.Wireguard

open Ruproxy.Foundation

/-- `FlowKey`. -/
structure FlowKey where
  proto : UInt8
  src : SocketAddr
  dst : SocketAddr
  deriving DecidableEq

/-- `pkt.get(start..start + len)`. -/
def slice (pkt : Bytes) (start len : Nat) : Option Bytes :=
  if start + len ≤ pkt.length then some ((pkt.drop start).take len) else none

/-- `Ipv4Addr::new` on the four bytes from `i`. -/
def ipv4At (pkt : Bytes) (i : Nat) : Ipv4Addr :=
  ⟨#v[pkt.getD i 0, pkt.getD (i + 1) 0, pkt.getD (i + 2) 0, pkt.getD (i + 3) 0]⟩

/-- `ipv6_from_slice`. -/
def ipv6FromSlice (b : Bytes) : Ipv6Addr :=
  ⟨Vector.ofFn fun i : Fin 8 => u16OfBe (b.getD (i * 2) 0) (b.getD (i * 2 + 1) 0)⟩

/-- The addresses of a packet with the ports in its first transport bytes. -/
def flowKeyOf (proto : UInt8) (srcIp dstIp : IpAddr) (t : Bytes) : FlowKey where
  proto := proto
  src := ⟨srcIp, u16OfBe (t.getD 0 0) (t.getD 1 0)⟩
  dst := ⟨dstIp, u16OfBe (t.getD 2 0) (t.getD 3 0)⟩

/-- `parse_ipv4_flow`. -/
def parseIpv4Flow (pkt : Bytes) : Option FlowKey :=
  if pkt.length < 20 then none
  else
    let ihl := (pkt.getD 0 0 &&& 0x0f).toNat * 4
    let proto := pkt.getD 9 0
    if proto ≠ 6 ∧ proto ≠ 17 then none
    else (slice pkt ihl 4).map (flowKeyOf proto (.v4 (ipv4At pkt 12)) (.v4 (ipv4At pkt 16)))

/-- `parse_ipv6_flow`. -/
def parseIpv6Flow (pkt : Bytes) : Option FlowKey :=
  if pkt.length < 44 then none
  else
    let proto := pkt.getD 6 0
    if proto ≠ 6 ∧ proto ≠ 17 then none
    else
      let srcIp := ipv6FromSlice ((pkt.drop 8).take 16)
      let dstIp := ipv6FromSlice ((pkt.drop 24).take 16)
      (slice pkt 40 4).map (flowKeyOf proto (.v6 srcIp) (.v6 dstIp))

/-- `parse_flow_key`. -/
def parseFlowKey (pkt : Bytes) : Option FlowKey :=
  match pkt with
  | [] => none
  | b :: _ =>
      if b >>> 4 = 4 then parseIpv4Flow pkt
      else if b >>> 4 = 6 then parseIpv6Flow pkt
      else none

end Ruproxy.Wireguard
