/-
  Wireguard/Server.lean --- the main receive loop of the WireGuard server.

  The loop of `run`, the encrypt task of each peer and the timer task share the
  table of peers.  Only the loop writes endpoints and calls `decapsulate`.  A step
  ends where a task may be suspended between two uses of the table.  The methods
  of `Tunn` are parameters, and so are the networks with their test; the methods read
  the clock, and so they are given the time.
-/
import Ruproxy.Foundation.Table
import Ruproxy.Foundation.Transition
import Ruproxy.Wireguard.FlowKey

set_option autoImplicit false

namespace Ruproxy.Wireguard

open Ruproxy.Foundation

/-! ## Networks and tunnels -/

/-- `ip_network::IpNetwork`, known by the addresses it contains. -/
structure IpNetwork where
  contains : IpAddr → Bool

/-- `TunnResult`; the kind of an error is only logged. -/
inductive TunnResult where
  | done
  | err
  | writeToNetwork (pkt : Bytes)
  | writeToTunnelV4 (pkt : Bytes) (addr : Ipv4Addr)
  | writeToTunnelV6 (pkt : Bytes) (addr : Ipv6Addr)
  deriving DecidableEq

/-- The methods of `Tunn` on its state, at a time. -/
structure Tunn (τ : Type) where
  decapsulate : Nat → τ → Option IpAddr → Bytes → TunnResult × τ
  encapsulate : Nat → τ → Bytes → TunnResult × τ
  updateTimers : Nat → τ → TunnResult × τ

/-! ## The state -/

/-- `Peer`. -/
structure Peer (τ : Type) where
  tunnel : τ
  endpoint : Option SocketAddr
  allowedIps : List IpNetwork
  lastSeen : Nat

/-- `Peer::new`. -/
def Peer.new {τ : Type} (now : Nat) (tunnel : τ) (allowedIps : List IpNetwork) : Peer τ where
  tunnel := tunnel
  endpoint := none
  allowedIps := allowedIps
  lastSeen := now

/-- `Peer::allows`. -/
def Peer.allows {τ : Type} (p : Peer τ) (addr : IpAddr) : Bool :=
  p.allowedIps.any fun net => net.contains addr

/-- What a peer is configured with: its tunnel and its `allowed_ips`. -/
structure PeerConfig (τ : Type) where
  tunnel : τ
  allowedIps : List IpNetwork

/-- A datagram that was received and given to a peer.  `before` is what was recorded as
the endpoint of the peer when it came. -/
structure Datagram where
  pubHex : String
  raw : Bytes
  src : SocketAddr
  before : Option SocketAddr
  deriving DecidableEq

/-- Where the main loop is. -/
inductive MainLoop where
  /-- in `recv_from` -/
  | receiving
  /-- the endpoint is recorded, `decapsulate` has not been called -/
  | opening (d : Datagram)
  /-- `decapsulate` is done, its packet is not delivered -/
  | draining (d : Datagram) (ipOwned : Option Bytes)
  deriving DecidableEq

/-- The server after the setup of `run`. -/
structure Server (τ : Type) where
  now : Nat
  /-- `peer_map`, in the order in which it iterates -/
  peers : Table String (Peer τ)
  mainLoop : MainLoop
  /-- what an encrypt task holds between its two uses of its peer -/
  encrypting : Table String (Bytes × SocketAddr)
  /-- the peer the timer task is at, with the endpoint it has read -/
  timing : Option (String × SocketAddr)
  /-- sent on the socket -/
  sent : List (Bytes × SocketAddr)
  /-- sent to the stacks of the peers -/
  delivered : List (String × Bytes)
  /-- the datagrams given to `decapsulate`, and whether it was without error -/
  handled : List (Datagram × Bool)

/-! ## Functions -/

/-- `find_peer`; the datagram is not looked at. -/
def findPeer {τ : Type} (peers : Table String (Peer τ)) (_raw : Bytes) (src : SocketAddr) :
    Option (String × Peer τ) :=
  match peers.entries.find? fun e => e.2.endpoint = some src with
  | some e => some (e.1, e.2)
  | none => peers.entries.head?.map fun e => (e.1, e.2)

/-- `packet_src_ip`. -/
def packetSrcIp (pkt : Bytes) : IpAddr :=
  match pkt with
  | [] => .v4 (.new 0 0 0 0)
  | b :: _ =>
      if b >>> 4 = 4 ∧ 20 ≤ pkt.length then .v4 (ipv4At pkt 12)
      else if b >>> 4 = 6 ∧ 40 ≤ pkt.length then .v6 (ipv6FromSlice ((pkt.drop 8).take 16))
      else .v4 (.new 0 0 0 0)

section Tasks

variable {τ : Type} (tunn : Tunn τ)

/-- The loop over `update_timers` in `drain_timers` and in the timer task, with the packets
to send; `none` when it goes on after so many calls. -/
def drainTimers (now : Nat) : Nat → τ → Option (List Bytes × τ)
  | 0, _ => none
  | calls + 1, tun =>
      match tunn.updateTimers now tun with
      | (.writeToNetwork pkt, tun) =>
          (drainTimers now calls tun).map fun r => (pkt :: r.1, r.2)
      | (_, tun) => some ([], tun)

/-- The packet that `decapsulate` left for the tunnel. -/
def TunnResult.ipOwned : TunnResult → Option Bytes
  | .writeToTunnelV4 pkt _ => some pkt
  | .writeToTunnelV6 pkt _ => some pkt
  | _ => none

/-- The packet for the network. -/
def TunnResult.network : TunnResult → Option Bytes
  | .writeToNetwork pkt => some pkt
  | _ => none

/-- What happens next. -/
inductive ServerEvent where
  /-- time passes -/
  | elapse (d : Nat)
  /-- the main loop receives a datagram, and records where it is from -/
  | datagram (raw : Bytes) (src : SocketAddr)
  /-- the main loop decrypts -/
  | decapsulate
  /-- the main loop runs the timers of the peer, with so many calls at most, and delivers -/
  | deliver (calls : Nat)
  /-- the encrypt task of a peer takes a packet and reads the endpoint -/
  | encryptTake (pubHex : String) (ipPkt : Bytes)
  /-- it encrypts and sends -/
  | encryptSend (pubHex : String)
  /-- the timer task comes to a peer and reads its endpoint -/
  | timerTake (pubHex : String)
  /-- it runs the timers of the peer, with so many calls at most -/
  | timerDrain (calls : Nat)
  deriving DecidableEq

namespace Server

/-- The tunnel of a peer is changed. -/
def setTunnel (s : Server τ) (pubHex : String) (tun : τ) : Server τ :=
  { s with peers := s.peers.modify pubHex fun p => { p with tunnel := tun } }

/-- Packets are sent on the socket. -/
def sendTo (s : Server τ) (pkts : List Bytes) (dst : SocketAddr) : Server τ :=
  { s with sent := s.sent ++ pkts.map fun pkt => (pkt, dst) }

/-- The server when the tasks are spawned. -/
def init (now : Nat) (cfg : Table String (PeerConfig τ)) : Server τ where
  now := now
  peers := cfg.mapValues fun _ c => Peer.new now c.tunnel c.allowedIps
  mainLoop := .receiving
  encrypting := ∅
  timing := none
  sent := []
  delivered := []
  handled := []

/-- The main loop up to the call of `decapsulate`. -/
def receive (s : Server τ) (raw : Bytes) (src : SocketAddr) : Server τ :=
  match findPeer s.peers raw src with
  | none => s
  | some (pubHex, peer) =>
      { s with
        peers := s.peers.modify pubHex fun p => { p with lastSeen := s.now, endpoint := some src }
        mainLoop := .opening ⟨pubHex, raw, src, peer.endpoint⟩ }

/-- The call of `decapsulate`. -/
def decapsulate (s : Server τ) (d : Datagram) (peer : Peer τ) : Server τ :=
  let (r, tun) := tunn.decapsulate s.now peer.tunnel (some d.src.ip) d.raw
  let s := (s.setTunnel d.pubHex tun).sendTo r.network.toList d.src
  { s with
    mainLoop := .draining d r.ipOwned
    handled := s.handled ++ [(d, decide (r ≠ .err))] }

/-- The rest of a turn of the main loop: `drain_timers`, the check of the source and the
delivery to the stack. -/
def deliver (s : Server τ) (d : Datagram) (peer : Peer τ) (ipOwned : Option Bytes)
    (calls : Nat) : Option (Server τ) :=
  (drainTimers tunn s.now calls peer.tunnel).map fun (pkts, tun) =>
    let s := (s.setTunnel d.pubHex tun).sendTo pkts d.src
    let s := { s with mainLoop := .receiving }
    match ipOwned with
    | none => s
    | some ipPkt =>
        if peer.allows (packetSrcIp ipPkt) then
          { s with delivered := s.delivered ++ [(d.pubHex, ipPkt)] }
        else s

/-- The encrypt task encrypts what it holds. -/
def encryptSend (s : Server τ) (pubHex : String) (peer : Peer τ) (ipPkt : Bytes)
    (ep : SocketAddr) : Server τ :=
  let (r, tun) := tunn.encapsulate s.now peer.tunnel ipPkt
  let s := (s.setTunnel pubHex tun).sendTo r.network.toList ep
  { s with encrypting := s.encrypting.erase pubHex }

/-- The timer task runs the timers of the peer it is at. -/
def timerDrain (s : Server τ) (pubHex : String) (peer : Peer τ) (ep : SocketAddr)
    (calls : Nat) : Option (Server τ) :=
  (drainTimers tunn s.now calls peer.tunnel).map fun (pkts, tun) =>
    { (s.setTunnel pubHex tun).sendTo pkts ep with timing := none }

/-- One step. -/
def step (s : Server τ) : ServerEvent → Option (Server τ)
  | .elapse d => some { s with now := s.now + d }
  | .datagram raw src =>
      match s.mainLoop with
      | .receiving => some (s.receive raw src)
      | _ => none
  | .decapsulate =>
      match s.mainLoop with
      | .opening d => (s.peers.lookup d.pubHex).map (s.decapsulate tunn d)
      | _ => none
  | .deliver calls =>
      match s.mainLoop with
      | .draining d ipOwned =>
          (s.peers.lookup d.pubHex).bind fun peer => s.deliver tunn d peer ipOwned calls
      | _ => none
  | .encryptTake pubHex ipPkt =>
      match s.encrypting.lookup pubHex, s.peers.lookup pubHex with
      | none, some peer =>
          match peer.endpoint with
          | none => some s
          | some ep => some { s with encrypting := s.encrypting.insert pubHex (ipPkt, ep) }
      | _, _ => none
  | .encryptSend pubHex =>
      match s.encrypting.lookup pubHex, s.peers.lookup pubHex with
      | some (ipPkt, ep), some peer => some (s.encryptSend tunn pubHex peer ipPkt ep)
      | _, _ => none
  | .timerTake pubHex =>
      match s.timing, s.peers.lookup pubHex with
      | none, some peer =>
          match peer.endpoint with
          | none => some s
          | some ep => some { s with timing := some (pubHex, ep) }
      | _, _ => none
  | .timerDrain calls =>
      match s.timing with
      | some (pubHex, ep) =>
          (s.peers.lookup pubHex).bind fun peer => s.timerDrain tunn pubHex peer ep calls
      | none => none

/-- The recorded endpoint of a peer. -/
def endpointOf (s : Server τ) (pubHex : String) : Option SocketAddr :=
  (s.peers.lookup pubHex).bind Peer.endpoint

end Server

end Tasks

end Ruproxy.Wireguard
