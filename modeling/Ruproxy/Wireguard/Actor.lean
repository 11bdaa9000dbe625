/-
  Wireguard/Actor.lean --- the per-peer actor of `wireguard/stack.rs`.

  `run_actor` owns the flow tables and the socket set and handles one message at
  a time; a function returns `none` where the source panics.  A turn of its loop may
  wait, in `flush_encrypt` for the encrypt task and in `drain_*_recv` for room in the
  channel to a relay task.  So `handle` is the turn up to its first `await`, and
  `Msg.tasks` is what is left of it; each task reads the clock for itself.  Relay
  tasks keep the handle they were started with, and send it back in their messages.

  Not in the source, and read by no branch: the flow number a message comes from
  and a socket or flow carries, and the record of what `feed_*_send` appended
  (`deliveries`) and of what the relay of a flow sent (`handled`).  The packets
  a poll produces go to `flush_encrypt`, which changes nothing here.
-/
import Ruproxy.Foundation.Table
import Ruproxy.Wireguard.FlowKey
import Ruproxy.Wireguard.Sockets

set_option autoImplicit false

namespace Ruproxy.Wireguard

open Ruproxy.Foundation

/-! ## Data -/

/-- `Msg`. -/
inductive Msg where
  | inbound (pkt : Bytes)
  | tcpData (origin : FlowId) (handle : Handle) (data : Bytes)
  | udpReply (origin : FlowId) (handle : Handle) (data : Bytes)
  | tick
  deriving DecidableEq

/-- `TcpFlow`; its `outbound_tx` ends in the relay task with the same number. -/
structure TcpFlow where
  id : FlowId
  handle : Handle
  relayStarted : Bool
  lastActive : Nat
  deriving DecidableEq

/-- `UdpFlow`; its `outbound_tx` ends in the relay task with the same number. -/
structure UdpFlow where
  id : FlowId
  handle : Handle
  lastActive : Nat
  deriving DecidableEq

/-- Where the connection of a TCP relay task stands. -/
inductive Connection where
  /-- `TcpStream::connect` is pending -/
  | connecting
  /-- it failed, the task ended and its receiver is gone -/
  | failed
  /-- connected; the `fwd` task still reads or has met the end of the stream -/
  | open (reading : Bool)
  deriving DecidableEq

/-- Where the `bwd` task of a TCP relay is. -/
inductive Writer where
  /-- in `recv`, or not started yet -/
  | receiving
  /-- in `write_all`, which has `rest` still to write -/
  | writing (rest : Bytes)
  /-- a write failed, the task ended and its receiver is gone -/
  | failed
  deriving DecidableEq

/-- The task of `spawn_tcp_relay` and what waits in its channel. -/
structure TcpRelay where
  handle : Handle
  dst : SocketAddr
  connection : Connection
  writer : Writer
  outbound : List Bytes
  deriving DecidableEq

/-- The receiver of the channel of a TCP relay is there. -/
def TcpRelay.receives (r : TcpRelay) : Bool := r.connection ≠ .failed && r.writer ≠ .failed

/-- The task of `spawn_udp_relay`, what waits in its channel, and whether it waits
for the reply to the datagram it sent last. -/
structure UdpRelay where
  handle : Handle
  outbound : List (SocketAddr × Bytes)
  waiting : Bool
  deriving DecidableEq

/-- Bytes appended to a socket: the flow they came from and the flow of the socket. -/
structure Delivery where
  origin : FlowId
  owner : FlowId
  data : Bytes
  deriving DecidableEq

/-- The locals of `run_actor` and the relay tasks it spawned. -/
structure Actor where
  sockets : SocketSet
  tcpFlows : Table FlowKey TcpFlow
  udpFlows : Table FlowKey UdpFlow
  tcpRelays : FlowId → Option TcpRelay
  udpRelays : FlowId → Option UdpRelay
  nextFlow : FlowId
  deliveries : List Delivery
  handled : FlowId → Bytes

/-- What the actor has still to do of the message it handles. -/
inductive Task where
  | startTcpRelays
  | drainTcpRecv
  /-- the turn of a flow in the loop of `drain_tcp_recv` -/
  | drainTcpFlow (key : FlowKey)
  | drainUdpRecv
  /-- the turns of a flow in the loops of `drain_udp_recv` -/
  | drainUdpFlow (key : FlowKey)
  | evictFlows
  deriving DecidableEq

/-- What the environment chooses while a message is handled: the slot `SocketSet::add`
returns, whether a UDP send buffer has room, and what the poll does to each socket. -/
structure Env where
  slot : Handle
  room : Bool
  effects : Handle → Effect

namespace Actor

/-- The locals at the start of `run_actor`. -/
def init : Actor where
  sockets _ := none
  tcpFlows := ∅
  udpFlows := ∅
  tcpRelays _ := none
  udpRelays _ := none
  nextFlow := 0
  deliveries := []
  handled _ := []

/-- `poll_inner`. -/
def poll (a : Actor) (effects : Handle → Effect) : Actor :=
  { a with sockets := a.sockets.poll effects }

/-! ## Socket creation -/

/-- `ensure_tcp`; `listen` fails on port 0 only. -/
def ensureTcp (now : Nat) (slot : Handle) (a : Actor) (key : FlowKey) : Actor :=
  if (a.tcpFlows.lookup key).isSome then a
  else if key.dst.port = 0 then a
  else
    let sock : TcpSocket :=
      { owner := a.nextFlow, localEndpoint := key.dst, state := .listen, recv := [],
        sent := [], una := 0 }
    { a with
      sockets := a.sockets.put slot (.tcp sock)
      tcpFlows := a.tcpFlows.insert key
        { id := a.nextFlow, handle := slot, relayStarted := false, lastActive := now }
      nextFlow := a.nextFlow + 1 }

/-- `ensure_udp`; `bind` fails on port 0 only. -/
def ensureUdp (now : Nat) (slot : Handle) (a : Actor) (key : FlowKey) : Actor :=
  if (a.udpFlows.lookup key).isSome then a
  else if key.dst.port = 0 then a
  else
    let sock : UdpSocket :=
      { owner := a.nextFlow, localEndpoint := key.dst, rx := [], tx := [] }
    { a with
      sockets := a.sockets.put slot (.udp sock)
      udpFlows := a.udpFlows.insert key
        { id := a.nextFlow, handle := slot, lastActive := now }
      udpRelays := Function.update a.udpRelays a.nextFlow
        (some { handle := slot, outbound := [], waiting := false })
      nextFlow := a.nextFlow + 1 }

/-! ## Starting TCP relays -/

/-- The part of `start_tcp_relays` about one flow.  The source collects the flows
first; starting one changes nothing the test of another reads. -/
def startTcpRelay (a : Actor) (key : FlowKey) : Option Actor :=
  match a.tcpFlows.lookup key with
  | none => some a
  | some f =>
      if f.relayStarted then some a
      else
        match a.sockets.getTcp f.handle with
        | none => none
        | some s =>
            if s.state = .established then
              some { a with
                tcpFlows := a.tcpFlows.insert key { f with relayStarted := true }
                tcpRelays := Function.update a.tcpRelays f.id
                  (some { handle := f.handle, dst := key.dst, connection := .connecting,
                          writer := .receiving, outbound := [] }) }
            else some a

/-- `start_tcp_relays`. -/
def startTcpRelays (a : Actor) : Option Actor := a.tcpFlows.keys.foldlM startTcpRelay a

/-! ## Draining receive buffers -/

/-- The capacity of the channel to a TCP relay. -/
def tcpOutboundCapacity : Nat := 256
/-- The capacity of the channel to a UDP relay. -/
def udpOutboundCapacity : Nat := 128

/-- `outbound_tx.send` of a TCP flow; it fails unnoticed when the receiver is gone. -/
def sendTcpOutbound (a : Actor) (id : FlowId) (data : Bytes) : Actor :=
  match a.tcpRelays id with
  | some r =>
      if r.receives then
        { a with tcpRelays :=
            Function.update a.tcpRelays id (some { r with outbound := r.outbound ++ [data] }) }
      else a
  | none => a

/-- `outbound_tx.send` of a TCP flow does not wait. -/
def tcpRoom (a : Actor) (id : FlowId) : Bool :=
  (a.tcpRelays id).all fun r => !r.receives || r.outbound.length < tcpOutboundCapacity

/-- `drain_tcp_recv` finds bytes of the flow. -/
def drains (a : Actor) (f : TcpFlow) : Bool :=
  f.relayStarted && (a.sockets.getTcp f.handle).any fun s => s.mayRecv && s.recv.length ≠ 0

/-- The body of the loop of `drain_tcp_recv`, when the `send` in it does not wait. -/
def drainTcpFlow (now : Nat) (a : Actor) (key : FlowKey) : Option Actor :=
  match a.tcpFlows.lookup key with
  | none => some a
  | some f =>
      if !f.relayStarted then some a
      else
        match a.sockets.getTcp f.handle with
        | none => none
        | some s =>
            if !s.mayRecv || s.recv.length = 0 then some a
            else
              let a := { a with
                sockets := a.sockets.put f.handle (.tcp { s with recv := [] })
                tcpFlows := a.tcpFlows.insert key { f with lastActive := now } }
              some (a.sendTcpOutbound f.id s.recv)

/-- `outbound_tx.send` of a UDP flow. -/
def sendUdpOutbound (a : Actor) (id : FlowId) (data : SocketAddr × Bytes) : Actor :=
  match a.udpRelays id with
  | some r =>
      { a with udpRelays :=
          Function.update a.udpRelays id (some { r with outbound := r.outbound ++ [data] }) }
  | none => a

/-- `outbound_tx.send` of a UDP flow does not wait. -/
def udpRoom (a : Actor) (id : FlowId) : Bool :=
  (a.udpRelays id).all fun r => r.outbound.length < udpOutboundCapacity

/-- `can_recv` of the socket of a UDP flow. -/
def canRecv (a : Actor) (f : UdpFlow) : Bool :=
  (a.sockets.getUdp f.handle).any fun s => !s.rx.isEmpty

/-- A turn of the inner loop of `drain_udp_recv`, when the `send` in it does not wait. -/
def drainUdpFlow (now : Nat) (a : Actor) (key : FlowKey) : Option Actor :=
  match a.udpFlows.lookup key with
  | none => some a
  | some f =>
      match a.sockets.getUdp f.handle with
      | none => none
      | some s =>
          match s.rx with
          | [] => some a
          | d :: rx =>
              let a := { a with
                sockets := a.sockets.put f.handle (.udp { s with rx := rx })
                udpFlows := a.udpFlows.insert key { f with lastActive := now } }
              some (a.sendUdpOutbound f.id (key.dst, d.2))

/-! ## Feeding send buffers -/

/-- `feed_tcp_send`.  The count `send_slice` returns is not looked at. -/
def feedTcpSend (a : Actor) (origin : FlowId) (handle : Handle) (data : Bytes) :
    Option Actor :=
  match a.sockets.getTcp handle with
  | none => none
  | some s =>
      match s.sendSlice data with
      | some (s', size) =>
          some { a with
            sockets := a.sockets.put handle (.tcp s')
            deliveries := a.deliveries ++
              (if size = 0 then [] else [⟨origin, s.owner, data.take size⟩]) }
      | none => some a

/-- `feed_udp_send`. -/
def feedUdpSend (room : Bool) (a : Actor) (origin : FlowId) (handle : Handle)
    (peerEp : SocketAddr) (data : Bytes) : Option Actor :=
  match a.sockets.getUdp handle with
  | none => none
  | some s =>
      match s.sendSlice room data peerEp with
      | some s' =>
          some { a with
            sockets := a.sockets.put handle (.udp s')
            deliveries := a.deliveries ++ [⟨origin, s.owner, data⟩] }
      | none => some a

/-- The source of the UDP flow with a handle, as the `UdpReply` arm looks it up. -/
def udpPeer (a : Actor) (handle : Handle) : Option SocketAddr :=
  (a.udpFlows.entries.find? fun e => e.2.handle = handle).map fun e => e.1.src

/-! ## Eviction -/

/-- `TCP_IDLE` in milliseconds. -/
def tcpIdle : Nat := 300 * 1000
/-- `UDP_IDLE` in milliseconds. -/
def udpIdle : Nat := 60 * 1000

/-- The closure given to `tcp_flows.retain`. -/
def evictTcpFlow (now : Nat) (a : Actor) (key : FlowKey) : Option Actor :=
  match a.tcpFlows.lookup key with
  | none => some a
  | some f =>
      if now - f.lastActive < tcpIdle then some a
      else
        match a.sockets.remove f.handle with
        | none => none
        | some sockets => some { a with sockets := sockets, tcpFlows := a.tcpFlows.erase key }

/-- The closure given to `udp_flows.retain`. -/
def evictUdpFlow (now : Nat) (a : Actor) (key : FlowKey) : Option Actor :=
  match a.udpFlows.lookup key with
  | none => some a
  | some f =>
      if now - f.lastActive < udpIdle then some a
      else
        match a.sockets.remove f.handle with
        | none => none
        | some sockets => some { a with sockets := sockets, udpFlows := a.udpFlows.erase key }

/-- `evict_flows`. -/
def evictFlows (now : Nat) (a : Actor) : Option Actor := do
  let a ← a.tcpFlows.keys.foldlM (evictTcpFlow now) a
  a.udpFlows.keys.foldlM (evictUdpFlow now) a

/-! ## Messages -/

/-- Step 1 of the `Inbound` arm. -/
def ensureFlow (now : Nat) (slot : Handle) (a : Actor) (pkt : Bytes) : Actor :=
  match parseFlowKey pkt with
  | some key =>
      if key.proto = 6 then ensureTcp now slot a key
      else if key.proto = 17 then ensureUdp now slot a key
      else a
  | none => a

/-- What the relay of a flow sent, up to a chunk. -/
def record (a : Actor) (origin : FlowId) (data : Bytes) : Actor :=
  { a with handled := Function.update a.handled origin (a.handled origin ++ data) }

/-- A turn of the loop of `run_actor` up to its first `await`. -/
def handle (env : Env) (now : Nat) (a : Actor) : Msg → Option Actor
  | .inbound pkt => some ((a.ensureFlow now env.slot pkt).poll env.effects)
  | .tcpData origin handle data => do
      let a ← (a.record origin data).feedTcpSend origin handle data
      some (a.poll env.effects)
  | .udpReply origin handle data =>
      match a.udpPeer handle with
      | some peerEp => do
          let a ← a.feedUdpSend env.room origin handle peerEp data
          some (a.poll env.effects)
      | none => some (a.poll env.effects)
  | .tick => some (a.poll env.effects)

end Actor

/-- The rest of the turn. -/
def Msg.tasks : Msg → List Task
  | .inbound _ => [.startTcpRelays, .drainTcpRecv, .drainUdpRecv]
  | .tcpData _ _ _ | .udpReply _ _ _ => []
  | .tick => [.drainTcpRecv, .drainUdpRecv, .startTcpRelays, .evictFlows]

namespace Actor

/-- The `send` of a task does not wait, if it comes to one. -/
def ready (a : Actor) : Task → Bool
  | .drainTcpFlow key => (a.tcpFlows.lookup key).all fun f => !a.drains f || a.tcpRoom f.id
  | .drainUdpFlow key => (a.udpFlows.lookup key).all fun f => !a.canRecv f || a.udpRoom f.id
  | .startTcpRelays | .drainTcpRecv | .drainUdpRecv | .evictFlows => true

/-- What a task does; the loops of `drain_*_recv` are taken apart by `rest`. -/
def perform (now : Nat) (a : Actor) : Task → Option Actor
  | .startTcpRelays => a.startTcpRelays
  | .drainTcpRecv | .drainUdpRecv => some a
  | .drainTcpFlow key => drainTcpFlow now a key
  | .drainUdpFlow key => drainUdpFlow now a key
  | .evictFlows => a.evictFlows now

/-- Tasks one after the other, each at its time. -/
def performAll (a : Actor) (tasks : List (Nat × Task)) : Option Actor :=
  tasks.foldlM (fun a x => a.perform x.1 x.2) a

/-- What a task leaves to be done: a turn for each flow, or the next datagram. -/
def rest (a : Actor) : Task → List Task
  | .drainTcpRecv => a.tcpFlows.keys.map .drainTcpFlow
  | .drainUdpRecv => a.udpFlows.keys.map .drainUdpFlow
  | .drainUdpFlow key =>
      if (a.udpFlows.lookup key).any a.canRecv then [.drainUdpFlow key] else []
  | .startTcpRelays | .drainTcpFlow _ | .evictFlows => []

end Actor

end Ruproxy.Wireguard
