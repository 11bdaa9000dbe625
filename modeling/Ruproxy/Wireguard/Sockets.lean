/-
  Wireguard/Sockets.lean --- the smoltcp sockets the actor works with.

  smoltcp is a crate outside the repository.  This file states what the actor
  relies on: the socket set with its handles, the calls the actor makes on TCP
  and UDP sockets, and `Interface::poll`.  What a poll does to a socket (segments
  that arrive, acknowledgements, timers) is chosen by the environment as an
  `Effect`, and so is whether a UDP send buffer has room for a datagram; the socket
  set itself is not changed by a poll.
-/
import Ruproxy.Foundation.Bytes
import Ruproxy.Foundation.Net

set_option autoImplicit false

namespace Ruproxy.Wireguard

open Ruproxy.Foundation

/-- `TCP_TX_BUF`, the size of a TCP send buffer. -/
def tcpTxBuf : Nat := 128 * 1024
/-- `TCP_RX_BUF`, the size of a TCP receive buffer. -/
def tcpRxBuf : Nat := 128 * 1024

/-- `SocketHandle`: the index of a slot of the socket set. -/
abbrev Handle : Type := Nat

/-- A number for each flow in the order of creation.  The source has no such
number; it says here which flow a socket, a relay task or a message came from. -/
abbrev FlowId : Type := Nat

/-! ## TCP sockets -/

/-- The states of a TCP socket that listens and is never closed by its owner. -/
inductive TcpState where
  | listen
  | synReceived
  | established
  | closeWait
  | closed
  deriving DecidableEq

/-- The states a poll can take a socket to.  An opened connection never goes back,
and a closed one stays closed until it listens again. -/
def TcpState.canBecome : TcpState → TcpState → Bool
  | .listen, _ | .synReceived, _ => true
  | .established, s => s = .established || s = .closeWait || s = .closed
  | .closeWait, s => s = .closeWait || s = .closed
  | .closed, s => s = .closed

/-- The handshake is over, one way or the other. -/
def TcpState.opened : TcpState → Bool
  | .listen | .synReceived => false
  | .established | .closeWait | .closed => true

theorem TcpState.opened_of_canBecome {s t : TcpState} (h : s.canBecome t = true)
    (hs : s.opened = true) : t.opened = true := by
  cases s <;> cases t <;> simp_all [opened, canBecome]

/-- A TCP socket.  `sent` is everything that ever entered the send buffer and `una`
how much of it has left the buffer again, so the buffer holds `sent.drop una`. -/
structure TcpSocket where
  owner : FlowId
  localEndpoint : SocketAddr
  state : TcpState
  recv : Bytes
  sent : Bytes
  una : Nat
  deriving DecidableEq

namespace TcpSocket

/-- `TcpSocket::may_send`. -/
def maySend (s : TcpSocket) : Bool := s.state = .established || s.state = .closeWait

/-- `TcpSocket::may_recv`. -/
def mayRecv (s : TcpSocket) : Bool := s.state = .established || s.recv.length ≠ 0

/-- The free space of the send buffer. -/
def free (s : TcpSocket) : Nat := tcpTxBuf - (s.sent.length - s.una)

/-- `TcpSocket::send_slice`: the socket and how many bytes entered the buffer. -/
def sendSlice (s : TcpSocket) (data : Bytes) : Option (TcpSocket × Nat) :=
  if s.maySend then
    let size := min data.length s.free
    some ({ s with sent := s.sent ++ data.take size }, size)
  else none

end TcpSocket

/-! ## UDP sockets -/

/-- A UDP socket with its queues of datagrams and their remote endpoints. -/
structure UdpSocket where
  owner : FlowId
  localEndpoint : SocketAddr
  rx : List (SocketAddr × Bytes)
  tx : List (SocketAddr × Bytes)
  deriving DecidableEq

/-- `IpAddress::is_unspecified`. -/
def isUnspecified : IpAddr → Bool
  | .v4 ip => ip.octets.toList.all (· == 0)
  | .v6 ip => ip.segments.toList.all (· == 0)

/-- The endpoint `UdpSocket::send_slice` accepts. -/
def addressable (endpoint : SocketAddr) : Bool :=
  !isUnspecified endpoint.ip && endpoint.port ≠ 0

/-- `UdpSocket::send_slice`; `room` tells whether the datagram fits into the buffer. -/
def UdpSocket.sendSlice (s : UdpSocket) (room : Bool) (data : Bytes) (endpoint : SocketAddr) :
    Option UdpSocket :=
  if addressable endpoint && room then
    some { s with tx := s.tx ++ [(endpoint, data)] }
  else none

/-! ## The socket set -/

/-- A socket of the set. -/
inductive Socket where
  | tcp (s : TcpSocket)
  | udp (s : UdpSocket)
  deriving DecidableEq

/-- The flow a socket was added for. -/
def Socket.owner : Socket → FlowId
  | .tcp s => s.owner
  | .udp s => s.owner

/-- `SocketSet`: what every slot holds. -/
abbrev SocketSet : Type := Handle → Option Socket

namespace SocketSet

/-- `SocketSet::get_mut::<TcpSocket>`, `none` where it panics. -/
def getTcp (set : SocketSet) (h : Handle) : Option TcpSocket :=
  match set h with
  | some (.tcp s) => some s
  | _ => none

/-- `SocketSet::get_mut::<UdpSocket>`, `none` where it panics. -/
def getUdp (set : SocketSet) (h : Handle) : Option UdpSocket :=
  match set h with
  | some (.udp s) => some s
  | _ => none

/-- The set with a socket stored in a slot: `add` at a slot that is not in use, or
the write through `get_mut`. -/
def put (set : SocketSet) (h : Handle) (s : Socket) : SocketSet :=
  Function.update set h (some s)

/-- `SocketSet::remove`, `none` where it panics. -/
def remove (set : SocketSet) (h : Handle) : Option SocketSet :=
  match set h with
  | some _ => some (Function.update set h none)
  | none => none

theorem getTcp_eq_some {set : SocketSet} {h : Handle} {s : TcpSocket} :
    set.getTcp h = some s ↔ set h = some (.tcp s) := by
  unfold getTcp
  split <;> simp_all

theorem getUdp_eq_some {set : SocketSet} {h : Handle} {s : UdpSocket} :
    set.getUdp h = some s ↔ set h = some (.udp s) := by
  unfold getUdp
  split <;> simp_all

@[simp] theorem put_self (set : SocketSet) (h : Handle) (s : Socket) :
    set.put h s h = some s := by
  simp [put]

theorem put_of_ne (set : SocketSet) {h h' : Handle} (s : Socket) (hne : h' ≠ h) :
    set.put h s h' = set h' := by
  simp [put, hne]

end SocketSet

/-! ## Polling -/

/-- What a poll does to one socket. -/
structure Effect where
  /-- the state of a TCP socket after the poll -/
  state : TcpState
  /-- bytes that leave a TCP send buffer -/
  acked : Nat
  /-- bytes that arrive on a TCP socket -/
  received : Bytes
  /-- datagrams that arrive on a UDP socket -/
  datagrams : List (SocketAddr × Bytes)
  /-- datagrams that leave a UDP socket -/
  transmitted : Nat

/-- `Interface::poll` on a TCP socket. -/
def TcpSocket.polled (s : TcpSocket) (e : Effect) : TcpSocket :=
  { s with
    state := if s.state.canBecome e.state then e.state else s.state
    recv := s.recv ++ e.received.take (tcpRxBuf - s.recv.length)
    una := min (s.una + e.acked) s.sent.length }

/-- `Interface::poll` on a UDP socket. -/
def UdpSocket.polled (s : UdpSocket) (e : Effect) : UdpSocket :=
  { s with rx := s.rx ++ e.datagrams, tx := s.tx.drop e.transmitted }

/-- `Interface::poll` on a socket. -/
def Socket.polled (e : Effect) : Socket → Socket
  | .tcp s => .tcp (s.polled e)
  | .udp s => .udp (s.polled e)

/-- `Interface::poll` with the chosen effects. -/
def SocketSet.poll (set : SocketSet) (effects : Handle → Effect) : SocketSet :=
  fun h => (set h).map (Socket.polled (effects h))

theorem TcpSocket.polled_opened {s : TcpSocket} (e : Effect) (h : s.state.opened = true) :
    (s.polled e).state.opened = true := by
  simp only [polled]
  split
  · exact TcpState.opened_of_canBecome ‹_› h
  · exact h

end Ruproxy.Wireguard
