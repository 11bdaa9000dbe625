/-
  Tuic/Connection.lean --- one TUIC connection of `tuic/connection.rs`.

  Every stream and every datagram is handled by a task of its own, and every reply
  of a UDP session is relayed by one; the tasks and the listeners of the sessions
  interleave freely.  A task moves from one
  `await` to the next, except that `Authenticated::set` and `wait`, which other
  threads can see half done, move from one atomic access to the next.  A stream
  is the list of the bytes it will ever give; waiting handlers time out whenever
  the schedule says so.

  `log` is not in the source: it records what the connection did, in order.
  The copy loops of a connected stream and the closing of the QUIC connection are
  left out, but for the call.
-/
import Ruproxy.Foundation.Table
import Ruproxy.Foundation.Transition
import Ruproxy.Tuic.Proto

set_option autoImplicit false

namespace Ruproxy.Tuic

open Ruproxy.Foundation

/-! ## Authentication state -/

/-- `AuthInner`. -/
structure AuthInner where
  uuid : Option Uuid
  /-- the calls of `notify_waiters` so far -/
  notified : Nat
  isAuthenticated : Bool
  deriving DecidableEq

/-- `Authenticated::new`. -/
def AuthInner.new : AuthInner where
  uuid := none
  notified := 0
  isAuthenticated := false

/-- A handler at the gate, by the next thing it does.  Outside stands the check of the
handler itself, then come the lines of `Authenticated::wait`. -/
inductive Gate where
  | outside
  | firstCheck
  | create
  /-- with a `Notified` made after that many calls of `notify_waiters` -/
  | secondCheck (created : Nat)
  | parked (created : Nat)
  deriving DecidableEq

/-- What a handler at the gate finds. -/
inductive Passage where
  | pass
  | stay (g : Gate)
  deriving DecidableEq

/-- The next access of a handler at the gate; `none` while its `Notified` sleeps. -/
def Gate.next (a : AuthInner) : Gate → Option Passage
  | .outside => some (if a.isAuthenticated then .pass else .stay .firstCheck)
  | .firstCheck => some (if a.isAuthenticated then .pass else .stay .create)
  | .create => some (.stay (.secondCheck a.notified))
  | .secondCheck created =>
      some (if a.isAuthenticated then .pass else .stay (.parked created))
  | .parked created => if created < a.notified then some .pass else none

/-! ## UDP sessions -/

/-- A `UdpSession` object, by the order of creation. -/
abbrev SessionId : Type := Nat

/-- The listener task of a UDP session. -/
inductive Listener where
  /-- in its loop; the next tick of its interval -/
  | running (deadline : Nat)
  | ended
  deriving DecidableEq

/-- `UdpSession` with its listener. -/
structure UdpSession where
  assocId : UInt16
  /-- `socket_v6` is there -/
  v6 : Bool
  /-- `close_tx` was taken and used -/
  closed : Bool
  listener : Listener
  deriving DecidableEq

/-- The address `UdpSession::send` and `recv` use for a mapped one. -/
def unmap (addr : SocketAddr) : SocketAddr :=
  match addr.ip with
  | .v6 ip =>
      match ip.toIpv4Mapped with
      | some ipv4 => ⟨.v4 ipv4, addr.port⟩
      | none => addr
  | .v4 _ => addr

/-- `UdpSession::send` has a socket for the address. -/
def UdpSession.hasSocket (x : UdpSession) (addr : SocketAddr) : Bool :=
  match addr.ip with
  | .v4 _ => true
  | .v6 _ => x.v6

/-! ## Relays -/

/-- A task that relays a reply, by the order of creation. -/
abbrev RelayId : Type := Nat

/-- Where `relay_udp_to_client` is. -/
inductive RelayStage where
  /-- in front of the lock of `udp_mode` -/
  | spawned
  /-- in `open_uni` -/
  | opening
  /-- in `write_all` -/
  | writing
  | ended
  deriving DecidableEq

/-- The task of a reply. -/
structure RelayTask where
  header : Bytes
  payload : Bytes
  stage : RelayStage
  deriving DecidableEq

/-- What the task writes. -/
def RelayTask.bytes (task : RelayTask) : Bytes := task.header ++ task.payload

/-! ## The connection -/

/-- `UdpMode`. -/
inductive UdpMode where
  | quic
  | native
  deriving DecidableEq

/-- What a connection is given: the parts of `TuicConfig` it reads and the keying
material exporter of its TLS session (label and context to 32 bytes, or an error). -/
structure Config where
  users : Table Uuid String
  udpTimeout : Nat
  udpRelayIpv6 : Bool
  maxUdpPacketSize : Nat
  exportKeyingMaterial : Bytes → Bytes → Option Bytes

abbrev TaskId : Type := Nat

/-- What a handler does once it is past the gate. -/
inductive Gated where
  | packetStream (info : PacketInfo) (recv : Bytes)
  | bi (ver cmd : UInt8) (recv : Bytes)
  | datagram (dg : Bytes)
  deriving DecidableEq

/-- A handler, by the next thing it does. -/
inductive Task where
  /-- `handle_uni` -/
  | uni (recv : Bytes)
  /-- `handle_bi` -/
  | bi (recv : Bytes)
  /-- `handle_datagram` -/
  | datagram (dg : Bytes)
  /-- `handle_authenticate` -/
  | authenticate (auth : AuthInfo)
  /-- the three lines of `Authenticated::set` -/
  | setUuid (uuid : Uuid)
  | setFlag
  | setNotify
  | dissociate (assocId : UInt16)
  | gate (g : Gate) (k : Gated)
  | passed (k : Gated)
  /-- `handle_connect`, at the dial -/
  | connect (addr : Address)
  /-- in `lookup_host` -/
  | connectResolving
  /-- in `TcpStream::connect`; the addresses that are left -/
  | connecting (addrs : List SocketAddr)
  /-- `handle_packet_data` -/
  | packet (info : PacketInfo) (payload : Bytes) (mode : UdpMode)
  /-- in `lookup_host` -/
  | packetResolving (assocId : UInt16) (payload : Bytes)
  /-- at the lock of `udp_sessions` -/
  | packetSession (assocId : UInt16) (payload : Bytes) (target : SocketAddr)
  | packetSend (session : SessionId) (payload : Bytes) (target : SocketAddr)
  deriving DecidableEq

/-- A task that reads from its stream. -/
def Task.reads : Task → Bool
  | .uni _ | .bi _ | .passed (.packetStream _ _) | .passed (.bi _ _ _) => true
  | _ => false

/-- What a connection did. -/
inductive Action where
  /-- an Authenticate command was processed -/
  | authenticate (uuid : Uuid) (token : Bytes)
  | close (reason : String)
  | resolve (name : String) (port : UInt16)
  | dial (addr : SocketAddr)
  | newUdpSession (assocId : UInt16)
  | udpSend (session : SessionId) (payload : Bytes) (target : SocketAddr)
  /-- a relay sent a datagram, or finished a stream with these bytes -/
  | relay (r : RelayId) (mode : UdpMode) (bytes : Bytes)
  deriving DecidableEq

/-- `Connection` with its tasks. -/
structure Connection where
  auth : AuthInner
  udpMode : Option UdpMode
  udpSessions : Table UInt16 SessionId
  sessions : SessionId → Option UdpSession
  nextSession : Nat
  relayTasks : List RelayTask
  tasks : Table TaskId Task
  now : Nat
  log : List Action

/-- What happens next. -/
inductive Event where
  | acceptUni (t : TaskId) (recv : Bytes)
  | acceptBi (t : TaskId) (recv : Bytes)
  | readDatagram (t : TaskId) (dg : Bytes)
  /-- a task goes on -/
  | advance (t : TaskId)
  /-- a task fails to read from its stream -/
  | broken (t : TaskId)
  /-- the `sleep` of a handler at the gate is over -/
  | timeout (t : TaskId)
  /-- `lookup_host` returns -/
  | resolved (t : TaskId) (addrs : Option (List SocketAddr))
  /-- `TcpStream::connect` returns -/
  | connected (t : TaskId) (ok : Bool)
  /-- a packet gets the lock of `udp_sessions`; new sockets could be opened -/
  | session (t : TaskId) (sockets : Bool)
  /-- a relay goes on; `send_datagram` would succeed -/
  | relay (r : RelayId) (sent : Bool)
  /-- `open_uni` returns to a relay -/
  | opened (r : RelayId) (ok : Bool)
  /-- a relay is through with its stream, which took that many bytes -/
  | written (r : RelayId) (n : Nat)
  /-- a socket of a session receives a datagram; the packet id of the reply -/
  | reply (g : SessionId) (pktId : UInt16) (pkt : Bytes) (addr : SocketAddr)
  | recvError (g : SessionId)
  /-- the interval of a listener ticks -/
  | tick (g : SessionId)
  /-- a listener learns that its session was closed -/
  | closed (g : SessionId)
  /-- the authentication watchdog wakes -/
  | watchdog
  | wait (ms : Nat)

namespace Connection

/-- `Connection::new`. -/
def new : Connection where
  auth := .new
  udpMode := none
  udpSessions := ∅
  sessions _ := none
  nextSession := 0
  relayTasks := []
  tasks := ∅
  now := 0
  log := []

/-- A task goes on. -/
def setTask (s : Connection) (t : TaskId) (task : Task) : Connection :=
  { s with tasks := s.tasks.insert t task }

/-- A task ends. -/
def endTask (s : Connection) (t : TaskId) : Connection :=
  { s with tasks := s.tasks.erase t }

/-- The connection does something that is seen outside. -/
def record (s : Connection) (a : Action) : Connection :=
  { s with log := s.log ++ [a] }

/-- A session changes. -/
def setSession (s : Connection) (g : SessionId) (x : UdpSession) : Connection :=
  { s with sessions := Function.update s.sessions g (some x) }

/-- A relay goes on. -/
def setRelay (s : Connection) (r : RelayId) (task : RelayTask) : Connection :=
  { s with relayTasks := s.relayTasks.set r task }

/-- `tokio::spawn` of a handler. -/
def spawn (s : Connection) (t : TaskId) (task : Task) : Option Connection :=
  if (s.tasks.lookup t).isSome then none else some (s.setTask t task)

/-! ### Handlers -/

/-- `handle_uni`, up to the handler of its command. -/
def handleUni (s : Connection) (t : TaskId) (recv : Bytes) : Connection :=
  match readExact 2 recv with
  | some ([ver, cmd], recv) =>
      if isTuicPrefix ver cmd then
        match parseCommandWithPrefix ver cmd recv with
        | .ok (.authenticate auth, _) => s.setTask t (.authenticate auth)
        | .ok (.packet info, recv) => s.setTask t (.gate .outside (.packetStream info recv))
        | .ok (.dissociate assocId, _) => s.setTask t (.dissociate assocId)
        | .ok _ | .error _ => s.endTask t
      else s.endTask t
  | _ => s.endTask t

/-- `handle_bi`, up to the gate. -/
def handleBi (s : Connection) (t : TaskId) (recv : Bytes) : Connection :=
  match readExact 2 recv with
  | some ([ver, cmd], recv) =>
      if isTuicPrefix ver cmd then s.setTask t (.gate .outside (.bi ver cmd recv))
      else s.endTask t
  | _ => s.endTask t

/-- `handle_datagram`, up to the gate. -/
def handleDatagram (s : Connection) (t : TaskId) (dg : Bytes) : Connection :=
  match dg with
  | ver :: cmd :: _ =>
      if isTuicPrefix ver cmd then s.setTask t (.gate .outside (.datagram dg)) else s.endTask t
  | _ => s.endTask t

/-- What the handlers do past the gate. -/
def pass (s : Connection) (t : TaskId) : Gated → Connection
  | .packetStream info recv =>
      match readExact info.size.toNat recv with
      | some (payload, _) => s.setTask t (.packet info payload .quic)
      | none => s.endTask t
  | .bi ver cmd recv =>
      match parseCommandWithPrefix ver cmd recv with
      | .ok (.connect addr, _) => s.setTask t (.connect addr)
      | .ok _ | .error _ => s.endTask t
  | .datagram dg =>
      match readFromDatagram dg with
      | .ok (.packet info) =>
          let hdrLen := 2 + 8 + info.addr.toBytes.length
          if dg.length < hdrLen then s.endTask t
          else s.setTask t (.packet info (dg.drop hdrLen) .native)
      | .ok _ | .error _ => s.endTask t

/-- `validate_token`. -/
def validateToken (c : Config) (uuid : Uuid) (password : String) (token : Bytes) : Bool :=
  match c.exportKeyingMaterial uuid (asBytes password) with
  | some expected => expected = token
  | none => false

/-- `handle_authenticate`, up to `set`. -/
def handleAuthenticate (c : Config) (s : Connection) (t : TaskId) (auth : AuthInfo) :
    Connection :=
  if s.auth.isAuthenticated then s.endTask t
  else
    let s := s.record (.authenticate auth.uuid auth.token)
    let valid := match c.users.lookup auth.uuid with
      | some password => validateToken c auth.uuid password auth.token
      | none => false
    if valid then s.setTask t (.setUuid auth.uuid)
    else (s.record (.close "auth failed")).endTask t

/-- The loop of `dial_tcp`, at the next address. -/
def dialNext (s : Connection) (t : TaskId) : List SocketAddr → Connection
  | [] => s.endTask t
  | addr :: addrs => (s.record (.dial addr)).setTask t (.connecting addrs)

/-- `handle_connect`, up to the name resolution of `dial_tcp`. -/
def handleConnect (s : Connection) (t : TaskId) : Address → Connection
  | .none => s.endTask t
  | .socket addr => s.dialNext t [addr]
  | .domain name port => (s.record (.resolve name port)).setTask t .connectResolving

/-- `handle_packet_data`, up to the name resolution. -/
def handlePacketData (s : Connection) (t : TaskId) (info : PacketInfo) (payload : Bytes)
    (mode : UdpMode) : Connection :=
  let s := { s with udpMode := some (s.udpMode.getD mode) }
  if info.fragTotal ≠ 1 then s.endTask t
  else
    match info.addr with
    | .none => s.endTask t
    | .socket addr => s.setTask t (.packetSession info.assocId payload addr)
    | .domain name port =>
        (s.record (.resolve name port)).setTask t (.packetResolving info.assocId payload)

/-- `UdpSession::new` with the spawn of its listener; a zero interval panics the
listener. -/
def newUdpSession (c : Config) (s : Connection) (assocId : UInt16) : Connection × SessionId :=
  let g := s.nextSession
  let x : UdpSession :=
    { assocId := assocId, v6 := c.udpRelayIpv6, closed := false,
      listener := if c.udpTimeout = 0 then .ended else .running (s.now + c.udpTimeout) }
  ({ s.record (.newUdpSession assocId) with
      udpSessions := s.udpSessions.insert assocId g
      sessions := Function.update s.sessions g (some x)
      nextSession := g + 1 }, g)

/-- `handle_packet_data` under the lock of `udp_sessions`. -/
def packetSession (c : Config) (s : Connection) (t : TaskId) (assocId : UInt16)
    (payload : Bytes) (target : SocketAddr) (sockets : Bool) : Connection :=
  match s.udpSessions.lookup assocId with
  | some g => s.setTask t (.packetSend g payload target)
  | none =>
      if sockets then
        let (s, g) := newUdpSession c s assocId
        s.setTask t (.packetSend g payload target)
      else s.endTask t

/-- `UdpSession::send`. -/
def packetSend (s : Connection) (t : TaskId) (g : SessionId) (payload : Bytes)
    (target : SocketAddr) : Connection :=
  match s.sessions g with
  | some x =>
      if x.hasSocket (unmap target) then
        (s.record (.udpSend g payload (unmap target))).endTask t
      else s.endTask t
  | none => s.endTask t

/-- `handle_dissociate` with `UdpSession::close`. -/
def handleDissociate (s : Connection) (t : TaskId) (assocId : UInt16) : Connection :=
  match s.udpSessions.lookup assocId with
  | some g =>
      let s := { s with udpSessions := s.udpSessions.erase assocId }
      match s.sessions g with
      | some x => (s.setSession g { x with closed := true }).endTask t
      | none => s.endTask t
  | none => s.endTask t

/-- `relay_udp_to_client`, up to `open_uni`. -/
def relayUdpToClient (s : Connection) (r : RelayId) (task : RelayTask) (sent : Bool) :
    Connection :=
  match s.udpMode with
  | some .native | none =>
      let s := s.setRelay r { task with stage := .ended }
      if sent then s.record (.relay r .native task.bytes) else s
  | some .quic => s.setRelay r { task with stage := .opening }

/-- The next step of a handler. -/
def advance (c : Config) (s : Connection) (t : TaskId) : Task → Option Connection
  | .uni recv => some (s.handleUni t recv)
  | .bi recv => some (s.handleBi t recv)
  | .datagram dg => some (s.handleDatagram t dg)
  | .authenticate auth => some (handleAuthenticate c s t auth)
  | .setUuid uuid => some ({ s with auth := { s.auth with uuid := some uuid } }.setTask t .setFlag)
  | .setFlag =>
      some ({ s with auth := { s.auth with isAuthenticated := true } }.setTask t .setNotify)
  | .setNotify =>
      some ({ s with auth := { s.auth with notified := s.auth.notified + 1 } }.endTask t)
  | .dissociate assocId => some (s.handleDissociate t assocId)
  | .gate g k =>
      match g.next s.auth with
      | some .pass => some (s.setTask t (.passed k))
      | some (.stay g) => some (s.setTask t (.gate g k))
      | none => none
  | .passed k => some (s.pass t k)
  | .connect addr => some (s.handleConnect t addr)
  | .packet info payload mode => some (s.handlePacketData t info payload mode)
  | .packetSend g payload target => some (s.packetSend t g payload target)
  | .connectResolving | .connecting _ | .packetResolving _ _ | .packetSession _ _ _ => none

/-- One step; `none` where the event cannot happen. -/
def step (c : Config) (s : Connection) : Event → Option Connection
  | .acceptUni t recv => s.spawn t (.uni recv)
  | .acceptBi t recv => s.spawn t (.bi recv)
  | .readDatagram t dg => s.spawn t (.datagram dg)
  | .advance t =>
      match s.tasks.lookup t with
      | some task => advance c s t task
      | none => none
  | .broken t =>
      match s.tasks.lookup t with
      | some task => if task.reads then some (s.endTask t) else none
      | none => none
  | .timeout t =>
      match s.tasks.lookup t with
      | some (.gate g _) => if g = .outside then none else some (s.endTask t)
      | _ => none
  | .resolved t addrs =>
      match s.tasks.lookup t with
      | some .connectResolving => some (s.dialNext t (addrs.getD []))
      | some (.packetResolving assocId payload) =>
          match addrs.getD [] with
          | addr :: _ => some (s.setTask t (.packetSession assocId payload addr))
          | [] => some (s.endTask t)
      | _ => none
  | .connected t ok =>
      match s.tasks.lookup t with
      | some (.connecting addrs) => some (if ok then s.endTask t else s.dialNext t addrs)
      | _ => none
  | .session t sockets =>
      match s.tasks.lookup t with
      | some (.packetSession assocId payload target) =>
          some (packetSession c s t assocId payload target sockets)
      | _ => none
  | .reply g pktId pkt addr =>
      match s.sessions g with
      | some x =>
          match x.listener with
          | .running _ =>
              let pkt := pkt.take c.maxUdpPacketSize
              let header := buildPacketHeader x.assocId pktId (.socket (unmap addr))
                (UInt16.ofNat pkt.length)
              let x := { x with listener := .running (s.now + c.udpTimeout) }
              some { s.setSession g x with
                relayTasks := s.relayTasks ++ [⟨header, pkt, .spawned⟩] }
          | .ended => none
      | none => none
  | .recvError g =>
      match s.sessions g with
      | some x =>
          match x.listener with
          | .running _ =>
              some (s.setSession g { x with listener := .running (s.now + c.udpTimeout) })
          | .ended => none
      | none => none
  | .tick g =>
      match s.sessions g with
      | some x =>
          match x.listener with
          | .running deadline =>
              if deadline ≤ s.now then some (s.setSession g { x with listener := .ended })
              else none
          | .ended => none
      | none => none
  | .closed g =>
      match s.sessions g with
      | some x =>
          if x.closed ∧ x.listener ≠ .ended then some (s.setSession g { x with listener := .ended })
          else none
      | none => none
  | .relay r sent =>
      match s.relayTasks[r]? with
      | some task =>
          if task.stage = .spawned then some (s.relayUdpToClient r task sent) else none
      | none => none
  | .opened r ok =>
      match s.relayTasks[r]? with
      | some task =>
          if task.stage = .opening then
            some (s.setRelay r { task with stage := if ok then .writing else .ended })
          else none
      | none => none
  | .written r n =>
      match s.relayTasks[r]? with
      | some task =>
          if task.stage = .writing then
            some ((s.setRelay r { task with stage := .ended }).record
              (.relay r .quic (task.bytes.take n)))
          else none
      | none => none
  | .watchdog =>
      if s.auth.isAuthenticated then some s else some (s.record (.close "auth timeout"))
  | .wait ms => some { s with now := s.now + ms }

end Connection

end Ruproxy.Tuic
