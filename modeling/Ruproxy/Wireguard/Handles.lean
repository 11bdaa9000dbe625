/-
  Wireguard/Handles.lean --- which socket relayed data reaches.

  The `UdpReply` arm looks its handle up among the flows; the `TcpData` arm uses
  the handle of the message as it is.  A message of a flow that was evicted can
  so meet a freed slot, a UDP socket, or the socket of a newer flow.  The
  theorem says for every run when none of this happens.
-/
import Ruproxy.Wireguard.Reachable

set_option autoImplicit false

namespace Ruproxy.Wireguard

open Ruproxy.Foundation
open Ruproxy.Foundation.Transition

/-- No look-up panicked, and all data went to the socket of the flow whose relay task
produced it. -/
def System.Fresh (s : System) : Prop :=
  s.crashed = false ∧ ∀ d ∈ s.actor.deliveries, d.origin = d.owner

/-- The TCP flow is still in `tcp_flows`. -/
def Actor.TcpPresent (a : Actor) (i : FlowId) : Prop :=
  ∃ key f, a.tcpFlows.lookup key = some f ∧ f.id = i

instance (a : Actor) (i : FlowId) : Decidable (a.TcpPresent i) :=
  decidable_of_iff (∃ e ∈ a.tcpFlows.entries, e.2.id = i)
    ⟨fun ⟨e, he, hid⟩ => ⟨e.1, e.2, AList.mem_lookup_iff.mpr he, hid⟩,
      fun ⟨key, f, hf, hid⟩ => ⟨⟨key, f⟩, AList.mem_lookup_iff.mp hf, hid⟩⟩

/-- The UDP flow is still in `udp_flows`. -/
def Actor.UdpPresent (a : Actor) (i : FlowId) : Prop :=
  ∃ key f, a.udpFlows.lookup key = some f ∧ f.id = i

/-- The relayed message that is handled comes from a flow that is still there.  What is
left of evicted flows does no harm only where it cannot be taken: TCP data for the
slot of a TCP socket that may not send or is full, and a UDP reply whose handle no
UDP flow has or whose datagram that flow's socket refuses. -/
def FlowPresent (s : System) (e : Event) : Prop :=
  match e, s.inbox with
  | .handle _, .tcpData i h _ :: _ =>
      s.actor.TcpPresent i ∨
        ∃ t, s.actor.sockets h = some (.tcp t) ∧ (t.maySend = false ∨ t.free = 0)
  | .handle env, .udpReply i h _ :: _ =>
      s.actor.UdpPresent i ∨
        ∀ key f, s.actor.udpFlows.lookup key = some f → f.handle = h →
          (addressable key.src && env.room) = false
  | _, _ => True

namespace Actor

variable {a : Actor}

theorem tcpPresent_iff {i : FlowId} : a.TcpPresent i ↔ a.registry.Present .tcp i := by
  constructor
  · rintro ⟨key, f, hf, rfl⟩
    exact ⟨key, f.handle, entry_tcp.mpr ⟨f, hf, rfl, rfl⟩⟩
  · rintro ⟨key, h, he⟩
    obtain ⟨f, hf, hid, -⟩ := entry_tcp.mp he
    exact ⟨key, f, hf, hid⟩

theorem udpPresent_iff {i : FlowId} : a.UdpPresent i ↔ a.registry.Present .udp i := by
  constructor
  · rintro ⟨key, f, hf, rfl⟩
    exact ⟨key, f.handle, entry_udp.mpr ⟨f, hf, rfl, rfl⟩⟩
  · rintro ⟨key, h, he⟩
    obtain ⟨f, hf, hid, -⟩ := entry_udp.mp he
    exact ⟨key, f, hf, hid⟩

/-- The slot a message of a TCP flow names holds that flow's socket exactly while the
flow is in the table. -/
theorem TcpLinked.owner_iff (hinv : a.Inv) {i : FlowId} {h : Handle} (hl : a.TcpLinked i h)
    {t : TcpSocket} (ht : a.sockets h = some (.tcp t)) : t.owner = i ↔ a.TcpPresent i := by
  rw [tcpPresent_iff]
  constructor
  · intro howner
    exact hinv.wellFormed.present (slot_tcp.mpr ⟨t, ht, howner⟩)
  · intro hp
    obtain ⟨t', ht', howner⟩ := slot_tcp.mp (hl.1.slot hinv.wellFormed hp)
    rw [ht] at ht'
    simp only [Option.some.injEq, Socket.tcp.injEq] at ht'
    rw [ht', howner]

/-- The slot of a TCP flow that is in the table holds a TCP socket. -/
theorem TcpLinked.socket (hinv : a.Inv) {i : FlowId} {h : Handle} (hl : a.TcpLinked i h)
    (hp : a.TcpPresent i) : ∃ t, a.sockets h = some (.tcp t) := by
  obtain ⟨t, ht, -⟩ := slot_tcp.mp (hl.1.slot hinv.wellFormed (tcpPresent_iff.mp hp))
  exact ⟨t, ht⟩

theorem UdpLinked.owner_iff (hinv : a.Inv) {i : FlowId} {h : Handle} (hl : a.UdpLinked i h)
    {t : UdpSocket} (ht : a.sockets h = some (.udp t)) : t.owner = i ↔ a.UdpPresent i := by
  rw [udpPresent_iff]
  constructor
  · intro howner
    exact hinv.wellFormed.present (slot_udp.mpr ⟨t, ht, howner⟩)
  · intro hp
    obtain ⟨t', ht', howner⟩ := slot_udp.mp (Registry.Linked.slot hinv.wellFormed hl hp)
    rw [ht] at ht'
    simp only [Option.some.injEq, Socket.udp.injEq] at ht'
    rw [ht', howner]

end Actor

namespace System

/-- What feeding a TCP socket adds to the deliveries. -/
theorem fedTcp_deliveries (a : Actor) (i : FlowId) (h : Handle) (data : Bytes)
    (t : TcpSocket) :
    (a.fedTcp i h data t).deliveries = a.deliveries ++
      (if t.maySend = false ∨ t.free = 0 ∨ data = [] then []
       else [⟨i, t.owner, data.take (min data.length t.free)⟩]) := by
  unfold Actor.fedTcp
  by_cases hsend : t.maySend = true
  · have hzero : min data.length t.free = 0 ↔ t.free = 0 ∨ data = [] := by
      rw [Nat.min_eq_zero_iff, List.length_eq_zero_iff, or_comm]
    simp [hsend, hzero]
  · simp [hsend, Actor.record]

theorem fedUdp_deliveries (room : Bool) (a : Actor) (i : FlowId) (h : Handle)
    (peerEp : SocketAddr) (data : Bytes) (t : UdpSocket) :
    (a.fedUdp room i h peerEp data t).deliveries = a.deliveries ++
      (if (addressable peerEp && room) = false then [] else [⟨i, t.owner, data⟩]) := by
  unfold Actor.fedUdp
  by_cases hroom : (addressable peerEp && room) = true
  · simp [hroom]
  · simp [hroom]

/-- One more delivery, if it was not refused. -/
theorem origins_append {ds : List Delivery} (hds : ∀ d ∈ ds, d.origin = d.owner)
    (x : Delivery) (refused : Prop) [Decidable refused] :
    (∀ d ∈ ds ++ (if refused then [] else [x]), d.origin = d.owner) ↔
      x.owner = x.origin ∨ refused := by
  by_cases href : refused
  · rw [if_pos href, List.append_nil]
    exact iff_of_true hds (.inr href)
  · rw [if_neg href]
    constructor
    · intro hall
      exact .inl (hall x (by simp)).symm
    · intro hx d hd
      rcases List.mem_append.mp hd with hd | hd
      · exact hds d hd
      · obtain rfl := List.mem_singleton.mp hd
        exact (hx.resolve_right href).symm

/-- Deliveries are only ever added, and a crash is final. -/
theorem fresh_of_step {s s' : System} {e : Event} (hinv : s.Inv)
    (h : s.step e = some s') (hs' : s'.Fresh) : s.Fresh := by
  rcases step_cases hinv h with ⟨env, m, inbox, -, hcrashed, -, hhandled⟩ | ⟨-, helse⟩
  · refine ⟨hcrashed, fun d hd => hs'.2 d ?_⟩
    cases hhandled with
    | quiet _ hkeeps => exact hkeeps.2.deliveries ▸ hd
    | tcp _ =>
      show d ∈ (s.actor.fedTcp _ _ _ _).deliveries
      rw [fedTcp_deliveries]
      exact List.mem_append_left _ hd
    | panic _ => exact hd
    | udp _ _ _ _ =>
      show d ∈ (s.actor.fedUdp _ _ _ _ _ _).deliveries
      rw [fedUdp_deliveries]
      exact List.mem_append_left _ hd
    | noFlow _ => exact hd
  · exact ⟨helse.crashed ▸ hs'.1, fun d hd => hs'.2 d (helse.calm.deliveries ▸ hd)⟩

/-- **One message.**  From a state without stale data, a step leads to one exactly if
the message that is handled comes from a flow that is still there. -/
theorem fresh_step_iff {s s' : System} {e : Event} (hinv : s.Inv) (hs : s.Fresh)
    (h : s.step e = some s') : s'.Fresh ↔ FlowPresent s e := by
  rcases step_cases hinv h with ⟨env, m, inbox, rfl, hcrashed, hinbox, hhandled⟩ | ⟨hne, helse⟩
  · have hm := hinv.inbox m (by rw [hinbox]; exact List.mem_cons_self ..)
    cases hhandled with
    | quiet hquiet hkeeps =>
      have hok : FlowPresent s (.handle env) := by
        unfold FlowPresent
        rcases hquiet with rfl | ⟨pkt, rfl⟩ <;> simp [hinbox]
      exact iff_of_true ⟨hcrashed, fun d hd => hs.2 d (hkeeps.2.deliveries ▸ hd)⟩ hok
    | @tcp i hd data t ht =>
      have howner := hm.1.owner_iff hinv.actor ht
      have hok : FlowPresent s (.handle env) ↔
          s.actor.TcpPresent i ∨ (t.maySend = false ∨ t.free = 0) := by
        simp [FlowPresent, hinbox, ht]
      rw [hok, ← howner]
      have hdel : ((s.actor.fedTcp i hd data t).poll env.effects).deliveries = _ :=
        fedTcp_deliveries s.actor i hd data t
      simp only [Fresh, hdel, hcrashed, true_and]
      rw [origins_append hs.2]
      simp only [hm.2, or_false]
    | @panic i hd data hnone =>
      refine iff_of_false (fun hf => by simp [Fresh] at hf) ?_
      intro hok
      simp only [FlowPresent, hinbox] at hok
      rcases hok with hp | ⟨t, ht, -⟩
      · obtain ⟨t, ht⟩ := hm.1.socket hinv.actor hp
        exact hnone t ht
      · exact hnone t ht
    | @udp i hd data key f t hf hh ht howner =>
      have hown := Actor.UdpLinked.owner_iff hinv.actor hm ht
      have hok : FlowPresent s (.handle env) ↔
          s.actor.UdpPresent i ∨ (addressable key.src && env.room) = false := by
        simp only [FlowPresent, hinbox]
        refine or_congr_right ⟨fun hall => hall key f hf hh, fun hno key' f' hf' hh' => ?_⟩
        obtain ⟨-, rfl, -⟩ := hinv.actor.wellFormed.eq_of_slot
          (Actor.entry_udp.mpr ⟨f, hf, rfl, hh⟩) (Actor.entry_udp.mpr ⟨f', hf', rfl, hh'⟩)
        exact hno
      rw [hok, ← hown]
      have hdel :
          ((s.actor.fedUdp env.room i hd key.src data t).poll env.effects).deliveries = _ :=
        fedUdp_deliveries env.room s.actor i hd key.src data t
      simp only [Fresh, hdel, hcrashed, true_and]
      rw [origins_append hs.2]
    | @noFlow i hd data hpeer =>
      have hok : FlowPresent s (.handle env) := by
        simp only [FlowPresent, hinbox]
        exact .inr fun key f hf hh => absurd hh (Actor.udpPeer_eq_none hpeer hf)
      exact iff_of_true ⟨hcrashed, hs.2⟩ hok
  · have hok : FlowPresent s e := by
      unfold FlowPresent
      split
      · exact absurd rfl (hne _)
      · exact absurd rfl (hne _)
      · trivial
    refine iff_of_true ⟨helse.crashed.trans hs.1, fun d hd => hs.2 d ?_⟩ hok
    exact helse.calm.deliveries ▸ hd

/-- **Socket handles.**  In every run of a peer's stack, the actor never panics on a
handle and all relayed data reaches the socket of its own flow, exactly when every
relayed message that is handled comes from a flow that is still in its table, or can
be taken by no one. -/
theorem fresh_iff (es : List Event) (s : System) (h : run step init es = some s) :
    s.Fresh ↔ Every step FlowPresent init es :=
  good_iff_every step_inv fresh_of_step fresh_step_iff inv_init
    ⟨rfl, fun d hd => by simp [init, Actor.init] at hd⟩ h

end System

/-! ## Instances -/

/-- An IPv4 packet from `10.0.0.2` to `192.0.2.1` with the given protocol and ports. -/
def samplePacket (proto srcPort dstPort : UInt8) : Bytes :=
  [0x45, 0, 0, 28, 0, 0, 0, 0, 64, proto, 0, 0, 10, 0, 0, 2, 192, 0, 2, 1,
    0, srcPort, 0, dstPort, 0, 8, 0, 0]

/-- A poll that leaves TCP sockets in a state and brings every UDP socket one datagram
of a source. -/
def sampleEnv (slot : Handle) (state : TcpState) (datagrams : List (SocketAddr × Bytes)) :
    Env where
  slot := slot
  room := true
  effects _ :=
    { state := state, acked := 0, received := [], datagrams := datagrams, transmitted := 0 }

/-- The actor handles a message in a turn of so many tasks. -/
def turn (env : Env) (tasks : Nat) : List Event := .handle env :: List.replicate tasks .proceed

/-- A query to a name server and its reply. -/
def dnsRun : List Event :=
  .packet (samplePacket 17 200 53) ::
    turn (sampleEnv 0 .listen [(⟨.v4 (.new 10 0 0 2), 200⟩, [1, 2])]) 5 ++
      [.udpSend 0 true, .udpReply 0 [3, 4]] ++ turn (sampleEnv 1 .listen []) 0

/-- The reply is handled while its flow is there. -/
theorem fresh_iff_dnsRun : Every System.step FlowPresent .init dnsRun := by
  have hend : (run System.step .init dnsRun).map (fun s => (s.crashed, s.actor.deliveries)) =
      some (false, [⟨0, 0, [3, 4]⟩]) := by decide +kernel
  obtain ⟨s, hrun, hs⟩ := Option.map_eq_some_iff.mp hend
  rw [Prod.mk.injEq] at hs
  refine (System.fresh_iff dnsRun s hrun).mp ⟨hs.1, ?_⟩
  rw [hs.2]
  decide

/-- A client connects, and the relay is connected too. -/
def greetingRun : List Event :=
  .packet (samplePacket 6 200 80) :: turn (sampleEnv 0 .synReceived []) 4 ++
    .packet (samplePacket 6 200 80) :: turn (sampleEnv 1 .established []) 4 ++
    [.connect 0 true]

/-- The client is silent for 300 seconds; the tick evicts its flow just before the first
bytes of the server are handled. -/
def evictedRun : List Event :=
  greetingRun ++ [.wait 300000, .tick, .remoteData 0 [104, 105]] ++
    turn (sampleEnv 1 .established []) 5 ++ turn (sampleEnv 1 .established []) 0

/-- Data of an evicted flow panics the actor. -/
theorem not_fresh_evictedRun :
    ¬ ∀ es s, run System.step .init es = some s → s.Fresh := by
  intro hall
  have hend : (run System.step .init evictedRun).map (·.crashed) = some true := by
    decide +kernel
  obtain ⟨s, hrun, hs⟩ := Option.map_eq_some_iff.mp hend
  have hfresh := (hall evictedRun s hrun).1
  rw [hs] at hfresh
  exact absurd hfresh (by decide)

end Ruproxy.Wireguard
