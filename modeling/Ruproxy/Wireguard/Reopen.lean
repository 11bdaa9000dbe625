/-
  Wireguard/Reopen.lean --- a second connection under the key of an ended one.

  `ensure_tcp` asks only whether the key has a flow.  A socket that has returned to
  `Closed` stays so, and its flow stays in the table until `evict_flows` takes it out;
  until then no packet of the key meets a listening socket.
-/
import Ruproxy.Wireguard.Tables
import Ruproxy.Wireguard.Handles

set_option autoImplicit false

namespace Ruproxy.Wireguard

open Ruproxy.Foundation
open Ruproxy.Foundation.Transition

namespace Actor

variable {a a' : Actor}

/-- The key is mapped to a socket that listens at its destination, and no relay was
started for it. -/
def Awaits (a : Actor) (key : FlowKey) : Prop :=
  ∃ f sock, a.tcpFlows.lookup key = some f ∧ f.relayStarted = false ∧
    a.sockets f.handle = some (.tcp sock) ∧ sock.state = .listen ∧
    sock.localEndpoint = key.dst

/-- What is left of the connection of a flow is `Closed`. -/
def Ended (a : Actor) (i : FlowId) : Prop :=
  ∀ h sock, a.sockets h = some (.tcp sock) → sock.owner = i → sock.state = .closed

/-! ## Ended connections -/

/-- A flow has one socket. -/
theorem Inv.ended (hinv : a.Inv) {key : FlowKey} {f : TcpFlow} {sock : TcpSocket}
    (hf : a.tcpFlows.lookup key = some f) (hsock : a.sockets f.handle = some (.tcp sock))
    (hclosed : sock.state = .closed) : a.Ended f.id := by
  intro h sock' hsock' howner
  have hlinked := hinv.wellFormed.linked_entry (entry_tcp.mpr ⟨f, hf, rfl, rfl⟩)
  obtain ⟨key', hkey'⟩ := hinv.wellFormed.owned (slot_tcp.mpr ⟨sock', hsock', howner⟩)
  obtain rfl := hlinked.2 key' h hkey'
  rw [hsock] at hsock'
  cases hsock'
  exact hclosed

theorem Calm.ended (h : a.Calm a') {i : FlowId} (hi : i < a.nextFlow) (he : a.Ended i) :
    a'.Ended i := by
  intro hd sock' hsock' howner
  rcases h.streams hd sock' hsock' with ⟨sock, hsock, hcont⟩ | ⟨hnew, -⟩
  · by_contra hopen
    exact hcont.closed hopen (he hd sock hsock (hcont.owner ▸ howner))
  · exact absurd hi (Nat.not_lt.mpr (howner ▸ hnew))

/-- Relayed data does not open a socket. -/
theorem Ended.fedTcp {i : FlowId} (he : a.Ended i) (origin : FlowId) {handle : Handle}
    (data : Bytes) {sock : TcpSocket} (hsock : a.sockets handle = some (.tcp sock)) :
    (a.fedTcp origin handle data sock).Ended i := by
  unfold Actor.fedTcp
  split
  · intro h sock' hsock' howner
    rcases tcp_of_put hsock' with ⟨-, heq⟩ | ⟨-, hold⟩
    · cases heq
      exact he handle sock hsock howner
    · exact he h sock' hold howner
  · exact he

theorem Ended.fedUdp {i : FlowId} (he : a.Ended i) (room : Bool) (origin : FlowId)
    (handle : Handle) (peerEp : SocketAddr) (data : Bytes) (sock : UdpSocket) :
    (a.fedUdp room origin handle peerEp data sock).Ended i := by
  unfold Actor.fedUdp
  split
  · intro h sock' hsock' howner
    rcases tcp_of_put hsock' with ⟨-, heq⟩ | ⟨-, hold⟩
    · cases heq
    · exact he h sock' hold howner
  · exact he

/-! ## Keys with a port -/

/-- Every TCP flow has a port to listen on. -/
def Ports (a : Actor) : Prop := ∀ key ∈ a.tcpFlows, key.dst.port ≠ 0

theorem Ports.within (h : a.Ports) (hwithin : a.Within a') : a'.Ports :=
  fun key hkey => h key (hwithin.tcp key hkey)

theorem Ports.ensureFlow (h : a.Ports) (now : Nat) (slot : Handle) (pkt : Bytes) :
    (a.ensureFlow now slot pkt).Ports := by
  unfold Actor.ensureFlow
  split
  · split
    · unfold ensureTcp
      split
      · exact h
      split
      · exact h
      rename_i hport
      intro key hkey
      rcases AList.mem_insert _ |>.mp hkey with rfl | hkey
      · exact hport
      · exact h key hkey
    split
    · unfold ensureUdp
      split
      · exact h
      split
      · exact h
      · exact h
    · exact h
  · exact h

/-! ## One packet -/

/-- A key that has a flow keeps it. -/
theorem ensureFlow_of_lookup {key : FlowKey} {f : TcpFlow} (hf : a.tcpFlows.lookup key = some f)
    {pkt : Bytes} (hpkt : parseFlowKey pkt = some key) (hproto : key.proto = 6) (now : Nat)
    (slot : Handle) : a.ensureFlow now slot pkt = a := by
  unfold ensureFlow ensureTcp
  simp [hpkt, hproto, hf]

/-- A key without a flow gets a socket that listens. -/
theorem ensureFlow_awaits {key : FlowKey} (hnone : a.tcpFlows.lookup key = none)
    (hport : key.dst.port ≠ 0) {pkt : Bytes} (hpkt : parseFlowKey pkt = some key)
    (hproto : key.proto = 6) (now : Nat) (slot : Handle) :
    (a.ensureFlow now slot pkt).Awaits key := by
  have heq : a.ensureFlow now slot pkt = ensureTcp now slot a key := by
    simp [ensureFlow, hpkt, hproto]
  rw [heq]
  unfold ensureTcp
  rw [if_neg (by simp [hnone]), if_neg hport]
  exact ⟨_, _, AList.lookup_insert _, rfl, SocketSet.put_self .., rfl, rfl⟩

/-- The packet of a key whose flow has ended meets no listening socket. -/
theorem Ended.not_awaits (hinv : a.Inv) {key : FlowKey} {f : TcpFlow}
    (hf : a.tcpFlows.lookup key = some f) (he : a.Ended f.id) : ¬ a.Awaits key := by
  rintro ⟨g, sock, hg, -, hsock, hlisten, -⟩
  rw [hf] at hg
  cases hg
  obtain ⟨sock', hsock', howner⟩ := hinv.tcpSocket hf
  have hclosed := he _ sock' hsock' howner
  rw [hsock] at hsock'
  cases hsock'
  rw [hlisten] at hclosed
  cases hclosed

end Actor

namespace System

/-! ## Runs -/

/-- A connection has ended. -/
structure Over (i : FlowId) (s : System) : Prop where
  inv : s.Inv
  old : i < s.actor.nextFlow
  ended : s.actor.Ended i

/-- Handling a message opens no connection that has ended. -/
theorem Handled.ended {s s' : System} {env : Env} {m : Msg} {inbox : List Msg} {i : FlowId}
    (hi : i < s.actor.nextFlow) (he : s.actor.Ended i) (h : Handled s env inbox m s') :
    s'.actor.Ended i := by
  have hpolled : ∀ {a : Actor}, s.actor.Steady a → a.Ended i → (a.poll env.effects).Ended i :=
    fun ha hended => (Actor.poll_calm _ env.effects).ended
      (hi.trans_le ha.evolves.next_le) hended
  cases h with
  | quiet _ hkeeps => exact hkeeps.2.ended hi he
  | @tcp j hd data t ht => exact hpolled (Actor.fedTcp_steady j data ht) (he.fedTcp j data ht)
  | panic _ => exact he
  | @udp j hd data key f t _ _ ht _ =>
    exact hpolled (Actor.fedUdp_steady env.room j key.src data ht)
      (he.fedUdp env.room j hd key.src data t)
  | noFlow _ => exact hpolled (Actor.Calm.refl _).steady he

/-- An ended connection stays ended. -/
theorem over_step (i : FlowId) : Preserves step (fun _ _ => True) (Over i) := by
  rintro s e s' ⟨hinv, hold, hended⟩ - h
  have hnext := (step_steady hinv h).evolves.next_le
  refine ⟨step_inv hinv trivial h, hold.trans_le hnext, ?_⟩
  rcases step_cases hinv h with ⟨env, m, inbox, -, -, -, hhandled⟩ | ⟨-, helse⟩
  · exact hhandled.ended hold hended
  · exact helse.calm.ended hold hended

theorem ports_step : Preserves step (fun _ _ => True) (fun s => s.actor.Ports) := by
  intro s e s' hports _ h
  rcases step_mover h with ⟨env, rfl, -, hhandle⟩ | ⟨rfl, -, hproceed⟩ | ⟨-, houtside⟩
  · obtain ⟨m, inbox, -, -, -, ⟨-, rfl⟩ | ⟨a', ha', rfl⟩⟩ := handle_eq_some hhandle
    · exact hports
    rcases Actor.handle_within ha' with ⟨pkt, -, hwithin⟩ | hwithin
    · exact (hports.ensureFlow s.now env.slot pkt).within hwithin
    · exact hports.within hwithin
  · exact hports.within (proceed_within hproceed).1
  · intro key hkey
    rw [houtside.apart.tcpFlows] at hkey
    exact hports key hkey

/-- **Connections that ended.**  Take any run in which a flow of a key has a `Closed`
socket, and any way it goes on without a newer flow of the key.  A TCP packet of the key
then finds, after `ensure_tcp`, a listening socket without a relay exactly when
`evict_flows` has taken the old flow out of the table. -/
theorem reopened_iff {es es' : List Event} {s t : System} (hs : run step init es = some s)
    {key : FlowKey} {f : TcpFlow} {sock : TcpSocket}
    (hf : s.actor.tcpFlows.lookup key = some f)
    (hsock : s.actor.sockets f.handle = some (.tcp sock)) (hclosed : sock.state = .closed)
    (ht : run step s es' = some t)
    (hlast : ∀ g, t.actor.tcpFlows.lookup key = some g → g.id = f.id)
    {pkt : Bytes} (hpkt : parseFlowKey pkt = some key) (hproto : key.proto = 6) (slot : Handle) :
    (t.actor.ensureFlow t.now slot pkt).Awaits key ↔ t.actor.tcpFlows.lookup key = none := by
  have hinv : s.Inv := Reachable.invariant step_inv inv_init ⟨es, hs⟩
  have hlinked := hinv.actor.wellFormed.linked_entry (Actor.entry_tcp.mpr ⟨f, hf, rfl, rfl⟩)
  have hover : Over f.id t := Reachable.invariant (over_step f.id)
    ⟨hinv, hlinked.1, hinv.actor.ended hf hsock hclosed⟩ ⟨es', ht⟩
  constructor
  · intro hawaits
    cases hg : t.actor.tcpFlows.lookup key with
    | none => rfl
    | some g =>
      rw [Actor.ensureFlow_of_lookup hg hpkt hproto] at hawaits
      have hended : t.actor.Ended g.id := hlast g hg ▸ hover.ended
      exact absurd hawaits (hended.not_awaits hover.inv.actor hg)
  · intro hnone
    have hinit : init.actor.Ports := fun key hkey => absurd hkey (AList.notMem_empty key)
    have hports := Reachable.invariant ports_step hinit ⟨es, hs⟩
    have hport : key.dst.port ≠ 0 := hports key (AList.lookup_isSome.mp (by rw [hf]; rfl))
    exact Actor.ensureFlow_awaits hnone hport hpkt hproto t.now slot

end System

/-! ## Instances -/

/-- The key of the packets of `closedRun`. -/
def closedKey : FlowKey :=
  ⟨6, ⟨.v4 (.new 10 0 0 2), 200⟩, ⟨.v4 (.new 192 0 2 1), 80⟩⟩

/-- A connection is made and reset by its client. -/
def closedRun : List Event :=
  .packet (samplePacket 6 200 80) :: turn (sampleEnv 0 .synReceived []) 4 ++
    .packet (samplePacket 6 200 80) :: turn (sampleEnv 1 .established []) 4 ++
    .packet (samplePacket 6 200 80) :: turn (sampleEnv 1 .closed []) 4

/-- Five minutes later the ticker lets the actor evict its flow. -/
def idleRun : List Event := [.wait 300000, .tick] ++ turn (sampleEnv 1 .closed []) 5

theorem closedRun_state :
    ∃ s, run System.step .init closedRun = some s ∧
      s.actor.tcpFlows.lookup closedKey = some ⟨0, 0, true, 0⟩ ∧
      s.actor.sockets 0 = some (.tcp ⟨0, closedKey.dst, .closed, [], [], 0⟩) ∧
      s.actor.sockets 1 = none := by
  have hend : (run System.step .init closedRun).map
      (fun s => (s.actor.tcpFlows.lookup closedKey, s.actor.sockets 0, s.actor.sockets 1)) =
        some (some ⟨0, 0, true, 0⟩,
          some (.tcp ⟨0, closedKey.dst, .closed, [], [], 0⟩), none) := by
    decide +kernel
  obtain ⟨s, hrun, hs⟩ := Option.map_eq_some_iff.mp hend
  simp only [Prod.mk.injEq] at hs
  exact ⟨s, hrun, hs⟩

/-- After the eviction the connection can be made again. -/
theorem reopened_iff_idleRun :
    ∃ t, run System.step .init (closedRun ++ idleRun) = some t ∧
      (t.actor.ensureFlow t.now 0 (samplePacket 6 200 80)).Awaits closedKey := by
  obtain ⟨s, hrun, hf, hsock, -⟩ := closedRun_state
  have hend : (run System.step .init (closedRun ++ idleRun)).map
      (fun t => t.actor.tcpFlows.lookup closedKey) = some none := by
    decide +kernel
  obtain ⟨t, hwhole, hnone⟩ := Option.map_eq_some_iff.mp hend
  have hrun' : run System.step s idleRun = some t := by
    rwa [run_append, hrun] at hwhole
  refine ⟨t, hwhole, ?_⟩
  refine (System.reopened_iff hrun hf hsock rfl hrun' ?_ (by decide) rfl 0).mpr hnone
  rw [hnone]
  rintro g ⟨⟩

/-- Before it the packets of the client find the closed socket. -/
theorem not_reopened :
    ¬ ∀ es s key f sock slot pkt, run System.step .init es = some s →
      s.actor.tcpFlows.lookup key = some f → s.actor.sockets f.handle = some (.tcp sock) →
      sock.state = .closed → parseFlowKey pkt = some key → key.proto = 6 →
      s.actor.sockets slot = none → (s.actor.ensureFlow s.now slot pkt).Awaits key := by
  intro hall
  obtain ⟨s, hrun, hf, hsock, hslot⟩ := closedRun_state
  have hawaits := hall closedRun s closedKey _ _ 1 (samplePacket 6 200 80) hrun hf hsock rfl
    (by decide) rfl hslot
  rw [Actor.ensureFlow_of_lookup hf (by decide) rfl] at hawaits
  obtain ⟨g, sock, hg, hstarted, -⟩ := hawaits
  rw [hf] at hg
  cases hg
  cases hstarted

end Ruproxy.Wireguard
