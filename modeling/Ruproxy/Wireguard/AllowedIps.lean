/-
  Wireguard/AllowedIps.lean --- flows have sources inside the AllowedIPs.

  The main loop checks `packet_src_ip` of a decrypted packet against the networks
  of its peer; the actor of the peer reads the packet again with `parse_flow_key`.
  The two parsers agree on the source of every packet that has a flow key, so what
  the check lets through is what the flow tables get.
-/
import Ruproxy.Wireguard.Server
import Ruproxy.Wireguard.Tables

set_option autoImplicit false

namespace Ruproxy.Wireguard

open Ruproxy.Foundation
open Ruproxy.Foundation.Transition

/-! ## The two parsers -/

theorem parseIpv4Flow_src {pkt : Bytes} {key : FlowKey} (h : parseIpv4Flow pkt = some key) :
    20 ≤ pkt.length ∧ key.src.ip = .v4 (ipv4At pkt 12) := by
  unfold parseIpv4Flow at h
  dsimp only at h
  split at h
  · cases h
  rename_i hlen
  split at h
  · cases h
  · obtain ⟨t, -, rfl⟩ := Option.map_eq_some_iff.mp h
    exact ⟨Nat.le_of_not_lt hlen, rfl⟩

theorem parseIpv6Flow_src {pkt : Bytes} {key : FlowKey} (h : parseIpv6Flow pkt = some key) :
    44 ≤ pkt.length ∧ key.src.ip = .v6 (ipv6FromSlice ((pkt.drop 8).take 16)) := by
  unfold parseIpv6Flow at h
  dsimp only at h
  split at h
  · cases h
  rename_i hlen
  split at h
  · cases h
  · obtain ⟨t, -, rfl⟩ := Option.map_eq_some_iff.mp h
    exact ⟨Nat.le_of_not_lt hlen, rfl⟩

/-- The source in a flow key is the one that was checked. -/
theorem parseFlowKey_src {pkt : Bytes} {key : FlowKey} (h : parseFlowKey pkt = some key) :
    key.src.ip = packetSrcIp pkt := by
  unfold parseFlowKey at h
  split at h
  · cases h
  · rename_i b rest
    unfold packetSrcIp
    split at h
    · rename_i hv4
      obtain ⟨hlen, hsrc⟩ := parseIpv4Flow_src h
      rw [hsrc]
      exact (if_pos ⟨hv4, hlen⟩).symm
    · rename_i hv4
      split at h
      · rename_i hv6
        obtain ⟨hlen, hsrc⟩ := parseIpv6Flow_src h
        rw [hsrc]
        dsimp only
        rw [if_neg fun hc => hv4 hc.1, if_pos ⟨hv6, Nat.le_trans (by decide) hlen⟩]
      · cases h

/-! ## What the main loop delivers -/

namespace Server

variable {τ : Type} {tunn : Tunn τ}

/-- The networks of the peers are the configured ones, and a packet is delivered to the
stack of a peer only with a source inside them. -/
structure Checked (cfg : Table String (PeerConfig τ)) (s : Server τ) : Prop where
  allowedIps : ∀ pubHex, (s.peers.lookup pubHex).map Peer.allowedIps =
    (cfg.lookup pubHex).map PeerConfig.allowedIps
  delivered : ∀ pubHex pkt, (pubHex, pkt) ∈ s.delivered → ∀ c, cfg.lookup pubHex = some c →
    c.allowedIps.any (fun net => net.contains (packetSrcIp pkt)) = true

variable {cfg : Table String (PeerConfig τ)} {s s' : Server τ}

/-- A change of a peer that keeps its networks. -/
theorem Checked.modify (h : s.Checked cfg) {pubHex : String} (f : Peer τ → Peer τ)
    (hf : ∀ p, (f p).allowedIps = p.allowedIps)
    (hpeers : s'.peers = s.peers.modify pubHex f) (hdelivered : s'.delivered = s.delivered) :
    s'.Checked cfg where
  allowedIps pubHex' := by
    rw [← h.allowedIps pubHex', hpeers]
    rcases eq_or_ne pubHex' pubHex with rfl | hne
    · rw [Table.lookup_modify_self, Option.map_map]
      exact congrArg (fun g => Option.map g _) (funext hf)
    · rw [Table.lookup_modify_of_ne _ hne]
  delivered := by
    rw [hdelivered]
    exact h.delivered

theorem Checked.setTunnel (h : s.Checked cfg) (pubHex : String) (tun : τ)
    (hpeers : s'.peers = (s.setTunnel pubHex tun).peers) (hdelivered : s'.delivered = s.delivered) :
    s'.Checked cfg :=
  h.modify (fun p => { p with tunnel := tun }) (fun _ => rfl) hpeers hdelivered

theorem Checked.receive (h : s.Checked cfg) (raw : Bytes) (src : SocketAddr) :
    (s.receive raw src).Checked cfg := by
  unfold Server.receive
  split
  · exact h
  · exact h.modify (fun p => { p with lastSeen := s.now, endpoint := some src })
      (fun _ => rfl) rfl rfl

/-- The packet of a turn is delivered behind the check. -/
theorem Checked.deliver (h : s.Checked cfg) {d : Datagram} {peer : Peer τ}
    (hpeer : s.peers.lookup d.pubHex = some peer) {ipOwned : Option Bytes} {calls : Nat}
    (hstep : s.deliver tunn d peer ipOwned calls = some s') : s'.Checked cfg := by
  obtain ⟨⟨pkts, tun⟩, -, rfl⟩ := Option.map_eq_some_iff.mp hstep
  cases ipOwned with
  | none => exact h.setTunnel d.pubHex tun rfl rfl
  | some ipPkt =>
    dsimp only
    split
    · rename_i hallows
      have htunnel : (s.setTunnel d.pubHex tun).Checked cfg := h.setTunnel d.pubHex tun rfl rfl
      refine ⟨htunnel.allowedIps, fun pubHex pkt hmem c hc => ?_⟩
      rcases List.mem_append.mp hmem with hold | hnew
      · exact h.delivered pubHex pkt hold c hc
      · obtain ⟨rfl, rfl⟩ := Prod.mk.inj (List.mem_singleton.mp hnew)
        have hnets := h.allowedIps d.pubHex
        rw [hpeer, hc] at hnets
        rw [← Option.some.inj hnets]
        exact hallows
    · exact h.setTunnel d.pubHex tun rfl rfl

theorem checked_step : Preserves (step tunn) (fun _ _ => True) (Checked cfg) := by
  intro s e s' h _ hstep
  cases e with
  | elapse d =>
    cases hstep
    exact ⟨h.allowedIps, h.delivered⟩
  | datagram raw src =>
    simp only [step] at hstep
    split at hstep
    · cases hstep
      exact h.receive raw src
    · cases hstep
  | decapsulate =>
    simp only [step] at hstep
    split at hstep
    · obtain ⟨peer, -, rfl⟩ := Option.map_eq_some_iff.mp hstep
      exact h.setTunnel _ _ rfl rfl
    · cases hstep
  | deliver calls =>
    simp only [step] at hstep
    split at hstep
    · obtain ⟨peer, hpeer, hdeliver⟩ := Option.bind_eq_some_iff.mp hstep
      exact h.deliver hpeer hdeliver
    · cases hstep
  | encryptTake pubHex ipPkt =>
    simp only [step] at hstep
    split at hstep
    · split at hstep <;> cases hstep <;> exact ⟨h.allowedIps, h.delivered⟩
    · cases hstep
  | encryptSend pubHex =>
    simp only [step] at hstep
    split at hstep
    · cases hstep
      exact h.setTunnel _ _ rfl rfl
    · cases hstep
  | timerTake pubHex =>
    simp only [step] at hstep
    split at hstep
    · split at hstep <;> cases hstep <;> exact ⟨h.allowedIps, h.delivered⟩
    · cases hstep
  | timerDrain calls =>
    simp only [step] at hstep
    split at hstep
    · obtain ⟨peer, -, hdrain⟩ := Option.bind_eq_some_iff.mp hstep
      obtain ⟨⟨pkts, tun⟩, -, rfl⟩ := Option.map_eq_some_iff.mp hdrain
      exact h.setTunnel _ _ rfl rfl
    · cases hstep

theorem checked_init (now : Nat) (cfg : Table String (PeerConfig τ)) :
    (init now cfg).Checked cfg where
  allowedIps pubHex := by
    rw [init, Table.lookup_mapValues, Option.map_map]
    rfl
  delivered _ _ hmem := by cases hmem

end Server

/-! ## What the stack makes flows of -/

namespace System

/-- The keys in the tables and of the packets in the channel have a property. -/
structure KeysIn (P : FlowKey → Prop) (s : System) : Prop where
  tables : ∀ key, key ∈ s.actor.tcpFlows ∨ key ∈ s.actor.udpFlows → P key
  inbox : ∀ pkt, .inbound pkt ∈ s.inbox → ∀ key, parseFlowKey pkt = some key → P key

/-- A packet that the forwarder sends has a key with the property. -/
def KeyOf (P : FlowKey → Prop) (_ : System) : Event → Prop
  | .packet pkt => ∀ key, parseFlowKey pkt = some key → P key
  | _ => True

theorem keysIn_step {P : FlowKey → Prop} : Preserves step (KeyOf P) (KeysIn P) := by
  intro s e s' h hok hstep
  rcases step_mover hstep with ⟨env, rfl, -, hhandle⟩ | ⟨rfl, -, hproceed⟩ | ⟨-, houtside⟩
  · obtain ⟨m, inbox, -, hinbox, -, hcase⟩ := handle_eq_some hhandle
    have hrest : ∀ pkt, .inbound pkt ∈ inbox → ∀ key, parseFlowKey pkt = some key → P key := by
      intro pkt hpkt
      exact h.inbox pkt (hinbox ▸ List.mem_cons_of_mem m hpkt)
    rcases hcase with ⟨-, rfl⟩ | ⟨a', ha, rfl⟩
    · exact ⟨h.tables, hrest⟩
    · refine ⟨fun key hkey => ?_, hrest⟩
      rcases Actor.handle_keys ha hkey with htcp | hudp | ⟨pkt, rfl, hparse⟩
      · exact h.tables key (.inl htcp)
      · exact h.tables key (.inr hudp)
      · exact h.inbox pkt (hinbox ▸ List.mem_cons_self) key hparse
  · obtain ⟨hwithin, hinbox⟩ := proceed_within hproceed
    refine ⟨fun key hkey => h.tables key (hkey.imp (hwithin.tcp key) (hwithin.udp key)), ?_⟩
    rw [hinbox]
    exact h.inbox
  · have hapart := houtside.apart
    refine ⟨?_, fun pkt hpkt => ?_⟩
    · rw [hapart.tcpFlows, hapart.udpFlows]
      exact h.tables
    · rcases hapart.inbox with hsame | ⟨m, hmore, hm⟩
      · exact h.inbox pkt (hsame ▸ hpkt)
      · rw [hmore] at hpkt
        rcases List.mem_append.mp hpkt with hold | hnew
        · exact h.inbox pkt hold
        · have he := hm pkt (List.mem_singleton.mp hnew).symm
          rw [he] at hok
          exact hok

theorem keysIn_init (P : FlowKey → Prop) : init.KeysIn P where
  tables key hkey := by
    rcases hkey with hkey | hkey
    · exact absurd hkey (AList.notMem_empty key)
    · exact absurd hkey (AList.notMem_empty key)
  inbox _ hpkt := by cases hpkt

end System

/-- **AllowedIPs cover every flow.**  The source in a flow key is the one that the main
loop checks; and whatever packets of a peer the main loop has delivered, in whatever
order and interleaving the stack of the peer works on them, its flow tables only ever
have keys whose source is inside the AllowedIPs of the peer. -/
theorem flows_allowed {τ : Type} (tunn : Tunn τ) (now : Nat) (cfg : Table String (PeerConfig τ)) :
    (∀ pkt key, parseFlowKey pkt = some key → key.src.ip = packetSrcIp pkt) ∧
    ∀ (server : Server τ) (pubHex : String) (c : PeerConfig τ) (es : List Event) (s : System),
      Reachable (Server.step tunn) (Server.init now cfg) server → cfg.lookup pubHex = some c →
      (∀ pkt, .packet pkt ∈ es → (pubHex, pkt) ∈ server.delivered) →
      run System.step System.init es = some s →
        ∀ key, key ∈ s.actor.tcpFlows ∨ key ∈ s.actor.udpFlows →
          c.allowedIps.any (fun net => net.contains key.src.ip) = true := by
  refine ⟨fun pkt key => parseFlowKey_src, fun server pubHex c es s hserver hc hes hrun => ?_⟩
  have hchecked : server.Checked cfg :=
    hserver.invariant Server.checked_step (Server.checked_init now cfg)
  have hevery : Every System.step
      (System.KeyOf fun key => c.allowedIps.any (fun net => net.contains key.src.ip) = true)
      System.init es := by
    refine every_of_forall (fun _ e he => ?_) _
    cases e with
    | packet pkt =>
      intro key hkey
      rw [parseFlowKey_src hkey]
      exact hchecked.delivered pubHex pkt (hes pkt he) c hc
    | _ => trivial
  have hreach : ReachableBy System.step _ System.init s := ⟨es, hevery, hrun⟩
  exact (hreach.invariant System.keysIn_step (System.keysIn_init _)).tables

/-! ## An instance -/

/-- A tunnel without encryption. -/
def plainTunn : Tunn Unit where
  decapsulate _ _ _ raw := (.writeToTunnelV4 raw (.new 10 0 0 2), ())
  encapsulate _ _ _ := (.done, ())
  updateTimers _ _ := (.done, ())

/-- The network `10.0.0.2/32`. -/
def plainNetwork : IpNetwork := ⟨fun ip => ip = .v4 (.new 10 0 0 2)⟩

/-- A peer with this network. -/
def plainConfig : Table String (PeerConfig Unit) where
  entries := [⟨"aa", ⟨(), [plainNetwork]⟩⟩]
  nodupKeys := by simp [List.NodupKeys, List.keys]

/-- A packet from this address, a connection to port 80. -/
def plainPacket : Bytes :=
  [0x45, 0, 0, 28, 0, 0, 0, 0, 64, 6, 0, 0, 10, 0, 0, 2, 192, 0, 2, 1, 0, 200, 0, 80, 0, 8, 0, 0]

/-- Its way through the main loop to the flow table. -/
theorem flows_allowed_plainPacket :
    ∃ s, run System.step System.init [.packet plainPacket,
        .handle ⟨0, true, fun _ => ⟨.listen, 0, [], [], 0⟩⟩] = some s ∧
      s.actor.tcpFlows.keys ≠ [] ∧
      ∀ key, key ∈ s.actor.tcpFlows ∨ key ∈ s.actor.udpFlows →
        [plainNetwork].any (fun net => net.contains key.src.ip) = true := by
  have hserver : (run (Server.step plainTunn) (Server.init 0 plainConfig)
      [.datagram plainPacket ⟨.v4 (.new 203 0 113 9), 4000⟩, .decapsulate, .deliver 1]).map
        (fun s => s.delivered) = some [("aa", plainPacket)] := by decide +kernel
  obtain ⟨server, hrun, hdelivered⟩ := Option.map_eq_some_iff.mp hserver
  have hstack : (run System.step System.init [.packet plainPacket,
      .handle ⟨0, true, fun _ => ⟨.listen, 0, [], [], 0⟩⟩]).map
        (fun s => s.actor.tcpFlows.keys.length) = some 1 := by decide +kernel
  obtain ⟨s, hrun', hkeys⟩ := Option.map_eq_some_iff.mp hstack
  refine ⟨s, hrun', List.ne_nil_of_length_eq_add_one hkeys, ?_⟩
  refine (flows_allowed plainTunn 0 plainConfig).2 server "aa"
    ⟨(), [plainNetwork]⟩ _ s ⟨_, hrun⟩ rfl (fun pkt hpkt => ?_) hrun'
  rw [hdelivered]
  simpa using hpkt

end Ruproxy.Wireguard
