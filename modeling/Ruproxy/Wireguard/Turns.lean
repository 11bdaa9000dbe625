/-
  Wireguard/Turns.lean --- what one turn of the loops of the actor does.

  `startTcpRelay`, `drainTcpFlow` and the others are the bodies of loops over the flow
  tables.  A turn leaves the actor as it is, or does one thing to the flow of its key.
  Each lemma below tells the two apart, with what the flow and its socket are like.
-/
import Ruproxy.Wireguard.Actor

set_option autoImplicit false

namespace Ruproxy.Wireguard

open Ruproxy.Foundation

namespace Actor

variable {a a' : Actor} {now : Nat} {key : FlowKey}

/-! ## Sending to a relay -/

/-- Sending to the relay of a TCP flow changes nothing but the relays. -/
theorem sendTcpOutbound_eq (a : Actor) (id : FlowId) (data : Bytes) :
    ∃ relays, a.sendTcpOutbound id data = { a with tcpRelays := relays } := by
  unfold sendTcpOutbound
  split
  · split
    · exact ⟨_, rfl⟩
    · exact ⟨_, rfl⟩
  · exact ⟨_, rfl⟩

theorem sendUdpOutbound_eq (a : Actor) (id : FlowId) (data : SocketAddr × Bytes) :
    ∃ relays, a.sendUdpOutbound id data = { a with udpRelays := relays } := by
  unfold sendUdpOutbound
  split
  · exact ⟨_, rfl⟩
  · exact ⟨_, rfl⟩

/-! ## Turns -/

/-- A turn of `start_tcp_relays` marks a flow whose handshake is done. -/
theorem startTcpRelay_cases (h : startTcpRelay a key = some a') :
    a' = a ∨ ∃ f relays, a.tcpFlows.lookup key = some f ∧ f.relayStarted = false ∧
      a' = { a with
        tcpFlows := a.tcpFlows.insert key { f with relayStarted := true }
        tcpRelays := relays } := by
  unfold startTcpRelay at h
  split at h
  · cases h
    exact .inl rfl
  rename_i f hf
  split at h
  · cases h
    exact .inl rfl
  rename_i hstarted
  split at h
  · cases h
  split at h
  · cases h
    exact .inr ⟨f, _, hf, by simpa using hstarted, rfl⟩
  · cases h
    exact .inl rfl

/-- A turn of `drain_tcp_recv` empties the receive buffer of a flow with a relay, and
stamps the flow. -/
theorem drainTcpFlow_cases (h : drainTcpFlow now a key = some a') :
    (a' = a ∧ ∀ f s, a.tcpFlows.lookup key = some f → f.relayStarted = true →
      a.sockets.getTcp f.handle = some s → s.mayRecv = false ∨ s.recv = []) ∨
    ∃ f s relays, a.tcpFlows.lookup key = some f ∧ f.relayStarted = true ∧
      a.sockets.getTcp f.handle = some s ∧ s.mayRecv = true ∧ s.recv ≠ [] ∧
      a' = { a with
        sockets := a.sockets.put f.handle (.tcp { s with recv := [] })
        tcpFlows := a.tcpFlows.insert key { f with lastActive := now }
        tcpRelays := relays } := by
  unfold drainTcpFlow at h
  split at h
  · rename_i hnone
    cases h
    refine .inl ⟨rfl, fun f s hf => ?_⟩
    rw [hnone] at hf
    cases hf
  rename_i f hf
  split at h
  · rename_i hstarted
    cases h
    refine .inl ⟨rfl, fun f' s hf' hstarted' => ?_⟩
    rw [hf] at hf'
    cases hf'
    simp [hstarted'] at hstarted
  rename_i hstarted
  split at h
  · cases h
  rename_i s hs
  split at h
  · rename_i hempty
    cases h
    refine .inl ⟨rfl, fun f' s' hf' _ hs' => ?_⟩
    rw [hf] at hf'
    cases hf'
    rw [hs] at hs'
    cases hs'
    simpa using hempty
  · rename_i hfull
    cases h
    obtain ⟨relays, hrelays⟩ := sendTcpOutbound_eq { a with
      sockets := a.sockets.put f.handle (.tcp { s with recv := [] })
      tcpFlows := a.tcpFlows.insert key { f with lastActive := now } } f.id s.recv
    have hfull : s.mayRecv = true ∧ s.recv ≠ [] := by simpa using hfull
    exact .inr ⟨f, s, relays, hf, by simpa using hstarted, hs, hfull.1, hfull.2, hrelays⟩

/-- A turn of `drain_udp_recv` takes a datagram out of the receive queue of a flow, and
stamps the flow. -/
theorem drainUdpFlow_cases (h : drainUdpFlow now a key = some a') :
    a' = a ∨ ∃ f s d rx relays, a.udpFlows.lookup key = some f ∧
      a.sockets.getUdp f.handle = some s ∧ s.rx = d :: rx ∧
      a' = { a with
        sockets := a.sockets.put f.handle (.udp { s with rx := rx })
        udpFlows := a.udpFlows.insert key { f with lastActive := now }
        udpRelays := relays } := by
  unfold drainUdpFlow at h
  split at h
  · cases h
    exact .inl rfl
  rename_i f hf
  split at h
  · cases h
  rename_i s hs
  split at h
  · cases h
    exact .inl rfl
  · rename_i d rx hrx
    cases h
    obtain ⟨relays, hrelays⟩ := sendUdpOutbound_eq { a with
      sockets := a.sockets.put f.handle (.udp { s with rx := rx })
      udpFlows := a.udpFlows.insert key { f with lastActive := now } } f.id (key.dst, d.2)
    exact .inr ⟨f, s, d, rx, relays, hf, hs, hrx, hrelays⟩

/-- A turn of `tcp_flows.retain` takes out a flow that was idle for `TCP_IDLE`. -/
theorem evictTcpFlow_cases (h : evictTcpFlow now a key = some a') :
    (a' = a ∧ ∀ f, a.tcpFlows.lookup key = some f → now - f.lastActive < tcpIdle) ∨
    ∃ f sockets, a.tcpFlows.lookup key = some f ∧ tcpIdle ≤ now - f.lastActive ∧
      a.sockets.remove f.handle = some sockets ∧
      a' = { a with sockets := sockets, tcpFlows := a.tcpFlows.erase key } := by
  unfold evictTcpFlow at h
  split at h
  · rename_i hnone
    cases h
    refine .inl ⟨rfl, fun f hf => ?_⟩
    rw [hnone] at hf
    cases hf
  rename_i f hf
  split at h
  · rename_i hyoung
    cases h
    refine .inl ⟨rfl, fun f' hf' => ?_⟩
    rw [hf] at hf'
    cases hf'
    exact hyoung
  rename_i hold
  split at h
  · cases h
  · rename_i sockets hremove
    cases h
    exact .inr ⟨f, sockets, hf, Nat.le_of_not_lt hold, hremove, rfl⟩

/-- A turn of `udp_flows.retain` takes out a flow that was idle for `UDP_IDLE`. -/
theorem evictUdpFlow_cases (h : evictUdpFlow now a key = some a') :
    a' = a ∨ ∃ f sockets, a.udpFlows.lookup key = some f ∧ udpIdle ≤ now - f.lastActive ∧
      a.sockets.remove f.handle = some sockets ∧
      a' = { a with sockets := sockets, udpFlows := a.udpFlows.erase key } := by
  unfold evictUdpFlow at h
  split at h
  · cases h
    exact .inl rfl
  rename_i f hf
  split at h
  · cases h
    exact .inl rfl
  rename_i hold
  split at h
  · cases h
  · rename_i sockets hremove
    cases h
    exact .inr ⟨f, sockets, hf, Nat.le_of_not_lt hold, hremove, rfl⟩

/-! ## Feeding a socket -/

/-- Relayed data changes nothing but the sockets and what was delivered. -/
theorem feedTcpSend_eq {origin : FlowId} {handle : Handle} {data : Bytes}
    (h : a.feedTcpSend origin handle data = some a') :
    ∃ sockets deliveries, a' = { a with sockets := sockets, deliveries := deliveries } := by
  unfold feedTcpSend at h
  split at h
  · cases h
  split at h
  · cases h
    exact ⟨_, _, rfl⟩
  · cases h
    exact ⟨_, _, rfl⟩

theorem feedUdpSend_eq {room : Bool} {origin : FlowId} {handle : Handle} {peerEp : SocketAddr}
    {data : Bytes} (h : a.feedUdpSend room origin handle peerEp data = some a') :
    ∃ sockets deliveries, a' = { a with sockets := sockets, deliveries := deliveries } := by
  unfold feedUdpSend at h
  split at h
  · cases h
  split at h
  · cases h
    exact ⟨_, _, rfl⟩
  · cases h
    exact ⟨_, _, rfl⟩

end Actor

end Ruproxy.Wireguard
