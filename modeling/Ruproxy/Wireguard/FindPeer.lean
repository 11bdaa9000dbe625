/-
  Wireguard/FindPeer.lean --- the peer that is found for a source address.

  `find_peer` goes through the table of peers in the order of its iteration.  As
  long as no two peers have the same endpoint recorded, this order plays no part
  for a source that is known; and a datagram never gives a peer the endpoint of
  another, since it is given to the other one instead.
-/
import Ruproxy.Wireguard.Endpoints

set_option autoImplicit false

namespace Ruproxy.Wireguard

open Ruproxy.Foundation
open Ruproxy.Foundation.Transition

namespace Server

variable {τ : Type} {tunn : Tunn τ}

/-- No two peers have the same endpoint. -/
def UniqueEndpoints (s : Server τ) : Prop :=
  ∀ {pubHex pubHex' : String} {src : SocketAddr}, s.endpointOf pubHex = some src →
    s.endpointOf pubHex' = some src → pubHex = pubHex'

theorem endpointOf_of_mem {s : Server τ} {e : Sigma fun _ : String => Peer τ}
    (he : e ∈ s.peers.entries) : s.endpointOf e.1 = e.2.endpoint := by
  have hlookup : s.peers.lookup e.1 = some e.2 := (List.mem_dlookup_iff s.peers.nodupKeys).mpr he
  rw [endpointOf, hlookup, Option.bind_some]

/-- A search for a recorded endpoint finds an entry. -/
theorem exists_find_of_endpointOf {s : Server τ} {pubHex : String} {src : SocketAddr}
    (h : s.endpointOf pubHex = some src) :
    ∃ e, s.peers.entries.find? (fun e => decide (e.2.endpoint = some src)) = some e := by
  obtain ⟨peer, hpeer, hsrc⟩ := Option.bind_eq_some_iff.mp h
  apply Option.isSome_iff_exists.mp
  exact List.find?_isSome.mpr ⟨⟨pubHex, peer⟩,
    (List.mem_dlookup_iff s.peers.nodupKeys).mp hpeer, decide_eq_true hsrc⟩

/-- For a known source a peer that has it as its endpoint is found. -/
theorem findPeer_known {s : Server τ} {pubHex pubHex' : String} {src : SocketAddr} {raw : Bytes}
    {peer : Peer τ} (hknown : s.endpointOf pubHex' = some src)
    (hfind : findPeer s.peers raw src = some (pubHex, peer)) :
    s.endpointOf pubHex = some src := by
  obtain ⟨e, he⟩ := exists_find_of_endpointOf hknown
  unfold findPeer at hfind
  rw [he] at hfind
  cases hfind
  rw [endpointOf_of_mem (List.mem_of_find?_eq_some he)]
  simpa using List.find?_some he

theorem UniqueEndpoints.congr {s s' : Server τ} (h : s.UniqueEndpoints)
    (hendpoints : ∀ pubHex, s'.endpointOf pubHex = s.endpointOf pubHex) :
    s'.UniqueEndpoints := by
  intro pubHex pubHex' src hsrc hsrc'
  rw [hendpoints] at hsrc hsrc'
  exact h hsrc hsrc'

/-- A received datagram keeps the endpoints apart: its source is the endpoint of the peer
that is found, or of none. -/
theorem UniqueEndpoints.receive {s : Server τ} (h : s.UniqueEndpoints) (raw : Bytes)
    (src : SocketAddr) : (s.receive raw src).UniqueEndpoints := by
  cases hfind : Wireguard.findPeer s.peers raw src with
  | none =>
    simp only [Server.receive, hfind]
    exact h
  | some found =>
    obtain ⟨found, peer⟩ := found
    obtain ⟨-, hself, hothers, -, -⟩ := receive_spec hfind
    -- another peer with this source would have been found instead
    have honly : ∀ {pubHex : String}, (s.receive raw src).endpointOf pubHex = some src →
        pubHex = found := by
      intro pubHex hsrc
      rcases eq_or_ne pubHex found with heq | hne
      · exact heq
      · rw [hothers pubHex hne] at hsrc
        exact h hsrc (findPeer_known hsrc hfind)
    intro pubHex pubHex' src' hsrc hsrc'
    rcases eq_or_ne src' src with rfl | hne
    · exact (honly hsrc).trans (honly hsrc').symm
    · have hmoved : ∀ {k : String}, (s.receive raw src).endpointOf k = some src' → k ≠ found := by
        rintro k hk rfl
        rw [hself, Option.some.injEq] at hk
        exact hne hk.symm
      rw [hothers _ (hmoved hsrc)] at hsrc
      rw [hothers _ (hmoved hsrc')] at hsrc'
      exact h hsrc hsrc'

theorem uniqueEndpoints_step :
    Preserves (step tunn) (fun _ _ => True) (UniqueEndpoints (τ := τ)) := by
  intro s e s' h _ hstep
  rcases step_cases hstep with ⟨raw, src, -, -, rfl⟩ | ⟨d, peer, -, -, -, rfl⟩ |
    ⟨-, -, hquiet, -⟩
  · exact h.receive raw src
  · exact h.congr (decapsulate_spec tunn s d peer).2.1
  · exact h.congr hquiet.endpoints

/-- The peer of a known source does not depend on the order of the table. -/
theorem UniqueEndpoints.findPeer_perm {s : Server τ} (h : s.UniqueEndpoints)
    {peers : Table String (Peer τ)} (hperm : peers.entries.Perm s.peers.entries) {src : SocketAddr}
    {pubHex : String} (hknown : s.endpointOf pubHex = some src) (raw : Bytes) :
    Wireguard.findPeer peers raw src = Wireguard.findPeer s.peers raw src := by
  have hsame : peers.entries.find? (fun e => decide (e.2.endpoint = some src)) =
      s.peers.entries.find? fun e => decide (e.2.endpoint = some src) := by
    refine find?_eq_of_perm hperm fun a ha b hb hpa hpb => ?_
    rw [decide_eq_true_eq, ← endpointOf_of_mem ha] at hpa
    rw [decide_eq_true_eq, ← endpointOf_of_mem hb] at hpb
    exact s.peers.nodupKeys.eq_of_fst_eq ha hb (h hpa hpb)
  obtain ⟨e, he⟩ := exists_find_of_endpointOf hknown
  unfold Wireguard.findPeer
  rw [hsame, he]

/-- **Endpoints are unique.**  In every state of a run from the start no two peers have
the same endpoint, and the peer that is found for the endpoint of a peer is the same in
whatever order the table is gone through. -/
theorem endpoints_unique (tunn : Tunn τ) (now : Nat) (cfg : Table String (PeerConfig τ))
    {s : Server τ} (hreach : Reachable (step tunn) (init now cfg) s) :
    s.UniqueEndpoints ∧
      ∀ (peers : Table String (Peer τ)) (raw : Bytes) (pubHex : String) (src : SocketAddr),
        peers.entries.Perm s.peers.entries → s.endpointOf pubHex = some src →
          Wireguard.findPeer peers raw src = Wireguard.findPeer s.peers raw src := by
  have hinit : (init now cfg).UniqueEndpoints := by
    intro pubHex pubHex' src hsrc
    rw [endpointOf_init] at hsrc
    cases hsrc
  have hunique : s.UniqueEndpoints := hreach.invariant uniqueEndpoints_step hinit
  exact ⟨hunique, fun peers raw pubHex src hperm hknown =>
    hunique.findPeer_perm hperm hknown raw⟩

end Server

/-- The first peer after its datagram. -/
theorem endpoints_unique_first :
    ∃ s, Reachable (Server.step sampleTunn) (.init 0 sampleConfig) s ∧ s.UniqueEndpoints := by
  have hreach : Reachable (Server.step sampleTunn) (.init 0 sampleConfig) _ :=
    ⟨[.datagram [1] sampleSrc, .decapsulate], rfl⟩
  exact ⟨_, hreach, (Server.endpoints_unique sampleTunn 0 sampleConfig hreach).1⟩

end Ruproxy.Wireguard
