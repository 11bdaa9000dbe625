/-
  Wireguard/Endpoints.lean --- recorded endpoints and the peer of a datagram.

  The main loop records where a datagram is from before it decrypts it, and it
  takes the first peer of the table for a source that no peer has.  So the first
  datagram of a peer is always recorded too early, later ones are where their
  source is new, and only the first peer ever gets one.
-/
import Ruproxy.Wireguard.Server

set_option autoImplicit false

namespace Ruproxy.Wireguard

open Ruproxy.Foundation
open Ruproxy.Foundation.Transition

namespace Server

variable {τ : Type} {tunn : Tunn τ}

/-! ## What a step does to the endpoints -/

/-- What the receive loop reads of the table and has logged is the same. -/
structure Quiet (s s' : Server τ) : Prop where
  keys : s'.peers.keys = s.peers.keys
  endpoints : ∀ pubHex, s'.endpointOf pubHex = s.endpointOf pubHex
  handled : s'.handled = s.handled

theorem Quiet.refl (s : Server τ) : Quiet s s := ⟨rfl, fun _ => rfl, rfl⟩

/-- A change of a tunnel leaves the endpoints alone. -/
theorem setTunnel_quiet (s : Server τ) (pubHex : String) (tun : τ) :
    Quiet s (s.setTunnel pubHex tun) where
  keys := Table.keys_modify _ _ _
  endpoints pubHex' := by
    rcases eq_or_ne pubHex' pubHex with rfl | hne
    · rw [endpointOf, setTunnel, Table.lookup_modify_self, Option.bind_map]
      rfl
    · rw [endpointOf, setTunnel, Table.lookup_modify_of_ne _ hne]
      rfl
  handled := rfl

theorem deliver_quiet {s s' : Server τ} {d : Datagram} {peer : Peer τ} {ipOwned : Option Bytes}
    {calls : Nat} (h : s.deliver tunn d peer ipOwned calls = some s') :
    Quiet s s' ∧ s'.mainLoop = .receiving := by
  obtain ⟨⟨pkts, tun⟩, -, rfl⟩ := Option.map_eq_some_iff.mp h
  have hquiet := s.setTunnel_quiet d.pubHex tun
  cases ipOwned with
  | none => exact ⟨⟨hquiet.keys, hquiet.endpoints, rfl⟩, rfl⟩
  | some ipPkt =>
    dsimp only
    split <;> exact ⟨⟨hquiet.keys, hquiet.endpoints, rfl⟩, rfl⟩

theorem timerDrain_quiet {s s' : Server τ} {pubHex : String} {peer : Peer τ} {ep : SocketAddr}
    {calls : Nat} (h : s.timerDrain tunn pubHex peer ep calls = some s') :
    Quiet s s' ∧ s'.mainLoop = s.mainLoop := by
  obtain ⟨⟨pkts, tun⟩, -, rfl⟩ := Option.map_eq_some_iff.mp h
  have hquiet := s.setTunnel_quiet pubHex tun
  exact ⟨⟨hquiet.keys, hquiet.endpoints, rfl⟩, rfl⟩

/-- **What a step does.**  The main loop receives a datagram or calls `decapsulate`; all
other steps leave endpoints and log alone. -/
theorem step_cases {s s' : Server τ} {e : ServerEvent} (h : s.step tunn e = some s') :
    (∃ raw src, e = .datagram raw src ∧ s.mainLoop = .receiving ∧ s' = s.receive raw src) ∨
    (∃ d peer, e = .decapsulate ∧ s.mainLoop = .opening d ∧
      s.peers.lookup d.pubHex = some peer ∧ s' = s.decapsulate tunn d peer) ∨
    ((∀ raw src, e ≠ .datagram raw src) ∧ e ≠ .decapsulate ∧ Quiet s s' ∧ (s'.mainLoop = s.mainLoop ∨
      (∃ d ipOwned, s.mainLoop = .draining d ipOwned) ∧ s'.mainLoop = .receiving)) := by
  cases e with
  | elapse d =>
    cases h
    exact .inr (.inr ⟨nofun, nofun, ⟨rfl, fun _ => rfl, rfl⟩, .inl rfl⟩)
  | datagram raw src =>
    simp only [step] at h
    split at h
    · cases h
      exact .inl ⟨raw, src, rfl, ‹_›, rfl⟩
    · cases h
  | decapsulate =>
    simp only [step] at h
    split at h
    · obtain ⟨peer, hpeer, rfl⟩ := Option.map_eq_some_iff.mp h
      exact .inr (.inl ⟨_, peer, rfl, ‹_›, hpeer, rfl⟩)
    · cases h
  | deliver calls =>
    simp only [step] at h
    split at h
    · rename_i d ipOwned hloop
      obtain ⟨peer, -, hdeliver⟩ := Option.bind_eq_some_iff.mp h
      obtain ⟨hquiet, hloop'⟩ := deliver_quiet hdeliver
      exact .inr (.inr ⟨nofun, nofun, hquiet, .inr ⟨⟨d, ipOwned, hloop⟩, hloop'⟩⟩)
    · cases h
  | encryptTake pubHex ipPkt =>
    simp only [step] at h
    split at h
    · split at h <;> cases h <;>
        exact .inr (.inr ⟨nofun, nofun, ⟨rfl, fun _ => rfl, rfl⟩, .inl rfl⟩)
    · cases h
  | encryptSend pubHex =>
    simp only [step] at h
    split at h
    · cases h
      have hquiet := s.setTunnel_quiet pubHex
      exact .inr (.inr ⟨nofun, nofun,
        ⟨(hquiet _).keys, (hquiet _).endpoints, rfl⟩, .inl rfl⟩)
    · cases h
  | timerTake pubHex =>
    simp only [step] at h
    split at h
    · split at h <;> cases h <;>
        exact .inr (.inr ⟨nofun, nofun, ⟨rfl, fun _ => rfl, rfl⟩, .inl rfl⟩)
    · cases h
  | timerDrain calls =>
    simp only [step] at h
    split at h
    · obtain ⟨peer, -, hdrain⟩ := Option.bind_eq_some_iff.mp h
      obtain ⟨hquiet, hloop⟩ := timerDrain_quiet hdrain
      exact .inr (.inr ⟨nofun, nofun, hquiet, .inl hloop⟩)
    · cases h

/-- The call of `decapsulate` leaves the endpoints alone and is logged. -/
theorem decapsulate_spec (tunn : Tunn τ) (s : Server τ) (d : Datagram) (peer : Peer τ) :
    (s.decapsulate tunn d peer).peers.keys = s.peers.keys ∧
    (∀ pubHex, (s.decapsulate tunn d peer).endpointOf pubHex = s.endpointOf pubHex) ∧
    (∃ ipOwned, (s.decapsulate tunn d peer).mainLoop = .draining d ipOwned) ∧
    (s.decapsulate tunn d peer).handled = s.handled ++
      [(d, decide ((tunn.decapsulate s.now peer.tunnel (some d.src.ip) d.raw).1 ≠ .err))] := by
  have hquiet := s.setTunnel_quiet d.pubHex
    (tunn.decapsulate s.now peer.tunnel (some d.src.ip) d.raw).2
  exact ⟨hquiet.keys, hquiet.endpoints, ⟨_, rfl⟩, rfl⟩

/-! ## The peer of a datagram -/

/-- The peer that is found has the source as its endpoint, or it is the first of the
table. -/
theorem findPeer_spec {peers : Table String (Peer τ)} {raw : Bytes} {src : SocketAddr}
    {pubHex : String} {peer : Peer τ} (h : findPeer peers raw src = some (pubHex, peer)) :
    peers.lookup pubHex = some peer ∧
      (peer.endpoint = some src ∨ peers.keys.head? = some pubHex) := by
  unfold findPeer at h
  split at h
  · rename_i e he
    cases h
    have hmem := List.mem_of_find?_eq_some he
    refine ⟨(List.mem_dlookup_iff peers.nodupKeys).mpr hmem, .inl ?_⟩
    simpa using List.find?_some he
  · obtain ⟨e, he, heq⟩ := Option.map_eq_some_iff.mp h
    cases heq
    refine ⟨(List.mem_dlookup_iff peers.nodupKeys).mpr (List.mem_of_head? he), .inr ?_⟩
    rw [AList.keys, List.keys, List.head?_map, he]
    rfl

/-- A peer is found unless there is none. -/
theorem findPeer_eq_none {peers : Table String (Peer τ)} {raw : Bytes} {src : SocketAddr}
    (h : findPeer peers raw src = none) : peers.keys.head? = none := by
  unfold findPeer at h
  split at h
  · cases h
  · rw [AList.keys, List.keys, List.head?_map, Option.map_eq_none_iff]
    exact Option.map_eq_none_iff.mp h

/-- A received datagram moves the endpoint of the peer that is found, and of no other. -/
theorem receive_spec {s : Server τ} {raw : Bytes} {src : SocketAddr} {pubHex : String}
    {peer : Peer τ} (h : findPeer s.peers raw src = some (pubHex, peer)) :
    (s.receive raw src).peers.keys = s.peers.keys ∧
    (s.receive raw src).endpointOf pubHex = some src ∧
    (∀ pubHex', pubHex' ≠ pubHex →
      (s.receive raw src).endpointOf pubHex' = s.endpointOf pubHex') ∧
    (s.receive raw src).mainLoop = .opening ⟨pubHex, raw, src, s.endpointOf pubHex⟩ ∧
    (s.receive raw src).handled = s.handled := by
  have hlookup := (findPeer_spec h).1
  simp only [receive, h]
  refine ⟨Table.keys_modify _ _ _, ?_, fun pubHex' hne => ?_, ?_, trivial⟩
  · simp [endpointOf, Table.lookup_modify_self, hlookup]
  · simp [endpointOf, Table.lookup_modify_of_ne _ hne]
  · simp [endpointOf, hlookup]

/-! ## Who endpoints come from -/

/-- The tunnel of a peer takes a datagram without error. -/
def Accepts (tunn : Tunn τ) (s : Server τ) (pubHex : String) (raw : Bytes) (src : SocketAddr) :
    Prop :=
  ∃ peer, s.peers.lookup pubHex = some peer ∧
    (tunn.decapsulate s.now peer.tunnel (some src.ip) raw).1 ≠ .err

/-- A datagram of this peer from this address was accepted. -/
def AcceptedFrom (s : Server τ) (pubHex : String) (src : SocketAddr) : Prop :=
  ∃ d, (d, true) ∈ s.handled ∧ d.pubHex = pubHex ∧ d.src = src

/-- A datagram that was not accepted has changed no endpoint. -/
def Unmoved (s : Server τ) : Prop :=
  ∀ d, (d, false) ∈ s.handled → d.before = some d.src

/-- A recorded endpoint is the source of a datagram that the peer's tunnel accepted, and
no other datagram has changed an endpoint. -/
structure Authenticated (s : Server τ) : Prop where
  recorded : ∀ pubHex src, s.endpointOf pubHex = some src → s.AcceptedFrom pubHex src
  unmoved : s.Unmoved

/-- A datagram that is given to a peer comes from where a datagram of that peer was accepted
before; and when it is decrypted, the tunnel accepts it, or it comes from where the endpoint of
the peer was. -/
def FromAccepted (tunn : Tunn τ) (s : Server τ) : ServerEvent → Prop
  | .datagram raw src => ∀ pubHex peer, findPeer s.peers raw src = some (pubHex, peer) →
      s.AcceptedFrom pubHex src
  | .decapsulate => ∀ d, s.mainLoop = .opening d →
      s.Accepts tunn d.pubHex d.raw d.src ∨ d.before = some d.src
  | _ => True

theorem AcceptedFrom.mono {s s' : Server τ} {l : List (Datagram × Bool)}
    (hhandled : s'.handled = s.handled ++ l) {pubHex : String} {src : SocketAddr}
    (h : s.AcceptedFrom pubHex src) : s'.AcceptedFrom pubHex src := by
  obtain ⟨d, hd, hpeer, hsrc⟩ := h
  exact ⟨d, by rw [hhandled]; exact List.mem_append_left _ hd, hpeer, hsrc⟩

/-- Recording a source is right where the peer had an accepted datagram from there. -/
theorem receive_authenticated_iff {s : Server τ} (hs : s.Authenticated) (raw : Bytes)
    (src : SocketAddr) : (s.receive raw src).Authenticated ↔
      ∀ pubHex peer, findPeer s.peers raw src = some (pubHex, peer) →
        s.AcceptedFrom pubHex src := by
  cases hfind : findPeer s.peers raw src with
  | none =>
    simp only [Server.receive, hfind]
    exact iff_of_true hs nofun
  | some found =>
    obtain ⟨pubHex, peer⟩ := found
    obtain ⟨-, hself, hothers, -, hhandled⟩ := receive_spec hfind
    have hsame : ∀ pubHex' src', (s.receive raw src).AcceptedFrom pubHex' src' ↔
        s.AcceptedFrom pubHex' src' := by
      intro pubHex' src'
      rw [AcceptedFrom, AcceptedFrom, hhandled]
    constructor
    · rintro ⟨hrecorded, -⟩ pubHex' peer' heq
      cases heq
      exact (hsame pubHex src).mp (hrecorded pubHex src hself)
    · intro haccepted
      refine ⟨fun pubHex' src' hsrc => (hsame pubHex' src').mpr ?_, fun d hd => ?_⟩
      · rcases eq_or_ne pubHex' pubHex with rfl | hne
        · rw [hself] at hsrc
          cases hsrc
          exact haccepted pubHex' peer rfl
        · rw [hothers pubHex' hne] at hsrc
          exact hs.recorded pubHex' src' hsrc
      · rw [hhandled] at hd
        exact hs.unmoved d hd

/-- Decrypting a datagram is right where it is accepted, or has changed nothing. -/
theorem decapsulate_authenticated_iff {s : Server τ} (hs : s.Authenticated) {d : Datagram}
    {peer : Peer τ} (hpeer : s.peers.lookup d.pubHex = some peer) :
    (s.decapsulate tunn d peer).Authenticated ↔
      s.Accepts tunn d.pubHex d.raw d.src ∨ d.before = some d.src := by
  obtain ⟨-, hendpoints, -, hhandled⟩ := decapsulate_spec tunn s d peer
  have haccepts : s.Accepts tunn d.pubHex d.raw d.src ↔
      (tunn.decapsulate s.now peer.tunnel (some d.src.ip) d.raw).1 ≠ .err := by
    simp [Accepts, hpeer]
  rw [haccepts]
  constructor
  · rintro ⟨-, hunmoved⟩
    by_cases herr : (tunn.decapsulate s.now peer.tunnel (some d.src.ip) d.raw).1 = .err
    · exact .inr (hunmoved d (by simp [hhandled, herr]))
    · exact .inl herr
  · intro hor
    refine ⟨fun pubHex src hsrc => ?_, fun d' hd' => ?_⟩
    · rw [hendpoints] at hsrc
      exact (hs.recorded pubHex src hsrc).mono hhandled
    · rw [hhandled, List.mem_append, List.mem_singleton, Prod.mk.injEq] at hd'
      rcases hd' with hd' | ⟨rfl, herr⟩
      · exact hs.unmoved d' hd'
      · exact hor.resolve_left fun hok => by simp [hok] at herr

/-- **One step.**  A step out of an authenticated state leads to one exactly if its datagram
comes from where the peer was before. -/
theorem step_authenticated_iff {s s' : Server τ} {e : ServerEvent} (hs : s.Authenticated)
    (hstep : s.step tunn e = some s') : s'.Authenticated ↔ FromAccepted tunn s e := by
  rcases step_cases hstep with ⟨raw, src, rfl, -, rfl⟩ | ⟨d, peer, rfl, hloop, hpeer, rfl⟩ |
    ⟨hne, hne', hquiet, -⟩
  · exact receive_authenticated_iff hs raw src
  · rw [decapsulate_authenticated_iff hs hpeer]
    simp [FromAccepted, hloop]
  · refine iff_of_true ⟨fun pubHex src hsrc => ?_, fun d hd => ?_⟩ ?_
    · rw [hquiet.endpoints] at hsrc
      rw [AcceptedFrom, hquiet.handled]
      exact hs.recorded pubHex src hsrc
    · rw [hquiet.handled] at hd
      exact hs.unmoved d hd
    · cases e with
      | datagram raw src => exact absurd rfl (hne raw src)
      | decapsulate => exact absurd rfl hne'
      | _ => trivial

theorem endpointOf_init (now : Nat) (cfg : Table String (PeerConfig τ)) (pubHex : String) :
    (init now cfg).endpointOf pubHex = none := by
  rw [endpointOf, init, Table.lookup_mapValues]
  cases cfg.lookup pubHex <;> rfl

theorem authenticated_init (now : Nat) (cfg : Table String (PeerConfig τ)) :
    (init now cfg).Authenticated where
  recorded pubHex src hsrc := by
    rw [endpointOf_init] at hsrc
    cases hsrc
  unmoved d hd := by cases hd

/-- In a run from an authenticated state, all states are authenticated exactly if every datagram
that is given to a peer comes from where one of its datagrams was accepted before, and is accepted
itself or comes from where the endpoint of the peer was. -/
theorem always_authenticated_iff {s t : Server τ} {es : List ServerEvent} (hs : s.Authenticated)
    (hrun : run (step tunn) s es = some t) :
    Always (step tunn) Authenticated s es ↔ Every (step tunn) (FromAccepted tunn) s es := by
  have htrue : Preserves (step tunn) (fun _ _ => True) fun _ => True := fun _ _ _ => trivial
  exact always_iff_every htrue (fun _ hgood hstep => step_authenticated_iff hgood hstep) trivial hs
    hrun

/-- No datagram was given to a peer yet. -/
structure Unused (cfg : Table String (PeerConfig τ)) (s : Server τ) : Prop where
  keys : s.peers.keys = cfg.keys
  mainLoop : s.mainLoop = .receiving
  handled : s.handled = []

theorem unused_init (now : Nat) (cfg : Table String (PeerConfig τ)) :
    (init now cfg).Unused cfg :=
  ⟨Table.keys_mapValues _ _, rfl, rfl⟩

/-- The event gives no peer a datagram. -/
def GivesNone (cfg : Table String (PeerConfig τ)) (e : ServerEvent) : Prop :=
  cfg.keys = [] ∨ ∀ raw src, e ≠ .datagram raw src

/-- Where there is no peer, a datagram is dropped. -/
theorem Unused.receive {cfg : Table String (PeerConfig τ)} {s : Server τ} (h : s.Unused cfg)
    (hkeys : cfg.keys = []) (raw : Bytes) (src : SocketAddr) : s.receive raw src = s := by
  cases hfind : findPeer s.peers raw src with
  | none => simp only [Server.receive, hfind]
  | some found =>
    obtain ⟨pubHex, peer⟩ := found
    have hmem := AList.mem_keys.mp (AList.lookup_isSome.mp
      (Option.isSome_of_mem (findPeer_spec hfind).1))
    rw [h.keys, hkeys] at hmem
    cases hmem

theorem Unused.step {cfg : Table String (PeerConfig τ)} {s s' : Server τ} {e : ServerEvent}
    (h : s.Unused cfg) (he : GivesNone cfg e) (hstep : s.step tunn e = some s') :
    s'.Unused cfg := by
  rcases step_cases hstep with ⟨raw, src, rfl, -, rfl⟩ | ⟨d, peer, -, hloop, -, -⟩ |
    ⟨-, -, hquiet, hloop⟩
  · rw [h.receive (he.resolve_right fun hne => hne raw src rfl)]
    exact h
  · rw [h.mainLoop] at hloop
    cases hloop
  · refine ⟨hquiet.keys.trans h.keys, ?_, hquiet.handled.trans h.handled⟩
    exact hloop.elim (fun heq => heq.trans h.mainLoop) And.right

/-- Before any datagram was accepted, no peer may get one. -/
theorem Unused.fromAccepted_iff {cfg : Table String (PeerConfig τ)} {s s' : Server τ}
    {e : ServerEvent} (h : s.Unused cfg) (hstep : s.step tunn e = some s') :
    FromAccepted tunn s e ↔ GivesNone cfg e := by
  rcases step_cases hstep with ⟨raw, src, rfl, -, -⟩ | ⟨d, peer, -, hloop, -, -⟩ |
    ⟨hne, hne', -, -⟩
  · constructor
    · intro hfrom
      refine .inl ?_
      cases hfind : findPeer s.peers raw src with
      | none =>
        rw [← h.keys]
        exact List.head?_eq_none_iff.mp (findPeer_eq_none hfind)
      | some found =>
        obtain ⟨d, hd, -⟩ := hfrom found.1 found.2 hfind
        rw [h.handled] at hd
        cases hd
    · intro hnone pubHex peer hfind
      have hsame := h.receive (hnone.resolve_right fun hne => hne raw src rfl) raw src
      have hopening := (receive_spec hfind).2.2.2.1
      rw [hsame, h.mainLoop] at hopening
      cases hopening
  · rw [h.mainLoop] at hloop
    cases hloop
  · refine iff_of_true ?_ (.inr hne)
    cases e with
    | datagram raw src => exact absurd rfl (hne raw src)
    | decapsulate => exact absurd rfl hne'
    | _ => trivial

/-- **Endpoints are authenticated.**  From the start, recorded endpoints come from accepted
datagrams at every moment exactly if no peer is given a datagram: where one is, its endpoint is
set before anything was accepted.  From an authenticated state on, they do so exactly if every
datagram that is given to a peer comes from where one of its datagrams was accepted before, and
is accepted itself or comes from where the endpoint of the peer was. -/
theorem authenticated_iff (tunn : Tunn τ) (now : Nat) (cfg : Table String (PeerConfig τ)) :
    (∀ es t, run (step tunn) (init now cfg) es = some t →
      (Always (step tunn) Authenticated (init now cfg) es ↔
        cfg.keys = [] ∨ ∀ e ∈ es, ∀ raw src, e ≠ .datagram raw src)) ∧
    ∀ s es t, s.Authenticated → run (step tunn) s es = some t →
      (Always (step tunn) Authenticated s es ↔ Every (step tunn) (FromAccepted tunn) s es) := by
  refine ⟨fun es t hrun => ?_, fun s es t hs hrun => always_authenticated_iff hs hrun⟩
  have hevents : Every (step tunn) (FromAccepted tunn) (init now cfg) es ↔
      ∀ e ∈ es, GivesNone cfg e :=
    every_iff_forall (Unused cfg) Unused.step Unused.fromAccepted_iff (unused_init now cfg) hrun
  rw [always_authenticated_iff (authenticated_init now cfg) hrun, hevents]
  simp only [GivesNone]
  constructor
  · intro hall
    by_cases hkeys : cfg.keys = []
    · exact .inl hkeys
    · exact .inr fun e he => (hall e he).resolve_left hkeys
  · rintro (hkeys | hall) e he
    · exact .inl hkeys
    · exact .inr (hall e he)

/-! ## Which peer gets a datagram -/

/-- The tunnel of this peer, and of no other, takes a datagram without error. -/
def AcceptedOnlyBy (tunn : Tunn τ) (s : Server τ) (pubHex : String) (raw : Bytes)
    (src : SocketAddr) : Prop :=
  ∀ pubHex', s.Accepts tunn pubHex' raw src ↔ pubHex' = pubHex

/-- The main loop, when it receives a datagram next, gives it to the tunnel of this peer. -/
def HandsTo (tunn : Tunn τ) (s : Server τ) (pubHex : String) (raw : Bytes) (src : SocketAddr) :
    Prop :=
  ∃ before accepted s', run (step tunn) s [.datagram raw src, .decapsulate] = some s' ∧
    s'.handled = s.handled ++ [(⟨pubHex, raw, src, before⟩, accepted)]

/-- The peers are the configured ones, and only the first has an endpoint. -/
structure FirstOnly (cfg : Table String (PeerConfig τ)) (s : Server τ) : Prop where
  keys : s.peers.keys = cfg.keys
  first : ∀ pubHex src, s.endpointOf pubHex = some src → cfg.keys.head? = some pubHex

theorem firstOnly_init (now : Nat) (cfg : Table String (PeerConfig τ)) :
    (init now cfg).FirstOnly cfg where
  keys := Table.keys_mapValues _ _
  first pubHex src hsrc := by
    rw [endpointOf_init] at hsrc
    cases hsrc

/-- The peer that is found is the first. -/
theorem FirstOnly.findPeer {cfg : Table String (PeerConfig τ)} {s : Server τ}
    (h : s.FirstOnly cfg) {raw : Bytes} {src : SocketAddr} {pubHex : String} {peer : Peer τ}
    (hfind : findPeer s.peers raw src = some (pubHex, peer)) : cfg.keys.head? = some pubHex := by
  obtain ⟨hlookup, hendpoint | hhead⟩ := findPeer_spec hfind
  · exact h.first pubHex src (by simp [endpointOf, hlookup, hendpoint])
  · rwa [h.keys] at hhead

theorem firstOnly_step {cfg : Table String (PeerConfig τ)} :
    Preserves (step tunn) (fun _ _ => True) (FirstOnly cfg) := by
  intro s e s' h _ hstep
  rcases step_cases hstep with ⟨raw, src, -, hloop, rfl⟩ | ⟨d, peer, -, hloop, -, rfl⟩ |
    ⟨-, -, hquiet, -⟩
  · cases hfind : Wireguard.findPeer s.peers raw src with
    | none =>
      simp only [Server.receive, hfind]
      exact h
    | some found =>
      obtain ⟨pubHex, peer⟩ := found
      obtain ⟨hkeys, -, hothers, -, -⟩ := receive_spec hfind
      refine ⟨hkeys.trans h.keys, fun pubHex' src' hsrc => ?_⟩
      rcases eq_or_ne pubHex' pubHex with rfl | hne
      · exact h.findPeer hfind
      · rw [hothers pubHex' hne] at hsrc
        exact h.first pubHex' src' hsrc
  · obtain ⟨hkeys, hendpoints, -, -⟩ := decapsulate_spec tunn s d peer
    exact ⟨hkeys.trans h.keys, fun pubHex src hsrc => h.first pubHex src (by rwa [← hendpoints])⟩
  · exact ⟨hquiet.keys.trans h.keys, fun pubHex src hsrc =>
      h.first pubHex src (by rwa [← hquiet.endpoints])⟩

/-- A datagram is given to the peer that is found for it. -/
theorem handsTo_iff_findPeer {s : Server τ} (hloop : s.mainLoop = .receiving) (pubHex : String)
    (raw : Bytes) (src : SocketAddr) :
    s.HandsTo tunn pubHex raw src ↔ ∃ peer, findPeer s.peers raw src = some (pubHex, peer) := by
  have hreceive : s.step tunn (.datagram raw src) = some (s.receive raw src) := by
    simp only [step, hloop]
  constructor
  · rintro ⟨before, accepted, s', hrun, hhandled⟩
    obtain ⟨s₁, hstep₁, hrest⟩ := run_cons_eq_some.mp hrun
    rw [hreceive] at hstep₁
    cases hstep₁
    obtain ⟨s₂, hstep₂, hrest⟩ := run_cons_eq_some.mp hrest
    cases hrest
    cases hfind : Wireguard.findPeer s.peers raw src with
    | none => simp [Server.receive, hfind, step, hloop] at hstep₂
    | some found =>
      obtain ⟨pubHex', peer⟩ := found
      obtain ⟨-, -, -, hloop', hhandled'⟩ := receive_spec hfind
      simp only [step, hloop'] at hstep₂
      obtain ⟨peer', -, rfl⟩ := Option.map_eq_some_iff.mp hstep₂
      rw [(decapsulate_spec _ _ _ _).2.2.2, hhandled', List.append_cancel_left_eq,
        List.singleton_inj, Prod.mk.injEq, Datagram.mk.injEq] at hhandled
      exact ⟨peer, by rw [hhandled.1.1]⟩
  · rintro ⟨peer, hfind⟩
    obtain ⟨-, hself, -, hloop', hhandled⟩ := receive_spec hfind
    obtain ⟨peer', hpeer', -⟩ := Option.bind_eq_some_iff.mp hself
    have hlog := (decapsulate_spec tunn (s.receive raw src)
      ⟨pubHex, raw, src, s.endpointOf pubHex⟩ peer').2.2.2
    rw [hhandled] at hlog
    refine ⟨_, _, _, ?_, hlog⟩
    rw [run_cons, hreceive]
    simp only [Option.bind_some, run_cons, step, hloop', hpeer', Option.map_some, run_nil]

/-- **The peer of a datagram.**  In every state that a run from the start leaves the main
loop waiting in, a datagram that the tunnel of one peer only would accept is given to
that tunnel exactly if the peer is the first that the table of peers iterates to. -/
theorem handsTo_iff_first (tunn : Tunn τ) (now : Nat) (cfg : Table String (PeerConfig τ))
    {es : List ServerEvent} {s : Server τ} (hrun : run (step tunn) (init now cfg) es = some s)
    (hloop : s.mainLoop = .receiving) (pubHex : String) (raw : Bytes) (src : SocketAddr) :
    s.AcceptedOnlyBy tunn pubHex raw src →
      (s.HandsTo tunn pubHex raw src ↔ cfg.keys.head? = some pubHex) := by
  intro _
  have hfirst : s.FirstOnly cfg :=
    Reachable.invariant firstOnly_step (firstOnly_init now cfg) ⟨es, hrun⟩
  rw [handsTo_iff_findPeer hloop]
  constructor
  · rintro ⟨peer, hfind⟩
    exact hfirst.findPeer hfind
  · intro hhead
    cases hfind : Wireguard.findPeer s.peers raw src with
    | none =>
      have hnone := findPeer_eq_none hfind
      rw [hfirst.keys, hhead] at hnone
      cases hnone
    | some found =>
      obtain ⟨pubHex', peer⟩ := found
      have hfound := hfirst.findPeer hfind
      rw [hhead, Option.some.injEq] at hfound
      exact ⟨peer, by rw [hfound]⟩

end Server

/-! ## Instances -/

/-- A tunnel that takes the datagrams with one content, and answers none. -/
def sampleTunn : Tunn Bytes where
  decapsulate _ key _ raw := (if raw = key then .done else .err, key)
  encapsulate _ key _ := (.done, key)
  updateTimers _ key := (.done, key)

/-- Two peers with their tunnels. -/
def sampleConfig : Table String (PeerConfig Bytes) where
  entries := [⟨"aa", ⟨[1], []⟩⟩, ⟨"bb", ⟨[2], []⟩⟩]
  nodupKeys := by simp [List.NodupKeys, List.keys]

/-- An address outside of the tunnel. -/
def sampleSrc : SocketAddr := ⟨.v4 (.new 203 0 113 9), 4000⟩

/-- Each tunnel takes its own datagrams. -/
theorem sampleAccepts_iff (pubHex : String) (raw : Bytes) (src : SocketAddr) :
    Server.Accepts sampleTunn (.init 0 sampleConfig) pubHex raw src ↔
      pubHex = "aa" ∧ raw = [1] ∨ pubHex = "bb" ∧ raw = [2] := by
  have hlookup : (Server.init 0 sampleConfig).peers.lookup pubHex =
      if pubHex = "aa" then some (.new 0 [1] []) else
        if pubHex = "bb" then some (.new 0 [2] []) else none := by
    rw [Server.init, Table.lookup_mapValues]
    rcases eq_or_ne pubHex "aa" with rfl | haa
    · rfl
    · rcases eq_or_ne pubHex "bb" with rfl | hbb
      · rfl
      · simp [sampleConfig, AList.lookup, haa, hbb]
  rw [Server.Accepts, hlookup]
  split
  · simp [*, sampleTunn, Peer.new]
  · split <;> simp [*, sampleTunn, Peer.new]

/-- The server when the first peer's tunnel has taken its first datagram. -/
def sampleServer : Server Bytes :=
  ((Server.init 0 sampleConfig).receive [1] sampleSrc).decapsulate sampleTunn
    ⟨"aa", [1], sampleSrc, none⟩ (.new 0 [1] [])

theorem sampleServer_authenticated : sampleServer.Authenticated := by
  obtain ⟨-, hendpoints, -, hhandled⟩ := Server.decapsulate_spec sampleTunn
    ((Server.init 0 sampleConfig).receive [1] sampleSrc) ⟨"aa", [1], sampleSrc, none⟩
    (.new 0 [1] [])
  have hfind : findPeer (Server.init 0 sampleConfig).peers [1] sampleSrc =
      some ("aa", .new 0 [1] []) := rfl
  obtain ⟨-, hself, hothers, -, -⟩ := Server.receive_spec hfind
  refine ⟨fun pubHex src hsrc => ?_, fun d hd => ?_⟩
  · rw [sampleServer, hendpoints] at hsrc
    rcases eq_or_ne pubHex "aa" with rfl | hne
    · rw [hself] at hsrc
      cases hsrc
      exact ⟨⟨"aa", [1], sampleSrc, none⟩, List.mem_singleton.mpr rfl, rfl, rfl⟩
    · rw [hothers pubHex hne, Server.endpointOf_init] at hsrc
      cases hsrc
  · rw [sampleServer, hhandled] at hd
    cases List.mem_singleton.mp hd

/-- The first datagram is recorded too early, although the first peer's tunnel takes it; the next
from the same address is not. -/
theorem authenticated_iff_accepted :
    ¬ Always (Server.step sampleTunn) Server.Authenticated (.init 0 sampleConfig)
      [.datagram [1] sampleSrc, .decapsulate] ∧
    Always (Server.step sampleTunn) Server.Authenticated sampleServer
      [.deliver 1, .datagram [1] sampleSrc, .decapsulate] := by
  obtain ⟨hinit, hlater⟩ := Server.authenticated_iff sampleTunn 0 sampleConfig
  constructor
  · intro hall
    rcases (hinit _ sampleServer rfl).mp hall with hkeys | hnone
    · exact absurd hkeys (by decide)
    · exact hnone _ List.mem_cons_self _ _ rfl
  · refine (hlater sampleServer _ _ sampleServer_authenticated rfl).mpr
      ⟨trivial, fun s hs => ?_⟩
    obtain rfl := Option.some.inj hs
    refine ⟨fun pubHex peer hfind => ?_, fun s' hs' => ?_⟩
    · obtain ⟨rfl, -⟩ := Prod.mk.inj (Option.some.inj hfind)
      exact ⟨⟨"aa", [1], sampleSrc, none⟩, List.mem_singleton.mpr rfl, rfl, rfl⟩
    · obtain rfl := Option.some.inj hs'
      refine ⟨fun d hd => .inr ?_, fun _ _ => trivial⟩
      obtain rfl := MainLoop.opening.inj hd
      rfl

/-- A datagram that no tunnel takes moves the endpoint of the first peer. -/
theorem not_authenticated_garbage :
    ¬ ∀ es s, run (Server.step sampleTunn) (.init 0 sampleConfig) es = some s →
      s.Authenticated := by
  intro hall
  have hgarbage := (hall [.datagram [9] sampleSrc, .decapsulate] _ rfl).unmoved
    ⟨"aa", [9], sampleSrc, none⟩ (by decide)
  cases hgarbage

/-- The first peer gets its own datagram. -/
theorem handsTo_iff_first_own :
    Server.HandsTo sampleTunn (.init 0 sampleConfig) "aa" [1] sampleSrc := by
  have hrun : run (Server.step sampleTunn) (.init 0 sampleConfig) [] =
      some (.init 0 sampleConfig) := rfl
  refine (Server.handsTo_iff_first sampleTunn 0 sampleConfig hrun rfl "aa" [1] sampleSrc
    fun pubHex => ?_).mpr rfl
  simp [sampleAccepts_iff]

/-- The first datagram of the second peer goes to the first peer. -/
theorem not_handsTo_second :
    ¬ ∀ es s, run (Server.step sampleTunn) (.init 0 sampleConfig) es = some s →
      s.mainLoop = .receiving → ∀ pubHex raw src, s.AcceptedOnlyBy sampleTunn pubHex raw src →
        s.HandsTo sampleTunn pubHex raw src := by
  intro hall
  have honly : Server.AcceptedOnlyBy sampleTunn (.init 0 sampleConfig) "bb" [2] sampleSrc := by
    intro pubHex
    simp [sampleAccepts_iff]
  have hhands := hall [] _ rfl rfl "bb" [2] sampleSrc honly
  obtain ⟨peer, hfind⟩ := (Server.handsTo_iff_findPeer rfl "bb" [2] sampleSrc).mp hhands
  have hfirst : "aa" = "bb" := congrArg Prod.fst (Option.some.inj hfind)
  exact absurd hfirst (by decide)

end Ruproxy.Wireguard
