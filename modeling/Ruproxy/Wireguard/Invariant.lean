/-
  Wireguard/Invariant.lean --- the flow tables and the socket set agree.

  The tables, the slots of the socket set and the flow numbers are a registry in
  the sense of `Foundation/Registry.lean`, and every handler changes it by adding
  and giving up entries.  So every handle in a table is the handle of a live
  socket of its kind, the actor's own look-ups never panic, and a handle that a
  relay task or a message carries still is its flow's handle while the flow lives.
-/
import Ruproxy.Foundation.Registry
import Ruproxy.Wireguard.Actor

set_option autoImplicit false

namespace Ruproxy.Wireguard

open Ruproxy.Foundation

/-! ## The registry of an actor -/

/-- The kinds of sockets. -/
inductive Kind where
  | tcp
  | udp
  deriving DecidableEq

/-- The kind of a socket. -/
def Socket.kind : Socket → Kind
  | .tcp _ => .tcp
  | .udp _ => .udp

/-- The flow number and the handle of a TCP flow. -/
def TcpFlow.entry (f : TcpFlow) : FlowId × Handle := (f.id, f.handle)

/-- The flow number and the handle of a UDP flow. -/
def UdpFlow.entry (f : UdpFlow) : FlowId × Handle := (f.id, f.handle)

/-- What the slots of a socket set are in use for. -/
def slotUse (set : SocketSet) (h : Handle) : Option (Kind × FlowId) :=
  (set h).map fun s => (s.kind, s.owner)

/-- The registry an actor keeps. -/
def Actor.registry (a : Actor) : Registry Kind FlowKey where
  entry
    | .tcp, key => (a.tcpFlows.lookup key).map TcpFlow.entry
    | .udp, key => (a.udpFlows.lookup key).map UdpFlow.entry
  slot := slotUse a.sockets
  next := a.nextFlow

theorem slotUse_put (set : SocketSet) (h : Handle) (s : Socket) :
    slotUse (set.put h s) = Function.update (slotUse set) h (some (s.kind, s.owner)) := by
  funext h'
  by_cases hh : h' = h
  · subst hh
    simp [slotUse]
  · simp [slotUse, SocketSet.put_of_ne _ _ hh, Function.update_of_ne hh]

theorem slotUse_put_same {set : SocketSet} {h : Handle} {s s' : Socket}
    (hs : set h = some s) (hkind : s'.kind = s.kind) (howner : s'.owner = s.owner) :
    slotUse (set.put h s') = slotUse set := by
  rw [slotUse_put, Function.update_eq_self_iff, hkind, howner]
  simp [slotUse, hs]

theorem slotUse_clear (set : SocketSet) (h : Handle) :
    slotUse (Function.update set h none) = Function.update (slotUse set) h none := by
  funext h'
  by_cases hh : h' = h
  · subst hh
    simp [slotUse]
  · simp [slotUse, Function.update_of_ne hh]

theorem slotUse_poll (set : SocketSet) (effects : Handle → Effect) :
    slotUse (set.poll effects) = slotUse set := by
  funext h
  simp only [slotUse, SocketSet.poll, Option.map_map]
  congr 1
  funext s
  cases s <;> rfl

section Entries

variable {F : Type} (entry : F → FlowId × Handle) {t : Table FlowKey F} {key : FlowKey}

theorem entry_insert (f : F) (k : FlowKey) :
    ((t.insert key f).lookup k).map entry =
      if k = key then some (entry f) else (t.lookup k).map entry := by
  by_cases hk : k = key
  · subst hk
    simp
  · simp [AList.lookup_insert_ne hk, hk]

theorem entry_insert_same {f f' : F} (hf : t.lookup key = some f)
    (hentry : entry f' = entry f) (k : FlowKey) :
    ((t.insert key f').lookup k).map entry = (t.lookup k).map entry := by
  rw [entry_insert]
  split
  · rename_i hk
    rw [hk, hf, hentry]
    rfl
  · rfl

theorem entry_erase (k : FlowKey) :
    ((t.erase key).lookup k).map entry =
      if k = key then none else (t.lookup k).map entry := by
  by_cases hk : k = key
  · subst hk
    simp
  · simp [AList.lookup_erase_ne hk, hk]

end Entries

namespace Actor

theorem entry_tcp {a : Actor} {key : FlowKey} {i h : Nat} :
    a.registry.entry .tcp key = some (i, h) ↔
      ∃ f, a.tcpFlows.lookup key = some f ∧ f.id = i ∧ f.handle = h := by
  simp [registry, TcpFlow.entry, Option.map_eq_some_iff]

theorem entry_udp {a : Actor} {key : FlowKey} {i h : Nat} :
    a.registry.entry .udp key = some (i, h) ↔
      ∃ f, a.udpFlows.lookup key = some f ∧ f.id = i ∧ f.handle = h := by
  simp [registry, UdpFlow.entry, Option.map_eq_some_iff]

theorem slot_tcp {a : Actor} {h : Handle} {i : FlowId} :
    a.registry.slot h = some (.tcp, i) ↔ ∃ s, a.sockets h = some (.tcp s) ∧ s.owner = i := by
  simp only [registry, slotUse, Option.map_eq_some_iff, Prod.mk.injEq]
  constructor
  · rintro ⟨s, hs, hkind, howner⟩
    cases s with
    | tcp s => exact ⟨s, hs, howner⟩
    | udp s => simp [Socket.kind] at hkind
  · rintro ⟨s, hs, howner⟩
    exact ⟨.tcp s, hs, rfl, howner⟩

theorem slot_udp {a : Actor} {h : Handle} {i : FlowId} :
    a.registry.slot h = some (.udp, i) ↔ ∃ s, a.sockets h = some (.udp s) ∧ s.owner = i := by
  simp only [registry, slotUse, Option.map_eq_some_iff, Prod.mk.injEq]
  constructor
  · rintro ⟨s, hs, hkind, howner⟩
    cases s with
    | tcp s => simp [Socket.kind] at hkind
    | udp s => exact ⟨s, hs, howner⟩
  · rintro ⟨s, hs, howner⟩
    exact ⟨.udp s, hs, rfl, howner⟩

/-! ## Steps that append nothing -/

end Actor

/-- A TCP socket went on without a byte from the actor. -/
structure TcpSocket.Continues (s s' : TcpSocket) : Prop where
  owner : s'.owner = s.owner
  sent : s'.sent = s.sent
  closed : s'.state ≠ .closed → s.state ≠ .closed
  opened : s.state.opened = true → s'.state.opened = true

theorem TcpSocket.Continues.refl (s : TcpSocket) : s.Continues s := ⟨rfl, rfl, id, id⟩

theorem TcpSocket.Continues.trans {s t u : TcpSocket} (h₁ : s.Continues t)
    (h₂ : t.Continues u) : s.Continues u where
  owner := h₂.owner.trans h₁.owner
  sent := h₂.sent.trans h₁.sent
  closed h := h₁.closed (h₂.closed h)
  opened h := h₂.opened (h₁.opened h)

theorem TcpSocket.continues_polled (s : TcpSocket) (e : Effect) :
    s.Continues (s.polled e) where
  owner := rfl
  sent := rfl
  closed h hs := by
    simp only [polled, hs, TcpState.canBecome, decide_eq_true_eq] at h
    split at h
    · exact h ‹_›
    · exact h rfl
  opened := polled_opened e

namespace Actor

/-- From `a` to `a'` flows came and went, and no socket took bytes from a relay. -/
structure Calm (a a' : Actor) : Prop where
  evolves : a.registry.Evolves a'.registry
  streams : ∀ h s', a'.sockets h = some (.tcp s') →
    (∃ s, a.sockets h = some (.tcp s) ∧ s.Continues s') ∨
      (a.nextFlow ≤ s'.owner ∧ s'.sent = [])
  deliveries : a'.deliveries = a.deliveries
  handled : a'.handled = a.handled

theorem Calm.refl (a : Actor) : a.Calm a :=
  ⟨.refl, fun _ s hs => .inl ⟨s, hs, .refl s⟩, rfl, rfl⟩

theorem Calm.next_le {a a' : Actor} (h : a.Calm a') : a.nextFlow ≤ a'.nextFlow :=
  h.evolves.next_le

theorem Calm.trans {a b c : Actor} (h₁ : a.Calm b) (h₂ : b.Calm c) : a.Calm c where
  evolves := h₁.evolves.trans h₂.evolves
  streams := by
    intro h s' hs'
    rcases h₂.streams h s' hs' with ⟨s, hs, hcont⟩ | ⟨hnew, hsent⟩
    · rcases h₁.streams h s hs with ⟨s₀, hs₀, hcont₀⟩ | ⟨hnew, hsent⟩
      · exact .inl ⟨s₀, hs₀, hcont₀.trans hcont⟩
      · exact .inr ⟨hcont.owner ▸ hnew, hcont.sent.trans hsent⟩
    · exact .inr ⟨Nat.le_trans h₁.next_le hnew, hsent⟩
  deliveries := h₂.deliveries.trans h₁.deliveries
  handled := h₂.handled.trans h₁.handled

/-- No socket of the flow still waits for the handshake. -/
def Opened (a : Actor) (i : FlowId) : Prop :=
  ∀ h s, a.sockets h = some (.tcp s) → s.owner = i → s.state.opened = true

/-- From `a` to `a'` flows came and went, and no connection went back. -/
structure Steady (a a' : Actor) : Prop where
  evolves : a.registry.Evolves a'.registry
  opened : ∀ i < a.nextFlow, a.Opened i → a'.Opened i

theorem Calm.steady {a a' : Actor} (h : a.Calm a') : a.Steady a' where
  evolves := h.evolves
  opened := by
    intro i hi ho hd s' hs' howner
    rcases h.streams hd s' hs' with ⟨s, hs, hcont⟩ | ⟨hnew, -⟩
    · exact hcont.opened (ho hd s hs (hcont.owner ▸ howner))
    · exact absurd hi (Nat.not_lt.mpr (howner ▸ hnew))

theorem Steady.trans {a b c : Actor} (h₁ : a.Steady b) (h₂ : b.Steady c) : a.Steady c where
  evolves := h₁.evolves.trans h₂.evolves
  opened i hi ho :=
    h₂.opened i (Nat.lt_of_lt_of_le hi h₁.evolves.next_le) (h₁.opened i hi ho)

/-- A handle that was copied from a TCP flow whose relay was started. -/
def TcpLinked (a : Actor) (i : FlowId) (h : Handle) : Prop :=
  a.registry.Linked .tcp i h ∧ a.Opened i

/-- A handle that was copied from a UDP flow. -/
def UdpLinked (a : Actor) (i : FlowId) (h : Handle) : Prop := a.registry.Linked .udp i h

theorem TcpLinked.steady {a a' : Actor} {i : FlowId} {hd : Handle} (hl : a.TcpLinked i hd)
    (h : a.Steady a') : a'.TcpLinked i hd :=
  ⟨hl.1.evolves h.evolves, h.opened i hl.1.1 hl.2⟩

theorem UdpLinked.steady {a a' : Actor} {i : FlowId} {hd : Handle} (hl : a.UdpLinked i hd)
    (h : a.Steady a') : a'.UdpLinked i hd :=
  Registry.Linked.evolves hl h.evolves

/-- The invariant of the actor: tables and socket set agree, and every relay task
holds the handle of its flow. -/
structure Inv (a : Actor) : Prop where
  wellFormed : a.registry.WellFormed
  tcpRelay : ∀ i r, a.tcpRelays i = some r → a.TcpLinked i r.handle
  udpRelay : ∀ i r, a.udpRelays i = some r → a.UdpLinked i r.handle

theorem inv_init : init.Inv where
  wellFormed := by
    have hentry : ∀ p k, init.registry.entry p k = none := by
      intro p k
      cases p <;> rfl
    exact ⟨fun h => by simp [hentry] at h, fun h => by simp [init, registry, slotUse] at h,
      fun h => by simp [hentry] at h, fun h => by simp [hentry] at h⟩
  tcpRelay _ _ hr := by simp [init] at hr
  udpRelay _ _ hr := by simp [init] at hr

/-- A handler's result, seen from where it started. -/
def Keeps (a₀ a : Actor) : Prop := a.Inv ∧ a₀.Calm a

theorem Keeps.refl {a : Actor} (h : a.Inv) : Keeps a a := ⟨h, .refl a⟩

/-- A steady step keeps the invariant when every relay is an old one with its handle,
or was started for an entry of the tables. -/
theorem Inv.steady {a a' : Actor} (hinv : a.Inv) (h : a.Steady a')
    (htcp : ∀ i r', a'.tcpRelays i = some r' →
      (∃ r, a.tcpRelays i = some r ∧ r.handle = r'.handle) ∨ a'.TcpLinked i r'.handle)
    (hudp : ∀ i r', a'.udpRelays i = some r' →
      (∃ r, a.udpRelays i = some r ∧ r.handle = r'.handle) ∨ a'.UdpLinked i r'.handle) :
    a'.Inv where
  wellFormed := hinv.wellFormed.evolves h.evolves
  tcpRelay i r' hr' := by
    rcases htcp i r' hr' with ⟨r, hr, heq⟩ | hl
    · exact heq ▸ (hinv.tcpRelay i r hr).steady h
    · exact hl
  udpRelay i r' hr' := by
    rcases hudp i r' hr' with ⟨r, hr, heq⟩ | hl
    · exact heq ▸ (hinv.udpRelay i r hr).steady h
    · exact hl

/-- Like `Inv.steady`, when the relays are untouched. -/
theorem Inv.steady_of_eq {a a' : Actor} (hinv : a.Inv) (h : a.Steady a')
    (htcp : a'.tcpRelays = a.tcpRelays) (hudp : a'.udpRelays = a.udpRelays) : a'.Inv :=
  hinv.steady h (fun _ r' hr' => .inl ⟨r', htcp ▸ hr', rfl⟩)
    (fun _ r' hr' => .inl ⟨r', hudp ▸ hr', rfl⟩)

/-! ## The handlers -/

variable {a : Actor}

/-- The socket of a TCP flow is there. -/
theorem Inv.tcpSocket (hinv : a.Inv) {key : FlowKey} {f : TcpFlow}
    (hf : a.tcpFlows.lookup key = some f) :
    ∃ s, a.sockets f.handle = some (.tcp s) ∧ s.owner = f.id :=
  slot_tcp.mp (hinv.wellFormed.live (entry_tcp.mpr ⟨f, hf, rfl, rfl⟩))

/-- The socket of a UDP flow is there. -/
theorem Inv.udpSocket (hinv : a.Inv) {key : FlowKey} {f : UdpFlow}
    (hf : a.udpFlows.lookup key = some f) :
    ∃ s, a.sockets f.handle = some (.udp s) ∧ s.owner = f.id :=
  slot_udp.mp (hinv.wellFormed.live (entry_udp.mpr ⟨f, hf, rfl, rfl⟩))

theorem poll_calm (a : Actor) (effects : Handle → Effect) : a.Calm (a.poll effects) := by
  have hreg : (a.poll effects).registry = a.registry := by
    simp only [registry, poll, slotUse_poll]
  refine ⟨by rw [hreg]; exact .refl, ?_, rfl, rfl⟩
  intro h s' hs'
  obtain ⟨s, hs, hpoll⟩ := Option.map_eq_some_iff.mp hs'
  cases s with
  | udp s => simp [Socket.polled] at hpoll
  | tcp s =>
    simp only [Socket.polled, Socket.tcp.injEq] at hpoll
    exact .inl ⟨s, hs, hpoll ▸ s.continues_polled _⟩

theorem poll_keeps (hinv : a.Inv) (effects : Handle → Effect) : Keeps a (a.poll effects) :=
  ⟨hinv.steady_of_eq (poll_calm a effects).steady rfl rfl, poll_calm a effects⟩

/-- Changing sockets without changing what they are in use for. -/
theorem calm_of_registry_eq {a' : Actor} (hreg : a'.registry = a.registry)
    (hstreams : ∀ h s', a'.sockets h = some (.tcp s') →
      ∃ s, a.sockets h = some (.tcp s) ∧ s.Continues s')
    (hdeliveries : a'.deliveries = a.deliveries) (hhandled : a'.handled = a.handled) :
    a.Calm a' :=
  ⟨by rw [hreg]; exact .refl, fun h s' hs' => .inl (hstreams h s' hs'), hdeliveries, hhandled⟩

/-- The TCP sockets of a set after another one was written. -/
theorem tcp_of_put {set : SocketSet} {h h' : Handle} {sock : Socket} {s' : TcpSocket}
    (hs' : set.put h sock h' = some (.tcp s')) :
    (h' = h ∧ sock = .tcp s') ∨ (h' ≠ h ∧ set h' = some (.tcp s')) := by
  by_cases hh : h' = h
  · subst hh
    rw [SocketSet.put_self] at hs'
    exact .inl ⟨rfl, Option.some.inj hs'⟩
  · rw [SocketSet.put_of_ne _ _ hh] at hs'
    exact .inr ⟨hh, hs'⟩

/-- Adding a TCP flow with a fresh socket. -/
theorem addTcp_calm {slot : Handle} (hslot : a.sockets slot = none) {key : FlowKey}
    (hnew : a.tcpFlows.lookup key = none) (sock : TcpSocket) (howner : sock.owner = a.nextFlow)
    (hsent : sock.sent = []) (flow : TcpFlow) (hentry : flow.entry = (a.nextFlow, slot)) :
    a.Calm { a with
      sockets := a.sockets.put slot (.tcp sock)
      tcpFlows := a.tcpFlows.insert key flow
      nextFlow := a.nextFlow + 1 } := by
  refine ⟨?_, ?_, rfl, rfl⟩
  · have hstep : Registry.Step a.registry (a.registry.add .tcp key slot) :=
      .add (by simp [registry, hnew]) (by simp [registry, slotUse, hslot])
    refine .single (Eq.subst (motive := Registry.Step a.registry) ?_ hstep)
    refine Registry.ext (funext fun p => funext fun k => ?_) ?_ rfl
    · cases p with
      | tcp => simp [registry, Registry.add, entry_insert, hentry]
      | udp => simp [registry, Registry.add]
    · simp [registry, Registry.add, slotUse_put, Socket.kind, Socket.owner, howner]
  · intro h s' hs'
    rcases tcp_of_put hs' with ⟨-, heq⟩ | ⟨-, hs⟩
    · obtain rfl := Socket.tcp.inj heq
      exact .inr ⟨Nat.le_of_eq howner.symm, hsent⟩
    · exact .inl ⟨s', hs, .refl s'⟩

/-- Adding a UDP flow with a fresh socket, whatever its relay. -/
theorem addUdp_calm {slot : Handle} (hslot : a.sockets slot = none) {key : FlowKey}
    (hnew : a.udpFlows.lookup key = none) (sock : UdpSocket) (howner : sock.owner = a.nextFlow)
    (flow : UdpFlow) (hentry : flow.entry = (a.nextFlow, slot))
    (relays : FlowId → Option UdpRelay) :
    a.Calm { a with
      sockets := a.sockets.put slot (.udp sock)
      udpFlows := a.udpFlows.insert key flow
      udpRelays := relays
      nextFlow := a.nextFlow + 1 } := by
  refine ⟨?_, ?_, rfl, rfl⟩
  · have hstep : Registry.Step a.registry (a.registry.add .udp key slot) :=
      .add (by simp [registry, hnew]) (by simp [registry, slotUse, hslot])
    refine .single (Eq.subst (motive := Registry.Step a.registry) ?_ hstep)
    refine Registry.ext (funext fun p => funext fun k => ?_) ?_ rfl
    · cases p with
      | tcp => simp [registry, Registry.add]
      | udp => simp [registry, Registry.add, entry_insert, hentry]
    · simp [registry, Registry.add, slotUse_put, Socket.kind, Socket.owner, howner]
  · intro h s' hs'
    rcases tcp_of_put hs' with ⟨-, heq⟩ | ⟨-, hs⟩
    · simp at heq
    · exact .inl ⟨s', hs, .refl s'⟩

theorem ensureTcp_keeps (hinv : a.Inv) (now : Nat) {slot : Handle}
    (hslot : a.sockets slot = none) (key : FlowKey) :
    Keeps a (ensureTcp now slot a key) := by
  unfold ensureTcp
  split
  · exact .refl hinv
  split
  · exact .refl hinv
  rename_i hnew _
  rw [Option.not_isSome_iff_eq_none] at hnew
  have hcalm := addTcp_calm hslot hnew
    { owner := a.nextFlow, localEndpoint := key.dst, state := .listen, recv := [],
      sent := [], una := 0 }
    rfl rfl { id := a.nextFlow, handle := slot, relayStarted := false, lastActive := now } rfl
  exact ⟨hinv.steady_of_eq hcalm.steady rfl rfl, hcalm⟩

theorem ensureUdp_keeps (hinv : a.Inv) (now : Nat) {slot : Handle}
    (hslot : a.sockets slot = none) (key : FlowKey) :
    Keeps a (ensureUdp now slot a key) := by
  unfold ensureUdp
  split
  · exact .refl hinv
  split
  · exact .refl hinv
  rename_i hnew _
  rw [Option.not_isSome_iff_eq_none] at hnew
  have hcalm := addUdp_calm hslot hnew
    { owner := a.nextFlow, localEndpoint := key.dst, rx := [], tx := [] } rfl
    { id := a.nextFlow, handle := slot, lastActive := now } rfl
    (Function.update a.udpRelays a.nextFlow
      (some { handle := slot, outbound := [], waiting := false }))
  refine ⟨hinv.steady hcalm.steady (fun i r' hr' => .inl ⟨r', hr', rfl⟩) ?_, hcalm⟩
  intro i r' hr'
  by_cases hi : i = a.nextFlow
  · -- the relay of the new flow
    right
    subst hi
    simp only [Function.update_self, Option.some.injEq] at hr'
    subst hr'
    exact (hinv.wellFormed.evolves hcalm.evolves).linked_entry (k := key)
      (entry_udp.mpr ⟨_, AList.lookup_insert _, rfl, rfl⟩)
  · left
    simp only [Function.update_of_ne hi] at hr'
    exact ⟨r', hr', rfl⟩

theorem ensureFlow_keeps (hinv : a.Inv) (now : Nat) {slot : Handle}
    (hslot : a.sockets slot = none) (pkt : Bytes) : Keeps a (a.ensureFlow now slot pkt) := by
  unfold ensureFlow
  split
  · split
    · exact ensureTcp_keeps hinv now hslot _
    split
    · exact ensureUdp_keeps hinv now hslot _
    · exact .refl hinv
  · exact .refl hinv

/-- A loop whose body keeps the invariant calmly does so as a whole. -/
theorem loop_keeps {α : Type} {f : Actor → α → Option Actor}
    (hbody : ∀ a x, a.Inv → ∃ a', f a x = some a' ∧ Keeps a a') (xs : List α)
    (hinv : a.Inv) : ∃ a', xs.foldlM f a = some a' ∧ Keeps a a' := by
  refine foldlM_keeps (P := Keeps a) ?_ xs (.refl hinv)
  rintro b x ⟨hb, hcalm⟩
  obtain ⟨b', hf, hb', hcalm'⟩ := hbody b x hb
  exact ⟨b', hf, hb', hcalm.trans hcalm'⟩

theorem startTcpRelay_keeps (a : Actor) (key : FlowKey) (hinv : a.Inv) :
    ∃ a', startTcpRelay a key = some a' ∧ Keeps a a' := by
  unfold startTcpRelay
  split
  · exact ⟨a, rfl, .refl hinv⟩
  rename_i f hf
  obtain ⟨s, hs, howner⟩ := hinv.tcpSocket hf
  rw [SocketSet.getTcp_eq_some.mpr hs]
  dsimp only
  split
  · exact ⟨a, rfl, .refl hinv⟩
  split
  · rename_i hstate
    refine ⟨_, rfl, ?_⟩
    have hreg : ({ a with
        tcpFlows := a.tcpFlows.insert key { f with relayStarted := true }
        tcpRelays := Function.update a.tcpRelays f.id
          (some { handle := f.handle, dst := key.dst, connection := .connecting,
                  writer := .receiving, outbound := [] }) } : Actor).registry =
            a.registry := by
      refine Registry.ext (funext fun p => funext fun k => ?_) rfl rfl
      cases p with
      | tcp => exact entry_insert_same _ hf (by rfl) k
      | udp => rfl
    have hcalm := calm_of_registry_eq hreg (fun h s' hs' => ⟨s', hs', .refl s'⟩) rfl rfl
    refine ⟨hinv.steady hcalm.steady ?_ (fun i r' hr' => .inl ⟨r', hr', rfl⟩), hcalm⟩
    intro i r' hr'
    by_cases hi : i = f.id
    · -- the relay that was just started
      right
      subst hi
      simp only [Function.update_self, Option.some.injEq] at hr'
      subst hr'
      refine ⟨?_, ?_⟩
      · rw [hreg]
        exact hinv.wellFormed.linked_entry (entry_tcp.mpr ⟨f, hf, rfl, rfl⟩)
      · intro h s' hs' howner'
        have hs' : a.sockets h = some (.tcp s') := hs'
        obtain ⟨k, hk⟩ := hinv.wellFormed.owned (slot_tcp.mpr ⟨s', hs', howner'⟩)
        have hh := (hinv.wellFormed.linked_entry (entry_tcp.mpr ⟨f, hf, rfl, rfl⟩)).2 k h hk
        rw [hh] at hs'
        have heq : s' = s := by simpa [hs] using hs'.symm
        rw [heq, hstate]
        rfl
    · left
      simp only [Function.update_of_ne hi] at hr'
      exact ⟨r', hr', rfl⟩
  · exact ⟨a, rfl, .refl hinv⟩

/-- An entry that is written over in a table was there before with the same value of `g`. -/
theorem exists_of_update {α β : Type} {t : FlowId → Option α} (g : α → β) {id i : FlowId}
    {r new r' : α} (hr : t id = some r) (h : Function.update t id (some new) i = some r')
    (hg : g r = g new) : ∃ x, t i = some x ∧ g x = g r' := by
  by_cases hi : i = id
  · subst hi
    rw [Function.update_self, Option.some.injEq] at h
    exact ⟨r, hr, h ▸ hg⟩
  · rw [Function.update_of_ne hi] at h
    exact ⟨r', h, rfl⟩

theorem sendTcpOutbound_keeps (hinv : a.Inv) (id : FlowId) (data : Bytes) :
    Keeps a (a.sendTcpOutbound id data) := by
  unfold sendTcpOutbound
  split
  · rename_i r hr
    split
    · have hcalm : a.Calm { a with
          tcpRelays := Function.update a.tcpRelays id
            (some { r with outbound := r.outbound ++ [data] }) } :=
        calm_of_registry_eq rfl (fun h s' hs' => ⟨s', hs', .refl s'⟩) rfl rfl
      exact ⟨hinv.steady hcalm.steady
        (fun i r' hr' => .inl (exists_of_update TcpRelay.handle hr hr' rfl))
        (fun i r' hr' => .inl ⟨r', hr', rfl⟩), hcalm⟩
    · exact .refl hinv
  · exact .refl hinv

theorem sendUdpOutbound_keeps (hinv : a.Inv) (id : FlowId) (data : SocketAddr × Bytes) :
    Keeps a (a.sendUdpOutbound id data) := by
  unfold sendUdpOutbound
  split
  · rename_i r hr
    have hcalm : a.Calm { a with
        udpRelays := Function.update a.udpRelays id
          (some { r with outbound := r.outbound ++ [data] }) } :=
      calm_of_registry_eq rfl (fun h s' hs' => ⟨s', hs', .refl s'⟩) rfl rfl
    exact ⟨hinv.steady hcalm.steady (fun i r' hr' => .inl ⟨r', hr', rfl⟩)
      (fun i r' hr' => .inl (exists_of_update UdpRelay.handle hr hr' rfl)), hcalm⟩
  · exact .refl hinv

theorem drainTcpFlow_keeps (now : Nat) (a : Actor) (key : FlowKey) (hinv : a.Inv) :
    ∃ a', drainTcpFlow now a key = some a' ∧ Keeps a a' := by
  unfold drainTcpFlow
  split
  · exact ⟨a, rfl, .refl hinv⟩
  rename_i f hf
  split
  · exact ⟨a, rfl, .refl hinv⟩
  obtain ⟨s, hs, -⟩ := hinv.tcpSocket hf
  rw [SocketSet.getTcp_eq_some.mpr hs]
  dsimp only
  split
  · exact ⟨a, rfl, .refl hinv⟩
  refine ⟨_, rfl, ?_⟩
  have hcalm : a.Calm { a with
      sockets := a.sockets.put f.handle (.tcp { s with recv := [] })
      tcpFlows := a.tcpFlows.insert key { f with lastActive := now } } := by
    refine calm_of_registry_eq ?_ ?_ rfl rfl
    · refine Registry.ext (funext fun p => funext fun k => ?_)
        (slotUse_put_same hs (by rfl) (by rfl)) rfl
      cases p with
      | tcp => exact entry_insert_same _ hf (by rfl) k
      | udp => rfl
    · intro h s' hs'
      rcases tcp_of_put hs' with ⟨rfl, heq⟩ | ⟨-, hold⟩
      · obtain rfl := Socket.tcp.inj heq
        exact ⟨s, hs, ⟨rfl, rfl, id, id⟩⟩
      · exact ⟨s', hold, .refl s'⟩
  obtain ⟨hinv', hcalm'⟩ :=
    sendTcpOutbound_keeps (hinv.steady_of_eq hcalm.steady rfl rfl) f.id s.recv
  exact ⟨hinv', hcalm.trans hcalm'⟩

theorem drainUdpFlow_keeps (now : Nat) (a : Actor) (key : FlowKey) (hinv : a.Inv) :
    ∃ a', drainUdpFlow now a key = some a' ∧ Keeps a a' := by
  unfold drainUdpFlow
  split
  · exact ⟨a, rfl, .refl hinv⟩
  rename_i f hf
  obtain ⟨s, hs, -⟩ := hinv.udpSocket hf
  rw [SocketSet.getUdp_eq_some.mpr hs]
  dsimp only
  split
  · exact ⟨a, rfl, .refl hinv⟩
  rename_i d rx _
  refine ⟨_, rfl, ?_⟩
  have hcalm : a.Calm { a with
      sockets := a.sockets.put f.handle (.udp { s with rx := rx })
      udpFlows := a.udpFlows.insert key { f with lastActive := now } } := by
    refine calm_of_registry_eq ?_ ?_ rfl rfl
    · refine Registry.ext (funext fun p => funext fun k => ?_)
        (slotUse_put_same hs (by rfl) (by rfl)) rfl
      cases p with
      | tcp => rfl
      | udp => exact entry_insert_same _ hf (by rfl) k
    · intro h s' hs'
      rcases tcp_of_put hs' with ⟨-, heq⟩ | ⟨-, hold⟩
      · simp at heq
      · exact ⟨s', hold, .refl s'⟩
  obtain ⟨hinv', hcalm'⟩ :=
    sendUdpOutbound_keeps (hinv.steady_of_eq hcalm.steady rfl rfl) f.id (key.dst, d.2)
  exact ⟨hinv', hcalm.trans hcalm'⟩

/-- A slot that is used is freed. -/
theorem remove_of_slot {set : SocketSet} {h : Handle} {s : Socket} (hs : set h = some s) :
    set.remove h = some (Function.update set h none) := by
  simp [SocketSet.remove, hs]

/-- The TCP sockets of a set after a slot was freed. -/
theorem tcp_of_clear {set : SocketSet} {h h' : Handle} {s' : TcpSocket}
    (hs' : Function.update set h none h' = some (.tcp s')) : set h' = some (.tcp s') := by
  by_cases hh : h' = h
  · subst hh
    simp at hs'
  · rwa [Function.update_of_ne hh] at hs'

theorem evictTcpFlow_keeps (now : Nat) (a : Actor) (key : FlowKey) (hinv : a.Inv) :
    ∃ a', evictTcpFlow now a key = some a' ∧ Keeps a a' := by
  unfold evictTcpFlow
  split
  · exact ⟨a, rfl, .refl hinv⟩
  rename_i f hf
  split
  · exact ⟨a, rfl, .refl hinv⟩
  obtain ⟨s, hs, -⟩ := hinv.tcpSocket hf
  rw [remove_of_slot hs]
  refine ⟨_, rfl, ?_⟩
  have hcalm : a.Calm { a with
      sockets := Function.update a.sockets f.handle none
      tcpFlows := a.tcpFlows.erase key } := by
    refine ⟨?_, fun h s' hs' => .inl ⟨s', tcp_of_clear hs', .refl s'⟩, rfl, rfl⟩
    have hstep : Registry.Step a.registry (a.registry.remove .tcp key f.handle) :=
      .remove (entry_tcp.mpr ⟨f, hf, rfl, rfl⟩)
    refine .single (Eq.subst (motive := Registry.Step a.registry) ?_ hstep)
    refine Registry.ext (funext fun p => funext fun k => ?_) ?_ rfl
    · cases p with
      | tcp => simp [registry, Registry.remove, entry_erase]
      | udp => simp [registry, Registry.remove]
    · simp [registry, Registry.remove, slotUse_clear]
  exact ⟨hinv.steady_of_eq hcalm.steady rfl rfl, hcalm⟩

theorem evictUdpFlow_keeps (now : Nat) (a : Actor) (key : FlowKey) (hinv : a.Inv) :
    ∃ a', evictUdpFlow now a key = some a' ∧ Keeps a a' := by
  unfold evictUdpFlow
  split
  · exact ⟨a, rfl, .refl hinv⟩
  rename_i f hf
  split
  · exact ⟨a, rfl, .refl hinv⟩
  obtain ⟨s, hs, -⟩ := hinv.udpSocket hf
  rw [remove_of_slot hs]
  refine ⟨_, rfl, ?_⟩
  have hcalm : a.Calm { a with
      sockets := Function.update a.sockets f.handle none
      udpFlows := a.udpFlows.erase key } := by
    refine ⟨?_, fun h s' hs' => .inl ⟨s', tcp_of_clear hs', .refl s'⟩, rfl, rfl⟩
    have hstep : Registry.Step a.registry (a.registry.remove .udp key f.handle) :=
      .remove (entry_udp.mpr ⟨f, hf, rfl, rfl⟩)
    refine .single (Eq.subst (motive := Registry.Step a.registry) ?_ hstep)
    refine Registry.ext (funext fun p => funext fun k => ?_) ?_ rfl
    · cases p with
      | tcp => simp [registry, Registry.remove]
      | udp => simp [registry, Registry.remove, entry_erase]
    · simp [registry, Registry.remove, slotUse_clear]
  exact ⟨hinv.steady_of_eq hcalm.steady rfl rfl, hcalm⟩

/-! ## The arms without relay data, and the tasks of a turn -/

theorem startTcpRelays_keeps (hinv : a.Inv) :
    ∃ a', a.startTcpRelays = some a' ∧ Keeps a a' :=
  loop_keeps startTcpRelay_keeps _ hinv

theorem evictFlows_keeps (hinv : a.Inv) (now : Nat) :
    ∃ a', a.evictFlows now = some a' ∧ Keeps a a' := by
  obtain ⟨a₁, e₁, h₁, c₁⟩ := loop_keeps (evictTcpFlow_keeps now) a.tcpFlows.keys hinv
  obtain ⟨a₂, e₂, h₂, c₂⟩ := loop_keeps (evictUdpFlow_keeps now) a₁.udpFlows.keys h₁
  exact ⟨a₂, by simp [evictFlows, e₁, e₂], h₂, c₁.trans c₂⟩

/-- **Inbound packets and ticks.**  Their arms never panic and append nothing. -/
theorem handle_calm (hinv : a.Inv) {env : Env} (hslot : a.sockets env.slot = none)
    (now : Nat) {m : Msg} (hm : m = .tick ∨ ∃ pkt, m = .inbound pkt) :
    ∃ a', a.handle env now m = some a' ∧ Keeps a a' := by
  rcases hm with rfl | ⟨pkt, rfl⟩
  · exact ⟨_, rfl, poll_keeps hinv env.effects⟩
  · obtain ⟨h₀, c₀⟩ := ensureFlow_keeps hinv now hslot pkt
    obtain ⟨h₁, c₁⟩ := poll_keeps h₀ env.effects
    exact ⟨_, rfl, h₁, c₀.trans c₁⟩

/-- **Tasks.**  No task of a turn panics or appends anything. -/
theorem perform_keeps (hinv : a.Inv) (now : Nat) (task : Task) :
    ∃ a', a.perform now task = some a' ∧ Keeps a a' := by
  cases task with
  | startTcpRelays => exact startTcpRelays_keeps hinv
  | drainTcpRecv | drainUdpRecv => exact ⟨a, rfl, .refl hinv⟩
  | drainTcpFlow key => exact drainTcpFlow_keeps now a key hinv
  | drainUdpFlow key => exact drainUdpFlow_keeps now a key hinv
  | evictFlows => exact evictFlows_keeps hinv now

theorem performAll_keeps (hinv : a.Inv) (tasks : List (Nat × Task)) :
    ∃ a', a.performAll tasks = some a' ∧ Keeps a a' :=
  loop_keeps (fun _ x hb => perform_keeps hb x.1 x.2) tasks hinv

/-! ## The arms with relay data -/

/-- What `feed_tcp_send` and the record make of an actor whose slot holds a TCP
socket. -/
def fedTcp (a : Actor) (origin : FlowId) (handle : Handle) (data : Bytes) (s : TcpSocket) :
    Actor :=
  if s.maySend then
    let size := min data.length s.free
    { a with
      sockets := a.sockets.put handle (.tcp { s with sent := s.sent ++ data.take size })
      deliveries := a.deliveries ++
        (if size = 0 then [] else [⟨origin, s.owner, data.take size⟩])
      handled := Function.update a.handled origin (a.handled origin ++ data) }
  else a.record origin data

/-- The `TcpData` arm panics exactly on a slot without a TCP socket. -/
theorem handle_tcpData (env : Env) (now : Nat) (origin : FlowId) (handle : Handle)
    (data : Bytes) :
    a.handle env now (.tcpData origin handle data) =
      (a.sockets.getTcp handle).map fun s =>
        (a.fedTcp origin handle data s).poll env.effects := by
  simp only [Actor.handle, feedTcpSend, record, fedTcp]
  cases a.sockets.getTcp handle with
  | none => rfl
  | some s =>
    by_cases hsend : s.maySend = true
    · simp [TcpSocket.sendSlice, hsend]
    · simp [TcpSocket.sendSlice, hsend]

theorem fedTcp_steady (origin : FlowId) {handle : Handle} (data : Bytes) {s : TcpSocket}
    (hs : a.sockets handle = some (.tcp s)) : a.Steady (a.fedTcp origin handle data s) := by
  unfold fedTcp
  split
  · have hreg : ({ a with
        sockets := a.sockets.put handle
          (.tcp { s with sent := s.sent ++ data.take (min data.length s.free) })
        deliveries := a.deliveries ++
          (if min data.length s.free = 0 then []
           else [⟨origin, s.owner, data.take (min data.length s.free)⟩])
        handled := Function.update a.handled origin (a.handled origin ++ data) } :
          Actor).registry = a.registry :=
      Registry.ext rfl (slotUse_put_same hs (by rfl) (by rfl)) rfl
    refine ⟨by rw [hreg]; exact .refl, fun i _ ho h s' hs' howner => ?_⟩
    rcases tcp_of_put hs' with ⟨rfl, heq⟩ | ⟨-, hold⟩
    · obtain rfl := Socket.tcp.inj heq
      exact ho _ s hs howner
    · exact ho h s' hold howner
  · exact ⟨.refl, fun i _ ho => ho⟩

@[simp] theorem fedTcp_handled (a : Actor) (origin : FlowId) (handle : Handle) (data : Bytes)
    (s : TcpSocket) : (a.fedTcp origin handle data s).handled =
      Function.update a.handled origin (a.handled origin ++ data) := by
  unfold fedTcp
  split <;> rfl

@[simp] theorem fedTcp_tcpFlows (a : Actor) (origin : FlowId) (handle : Handle) (data : Bytes)
    (s : TcpSocket) : (a.fedTcp origin handle data s).tcpFlows = a.tcpFlows := by
  unfold fedTcp
  split <;> rfl

theorem fedTcp_sockets_self {s : TcpSocket} (hsend : s.maySend = true) (origin : FlowId)
    (handle : Handle) (data : Bytes) :
    (a.fedTcp origin handle data s).sockets handle =
      some (.tcp { s with sent := s.sent ++ data.take (min data.length s.free) }) := by
  simp [fedTcp, hsend]

theorem fedTcp_sockets_of_ne (a : Actor) (origin : FlowId) {handle h : Handle} (data : Bytes)
    (s : TcpSocket) (hne : h ≠ handle) :
    (a.fedTcp origin handle data s).sockets h = a.sockets h := by
  unfold fedTcp
  split
  · exact SocketSet.put_of_ne _ _ hne
  · rfl

theorem fedTcp_relays (a : Actor) (origin : FlowId) (handle : Handle) (data : Bytes)
    (s : TcpSocket) :
    (a.fedTcp origin handle data s).tcpRelays = a.tcpRelays ∧
      (a.fedTcp origin handle data s).udpRelays = a.udpRelays := by
  unfold fedTcp
  split <;> exact ⟨rfl, rfl⟩

/-- What `feed_udp_send` makes of an actor whose slot holds a UDP socket. -/
def fedUdp (room : Bool) (a : Actor) (origin : FlowId) (handle : Handle)
    (peerEp : SocketAddr) (data : Bytes) (s : UdpSocket) : Actor :=
  if addressable peerEp && room then
    { a with
      sockets := a.sockets.put handle (.udp { s with tx := s.tx ++ [(peerEp, data)] })
      deliveries := a.deliveries ++ [⟨origin, s.owner, data⟩] }
  else a

theorem fedUdp_steady (room : Bool) (origin : FlowId) {handle : Handle} (peerEp : SocketAddr)
    (data : Bytes) {s : UdpSocket} (hs : a.sockets handle = some (.udp s)) :
    a.Steady (a.fedUdp room origin handle peerEp data s) := by
  unfold fedUdp
  split
  · have hreg : ({ a with
        sockets := a.sockets.put handle (.udp { s with tx := s.tx ++ [(peerEp, data)] })
        deliveries := a.deliveries ++ [⟨origin, s.owner, data⟩] } : Actor).registry =
          a.registry :=
      Registry.ext rfl (slotUse_put_same hs (by rfl) (by rfl)) rfl
    refine ⟨by rw [hreg]; exact .refl, fun i _ ho h s' hs' howner => ?_⟩
    rcases tcp_of_put hs' with ⟨-, heq⟩ | ⟨-, hold⟩
    · simp at heq
    · exact ho h s' hold howner
  · exact ⟨.refl, fun i _ ho => ho⟩

theorem fedUdp_relays (room : Bool) (a : Actor) (origin : FlowId) (handle : Handle)
    (peerEp : SocketAddr) (data : Bytes) (s : UdpSocket) :
    (a.fedUdp room origin handle peerEp data s).tcpRelays = a.tcpRelays ∧
      (a.fedUdp room origin handle peerEp data s).udpRelays = a.udpRelays := by
  unfold fedUdp
  split <;> exact ⟨rfl, rfl⟩

/-- What the look-up of the `UdpReply` arm finds: the source of a flow with the
handle. -/
theorem udpPeer_eq_some {handle : Handle} {peerEp : SocketAddr}
    (h : a.udpPeer handle = some peerEp) :
    ∃ key f, a.udpFlows.lookup key = some f ∧ f.handle = handle ∧ key.src = peerEp := by
  obtain ⟨⟨key, f⟩, hfind, hsrc⟩ := Option.map_eq_some_iff.mp h
  have hmem := List.mem_of_find?_eq_some hfind
  have hhandle := List.find?_some hfind
  exact ⟨key, f, AList.mem_lookup_iff.mpr hmem, of_decide_eq_true hhandle, hsrc⟩

theorem udpPeer_eq_none {handle : Handle} (h : a.udpPeer handle = none) {key : FlowKey}
    {f : UdpFlow} (hf : a.udpFlows.lookup key = some f) : f.handle ≠ handle := by
  have hnone := List.find?_eq_none.mp (Option.map_eq_none_iff.mp h) ⟨key, f⟩
    (AList.mem_lookup_iff.mp hf)
  simpa using hnone

/-- The `UdpReply` arm never panics: it feeds the flow that has the handle, if any. -/
theorem handle_udpReply (hinv : a.Inv) (env : Env) (now : Nat) (origin : FlowId)
    (handle : Handle) (data : Bytes) :
    (a.udpPeer handle = none ∧
      a.handle env now (.udpReply origin handle data) = some (a.poll env.effects)) ∨
    ∃ key f s, a.udpFlows.lookup key = some f ∧ f.handle = handle ∧
      a.sockets handle = some (.udp s) ∧ s.owner = f.id ∧
      a.handle env now (.udpReply origin handle data) =
        some ((a.fedUdp env.room origin handle key.src data s).poll env.effects) := by
  cases hpeer : a.udpPeer handle with
  | none => exact .inl ⟨rfl, by simp only [Actor.handle, hpeer]⟩
  | some peerEp =>
    right
    obtain ⟨key, f, hf, rfl, rfl⟩ := udpPeer_eq_some hpeer
    obtain ⟨s, hs, howner⟩ := hinv.udpSocket hf
    refine ⟨key, f, s, hf, rfl, hs, howner, ?_⟩
    simp only [Actor.handle, hpeer, feedUdpSend, SocketSet.getUdp_eq_some.mpr hs,
      UdpSocket.sendSlice, fedUdp]
    by_cases hroom : (addressable key.src && env.room) = true
    · simp [hroom]
    · simp [hroom]

end Actor

end Ruproxy.Wireguard
