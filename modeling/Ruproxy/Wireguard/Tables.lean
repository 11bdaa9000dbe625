/-
  Wireguard/Tables.lean --- which keys the flow tables have.

  Only a packet puts a key into a table, and it is the key of the packet: the
  loops over the tables write flows again under their keys or take them out, and
  the tasks beside the actor do not touch its locals.
-/
import Ruproxy.Wireguard.System
import Ruproxy.Wireguard.Turns

set_option autoImplicit false

namespace Ruproxy.Wireguard

open Ruproxy.Foundation

namespace Actor

variable {a a' : Actor}

/-! ## Keys -/

/-- The tables of `a'` have no key that those of `a` do not have. -/
structure Within (a a' : Actor) : Prop where
  tcp : ∀ key, key ∈ a'.tcpFlows → key ∈ a.tcpFlows
  udp : ∀ key, key ∈ a'.udpFlows → key ∈ a.udpFlows

theorem Within.refl (a : Actor) : a.Within a := ⟨fun _ h => h, fun _ h => h⟩

theorem Within.trans {a b c : Actor} (h₁ : a.Within b) (h₂ : b.Within c) : a.Within c :=
  ⟨fun key h => h₁.tcp key (h₂.tcp key h), fun key h => h₁.udp key (h₂.udp key h)⟩

/-- Writing a flow again adds no key. -/
theorem mem_of_mem_insert {F : Type} {t : Table FlowKey F} {key : FlowKey} {f g : F}
    (hf : t.lookup key = some f) {key' : FlowKey} (h : key' ∈ t.insert key g) : key' ∈ t := by
  rcases AList.mem_insert _ |>.mp h with rfl | h
  · exact AList.lookup_isSome.mp (by rw [hf]; rfl)
  · exact h

theorem startTcpRelay_within {key : FlowKey} (h : startTcpRelay a key = some a') :
    a.Within a' := by
  rcases startTcpRelay_cases h with rfl | ⟨f, relays, hf, -, rfl⟩
  · exact .refl _
  · exact ⟨fun _ hkey => mem_of_mem_insert hf hkey, fun _ hkey => hkey⟩

theorem drainTcpFlow_within {now : Nat} {key : FlowKey} (h : drainTcpFlow now a key = some a') :
    a.Within a' := by
  rcases drainTcpFlow_cases h with ⟨rfl, -⟩ | ⟨f, s, relays, hf, -, -, -, -, rfl⟩
  · exact .refl _
  · exact ⟨fun _ hkey => mem_of_mem_insert hf hkey, fun _ hkey => hkey⟩

theorem drainUdpFlow_within {now : Nat} {key : FlowKey} (h : drainUdpFlow now a key = some a') :
    a.Within a' := by
  rcases drainUdpFlow_cases h with rfl | ⟨f, s, d, rx, relays, hf, -, -, rfl⟩
  · exact .refl _
  · exact ⟨fun _ hkey => hkey, fun _ hkey => mem_of_mem_insert hf hkey⟩

theorem evictTcpFlow_within {now : Nat} {key : FlowKey} (h : evictTcpFlow now a key = some a') :
    a.Within a' := by
  rcases evictTcpFlow_cases h with ⟨rfl, -⟩ | ⟨f, sockets, -, -, -, rfl⟩
  · exact .refl _
  · exact ⟨fun _ hkey => (AList.mem_erase.mp hkey).2, fun _ hkey => hkey⟩

theorem evictUdpFlow_within {now : Nat} {key : FlowKey} (h : evictUdpFlow now a key = some a') :
    a.Within a' := by
  rcases evictUdpFlow_cases h with rfl | ⟨f, sockets, -, -, -, rfl⟩
  · exact .refl _
  · exact ⟨fun _ hkey => hkey, fun _ hkey => (AList.mem_erase.mp hkey).2⟩

/-- A loop over flows or tasks. -/
theorem loop_within {α : Type} {f : Actor → α → Option Actor}
    (hbody : ∀ {a x a'}, f a x = some a' → a.Within a') {xs : List α}
    (h : xs.foldlM f a = some a') : a.Within a' :=
  foldlM_rel Within.refl Within.trans hbody h

theorem feedTcpSend_within {origin : FlowId} {handle : Handle} {data : Bytes}
    (h : a.feedTcpSend origin handle data = some a') : a.Within a' := by
  obtain ⟨sockets, deliveries, rfl⟩ := feedTcpSend_eq h
  exact ⟨fun _ hkey => hkey, fun _ hkey => hkey⟩

theorem feedUdpSend_within {room : Bool} {origin : FlowId} {handle : Handle}
    {peerEp : SocketAddr} {data : Bytes}
    (h : a.feedUdpSend room origin handle peerEp data = some a') : a.Within a' := by
  obtain ⟨sockets, deliveries, rfl⟩ := feedUdpSend_eq h
  exact ⟨fun _ hkey => hkey, fun _ hkey => hkey⟩

/-- A packet adds its own key at most. -/
theorem ensureFlow_keys {now : Nat} {slot : Handle} {pkt : Bytes} {key : FlowKey}
    (h : key ∈ (a.ensureFlow now slot pkt).tcpFlows ∨ key ∈ (a.ensureFlow now slot pkt).udpFlows) :
    key ∈ a.tcpFlows ∨ key ∈ a.udpFlows ∨ parseFlowKey pkt = some key := by
  unfold ensureFlow at h
  split at h
  · rename_i key' hkey'
    split at h
    · unfold ensureTcp at h
      split at h
      · exact h.imp id .inl
      split at h
      · exact h.imp id .inl
      rcases h with h | h
      · rcases AList.mem_insert _ |>.mp h with rfl | h
        · exact .inr (.inr hkey')
        · exact .inl h
      · exact .inr (.inl h)
    split at h
    · unfold ensureUdp at h
      split at h
      · exact h.imp id .inl
      split at h
      · exact h.imp id .inl
      rcases h with h | h
      · exact .inl h
      · rcases AList.mem_insert _ |>.mp h with rfl | h
        · exact .inr (.inr hkey')
        · exact .inr (.inl h)
    · exact h.imp id .inl
  · exact h.imp id .inl

/-- A message adds no key after step 1 of the `Inbound` arm. -/
theorem handle_within {env : Env} {now : Nat} {m : Msg} (h : a.handle env now m = some a') :
    (∃ pkt, m = .inbound pkt ∧ (a.ensureFlow now env.slot pkt).Within a') ∨ a.Within a' := by
  cases m with
  | inbound pkt =>
    cases h
    exact .inl ⟨pkt, rfl, fun _ hkey => hkey, fun _ hkey => hkey⟩
  | tick =>
    cases h
    exact .inr ⟨fun _ hkey => hkey, fun _ hkey => hkey⟩
  | tcpData origin handle data =>
    simp only [Actor.handle, Option.bind_eq_bind, Option.bind_eq_some_iff] at h
    obtain ⟨a₂, h₂, h₃⟩ := h
    cases h₃
    have hfed := feedTcpSend_within h₂
    exact .inr ⟨hfed.tcp, hfed.udp⟩
  | udpReply origin handle data =>
    simp only [Actor.handle] at h
    split at h
    · simp only [Option.bind_eq_bind, Option.bind_eq_some_iff] at h
      obtain ⟨a₂, h₂, h₃⟩ := h
      cases h₃
      have hfed := feedUdpSend_within h₂
      exact .inr ⟨hfed.tcp, hfed.udp⟩
    · cases h
      exact .inr ⟨fun _ hkey => hkey, fun _ hkey => hkey⟩

/-- A task adds no key. -/
theorem perform_within {now : Nat} {task : Task} (h : a.perform now task = some a') :
    a.Within a' := by
  cases task with
  | startTcpRelays => exact loop_within startTcpRelay_within h
  | drainTcpRecv | drainUdpRecv =>
    cases h
    exact .refl _
  | drainTcpFlow key => exact drainTcpFlow_within h
  | drainUdpFlow key => exact drainUdpFlow_within h
  | evictFlows =>
    simp only [perform, evictFlows, Option.bind_eq_bind, Option.bind_eq_some_iff] at h
    obtain ⟨b, htcp, hudp⟩ := h
    exact (loop_within evictTcpFlow_within htcp).trans (loop_within evictUdpFlow_within hudp)

theorem performAll_within {tasks : List (Nat × Task)} (h : a.performAll tasks = some a') :
    a.Within a' :=
  loop_within perform_within h

/-- **Keys.**  A message adds the key of its packet at most. -/
theorem handle_keys {env : Env} {now : Nat} {m : Msg} (h : a.handle env now m = some a')
    {key : FlowKey} (hkey : key ∈ a'.tcpFlows ∨ key ∈ a'.udpFlows) :
    key ∈ a.tcpFlows ∨ key ∈ a.udpFlows ∨
      ∃ pkt, m = .inbound pkt ∧ parseFlowKey pkt = some key := by
  rcases handle_within h with ⟨pkt, hm, hwithin⟩ | hwithin
  · have hold := ensureFlow_keys (hkey.imp (hwithin.tcp key) (hwithin.udp key))
    exact hold.imp_right (.imp_right fun hp => ⟨pkt, hm, hp⟩)
  · exact (hkey.imp (hwithin.tcp key) (hwithin.udp key)).imp_right .inl

end Actor

/-! ## The other tasks -/

namespace System

variable {s s' : System}

/-- A task beside the actor has moved: the locals of the actor are as they were, and at
most one message was sent, a packet by the forwarder only. -/
structure Apart (e : Event) (s s' : System) : Prop where
  sockets : s'.actor.sockets = s.actor.sockets
  tcpFlows : s'.actor.tcpFlows = s.actor.tcpFlows
  udpFlows : s'.actor.udpFlows = s.actor.udpFlows
  nextFlow : s'.actor.nextFlow = s.actor.nextFlow
  crashed : s'.crashed = s.crashed
  now : (∃ ms, e = .wait ms) ∨ s'.now = s.now
  inbox : s'.inbox = s.inbox ∨
    ∃ m, s'.inbox = s.inbox ++ [m] ∧ ∀ pkt, m = .inbound pkt → e = .packet pkt

theorem send_apart {e : Event} {t : System} {m : Msg} (ht : Apart e s t)
    (hinbox : t.inbox = s.inbox) (hm : ∀ pkt, m = .inbound pkt → e = .packet pkt)
    (h : t.send m = some s') : Apart e s s' := by
  unfold send at h
  split at h
  · cases h
    exact { ht with inbox := .inr ⟨m, by rw [hinbox], hm⟩ }
  · cases h

theorem Apart.refl (e : Event) (s : System) : Apart e s s :=
  ⟨rfl, rfl, rfl, rfl, rfl, .inr rfl, .inl rfl⟩

theorem setTcpRelay_apart (e : Event) (s : System) (flow : FlowId) (r : TcpRelay) :
    Apart e s (s.setTcpRelay flow r) := ⟨rfl, rfl, rfl, rfl, rfl, .inr rfl, .inl rfl⟩

theorem setUdpRelay_apart (e : Event) (s : System) (flow : FlowId) (r : UdpRelay) :
    Apart e s (s.setUdpRelay flow r) := ⟨rfl, rfl, rfl, rfl, rfl, .inr rfl, .inl rfl⟩

/-- **The other tasks.**  They leave the locals of the actor alone. -/
theorem Outside.apart {e : Event} (h : s.Outside e s') : Apart e s s' := by
  cases h with
  | @wait ms he => exact ⟨rfl, rfl, rfl, rfl, rfl, .inl ⟨ms, he⟩, .inl rfl⟩
  | packet hpacket hsend =>
    refine send_apart (.refl _ s) rfl (fun pkt hm => ?_) hsend
    cases hm
    exact hpacket
  | tick hsend | tcpData _ _ hsend =>
    exact send_apart (.refl _ s) rfl (fun _ hm => by cases hm) hsend
  | tcpRelay _ _ => exact setTcpRelay_apart _ _ _ _
  | udpRelay _ _ => exact setUdpRelay_apart _ _ _ _
  | udpReply _ _ hsend =>
    exact send_apart (setUdpRelay_apart _ _ _ _) rfl (fun _ hm => by cases hm) hsend

/-- Time passes in a step of its own. -/
theorem step_now {e : Event} (he : ∀ ms, e ≠ .wait ms) (h : s.step e = some s') :
    s'.now = s.now := by
  rcases step_mover h with ⟨env, rfl, -, hhandle⟩ | ⟨rfl, -, hproceed⟩ | ⟨-, houtside⟩
  · obtain ⟨m, inbox, -, -, -, ⟨-, rfl⟩ | ⟨a', -, rfl⟩⟩ := handle_eq_some hhandle
    · rfl
    · rfl
  · obtain ⟨task, todo, -, ⟨-, rfl⟩ | ⟨a', -, rfl⟩⟩ := proceed_eq_some hproceed
    · rfl
    · rfl
  · exact houtside.apart.now.resolve_left fun ⟨ms, hms⟩ => he ms hms

/-- A task of a turn adds no key. -/
theorem proceed_within (h : s.proceed = some s') :
    s.actor.Within s'.actor ∧ s'.inbox = s.inbox := by
  obtain ⟨task, todo, -, ⟨-, rfl⟩ | ⟨a', ha', rfl⟩⟩ := proceed_eq_some h
  · exact ⟨.refl _, rfl⟩
  · exact ⟨Actor.perform_within ha', rfl⟩

end System

end Ruproxy.Wireguard
