/-
  Wireguard/UdpFlows.lean --- what a step of a peer's stack does to its UDP flows.

  Only a packet from the tunnel makes a new UDP flow.  In every other step flows may go,
  and a socket that stays is bound as before and has the same owner.
-/
import Ruproxy.Wireguard.Handles
import Ruproxy.Wireguard.Tables

set_option autoImplicit false

namespace Ruproxy.Wireguard

open Ruproxy.Foundation

/-! ## The actor -/

namespace Actor

/-- UDP flows may have gone, none is new, and sockets are bound as before. -/
structure SameUdp (a a' : Actor) : Prop where
  next : a'.nextFlow = a.nextFlow
  flows : ∀ key f', a'.udpFlows.lookup key = some f' →
    ∃ f, a.udpFlows.lookup key = some f ∧ f.id = f'.id
  sockets : ∀ h u', a'.sockets h = some (.udp u') → ∃ u, a.sockets h = some (.udp u) ∧
    u.owner = u'.owner ∧ u.localEndpoint = u'.localEndpoint

theorem SameUdp.refl (a : Actor) : a.SameUdp a :=
  ⟨rfl, fun _ f hf => ⟨f, hf, rfl⟩, fun _ u hu => ⟨u, hu, rfl, rfl⟩⟩

theorem SameUdp.trans {a b c : Actor} (h₁ : a.SameUdp b) (h₂ : b.SameUdp c) : a.SameUdp c where
  next := h₂.next.trans h₁.next
  flows key f'' hf'' := by
    obtain ⟨f', hf', hid'⟩ := h₂.flows key f'' hf''
    obtain ⟨f, hf, hid⟩ := h₁.flows key f' hf'
    exact ⟨f, hf, hid.trans hid'⟩
  sockets h u'' hu'' := by
    obtain ⟨u', hu', howner', hlocal'⟩ := h₂.sockets h u'' hu''
    obtain ⟨u, hu, howner, hlocal⟩ := h₁.sockets h u' hu'
    exact ⟨u, hu, howner.trans howner', hlocal.trans hlocal'⟩

/-- The UDP sockets of a set after a socket was written. -/
theorem udp_of_put {set : SocketSet} {h h' : Handle} {sock : Socket} {u' : UdpSocket}
    (hu' : set.put h sock h' = some (.udp u')) :
    (h' = h ∧ sock = .udp u') ∨ set h' = some (.udp u') := by
  rcases eq_or_ne h' h with rfl | hne
  · rw [SocketSet.put_self] at hu'
    exact .inl ⟨rfl, Option.some.inj hu'⟩
  · rw [SocketSet.put_of_ne _ _ hne] at hu'
    exact .inr hu'

/-- The UDP sockets of a set after a slot was freed. -/
theorem udp_of_clear {set : SocketSet} {h h' : Handle} {u' : UdpSocket}
    (hu' : Function.update set h none h' = some (.udp u')) : set h' = some (.udp u') := by
  rcases eq_or_ne h' h with rfl | hne
  · rw [Function.update_self] at hu'
    cases hu'
  · rwa [Function.update_of_ne hne] at hu'

variable {a a' : Actor}

/-- Nothing but TCP sockets changed. -/
theorem sameUdp_putTcp (hnext : a'.nextFlow = a.nextFlow) (hflows : a'.udpFlows = a.udpFlows)
    {h : Handle} {s : TcpSocket} (hsockets : a'.sockets = a.sockets.put h (.tcp s)) :
    a.SameUdp a' where
  next := hnext
  flows key f' hf' := ⟨f', by rwa [← hflows], rfl⟩
  sockets h' u' hu' := by
    rw [hsockets] at hu'
    rcases udp_of_put hu' with ⟨-, heq⟩ | hu
    · cases heq
    · exact ⟨u', hu, rfl, rfl⟩

/-- A UDP socket was written that is bound as the old one. -/
theorem sameUdp_putUdp (hnext : a'.nextFlow = a.nextFlow) {h : Handle} {u v : UdpSocket}
    (hsockets : a'.sockets = a.sockets.put h (.udp v)) (hu : a.sockets h = some (.udp u))
    (howner : u.owner = v.owner) (hlocal : u.localEndpoint = v.localEndpoint)
    (hflows : ∀ key f', a'.udpFlows.lookup key = some f' →
      ∃ f, a.udpFlows.lookup key = some f ∧ f.id = f'.id) : a.SameUdp a' where
  next := hnext
  flows := hflows
  sockets h' u' hu' := by
    rw [hsockets] at hu'
    rcases udp_of_put hu' with ⟨rfl, heq⟩ | hold
    · cases heq
      exact ⟨u, hu, howner, hlocal⟩
    · exact ⟨u', hold, rfl, rfl⟩

theorem poll_sameUdp (a : Actor) (effects : Handle → Effect) : a.SameUdp (a.poll effects) where
  next := rfl
  flows _ f' hf' := ⟨f', hf', rfl⟩
  sockets h u' hu' := by
    obtain ⟨s, hs, hpolled⟩ := Option.map_eq_some_iff.mp hu'
    cases s with
    | tcp s => cases hpolled
    | udp u =>
      cases hpolled
      exact ⟨u, hs, rfl, rfl⟩

theorem startTcpRelay_sameUdp {key : FlowKey} (h : startTcpRelay a key = some a') :
    a.SameUdp a' := by
  rcases startTcpRelay_cases h with rfl | ⟨f, relays, -, -, rfl⟩
  · exact .refl _
  · exact ⟨rfl, fun _ f hf => ⟨f, hf, rfl⟩, fun _ u hu => ⟨u, hu, rfl, rfl⟩⟩

theorem drainTcpFlow_sameUdp {now : Nat} {key : FlowKey} (h : drainTcpFlow now a key = some a') :
    a.SameUdp a' := by
  rcases drainTcpFlow_cases h with ⟨rfl, -⟩ | ⟨f, s, relays, -, -, -, -, -, rfl⟩
  · exact .refl _
  · exact sameUdp_putTcp rfl rfl rfl

/-- The flows of a table after one of them was written again with its number. -/
theorem flows_of_insert {t : Table FlowKey UdpFlow} {key : FlowKey} {f g : UdpFlow}
    (hf : t.lookup key = some f) (hid : f.id = g.id) {key' : FlowKey} {f' : UdpFlow}
    (hf' : (t.insert key g).lookup key' = some f') :
    ∃ f, t.lookup key' = some f ∧ f.id = f'.id := by
  rcases eq_or_ne key' key with rfl | hne
  · rw [AList.lookup_insert] at hf'
    cases hf'
    exact ⟨f, hf, hid⟩
  · rw [AList.lookup_insert_ne hne] at hf'
    exact ⟨f', hf', rfl⟩

theorem drainUdpFlow_sameUdp {now : Nat} {key : FlowKey} (h : drainUdpFlow now a key = some a') :
    a.SameUdp a' := by
  rcases drainUdpFlow_cases h with rfl | ⟨f, u, d, rx, relays, hf, hu, -, rfl⟩
  · exact .refl _
  · refine sameUdp_putUdp rfl rfl (SocketSet.getUdp_eq_some.mp hu) rfl rfl fun key' f' hf' => ?_
    exact flows_of_insert hf (by rfl) hf'

/-- A socket was removed, and UDP flows may have gone. -/
theorem sameUdp_clear (hnext : a'.nextFlow = a.nextFlow)
    (hflows : ∀ key f, a'.udpFlows.lookup key = some f → a.udpFlows.lookup key = some f)
    {h : Handle} (hsockets : a.sockets.remove h = some a'.sockets) : a.SameUdp a' where
  next := hnext
  flows key f' hf' := ⟨f', hflows key f' hf', rfl⟩
  sockets h' u' hu' := by
    unfold SocketSet.remove at hsockets
    split at hsockets
    · rw [← Option.some.inj hsockets] at hu'
      exact ⟨u', udp_of_clear hu', rfl, rfl⟩
    · cases hsockets

theorem evictTcpFlow_sameUdp {now : Nat} {key : FlowKey} (h : evictTcpFlow now a key = some a') :
    a.SameUdp a' := by
  rcases evictTcpFlow_cases h with ⟨rfl, -⟩ | ⟨f, sockets, -, -, hremove, rfl⟩
  · exact .refl _
  · exact sameUdp_clear rfl (fun _ _ hf => hf) hremove

theorem evictUdpFlow_sameUdp {now : Nat} {key : FlowKey} (h : evictUdpFlow now a key = some a') :
    a.SameUdp a' := by
  rcases evictUdpFlow_cases h with rfl | ⟨f, sockets, -, -, hremove, rfl⟩
  · exact .refl _
  · refine sameUdp_clear rfl (fun key' f hf => ?_) hremove
    rcases eq_or_ne key' key with rfl | hne
    · rw [AList.lookup_erase] at hf
      cases hf
    · rwa [AList.lookup_erase_ne hne] at hf

/-- A loop over the flows. -/
theorem loop_sameUdp {f : Actor → FlowKey → Option Actor}
    (hbody : ∀ {a key a'}, f a key = some a' → a.SameUdp a') {keys : List FlowKey}
    (h : keys.foldlM f a = some a') : a.SameUdp a' :=
  foldlM_rel SameUdp.refl SameUdp.trans hbody h

theorem fedTcp_sameUdp (a : Actor) (origin : FlowId) (handle : Handle) (data : Bytes)
    (s : TcpSocket) : a.SameUdp (a.fedTcp origin handle data s) := by
  unfold fedTcp
  split
  · exact sameUdp_putTcp rfl rfl rfl
  · exact ⟨rfl, fun _ f hf => ⟨f, hf, rfl⟩, fun _ u hu => ⟨u, hu, rfl, rfl⟩⟩

theorem fedUdp_sameUdp (room : Bool) (origin : FlowId) {handle : Handle} (peerEp : SocketAddr)
    (data : Bytes) {u : UdpSocket} (hu : a.sockets handle = some (.udp u)) :
    a.SameUdp (a.fedUdp room origin handle peerEp data u) := by
  unfold fedUdp
  split
  · exact sameUdp_putUdp rfl rfl hu rfl rfl fun _ f hf => ⟨f, hf, rfl⟩
  · exact .refl a

/-- A task makes no flow. -/
theorem perform_sameUdp {now : Nat} {task : Task} (h : a.perform now task = some a') :
    a.SameUdp a' := by
  cases task with
  | startTcpRelays => exact loop_sameUdp startTcpRelay_sameUdp h
  | drainTcpRecv | drainUdpRecv =>
    cases h
    exact .refl _
  | drainTcpFlow key => exact drainTcpFlow_sameUdp h
  | drainUdpFlow key => exact drainUdpFlow_sameUdp h
  | evictFlows =>
    simp only [perform, evictFlows, Option.bind_eq_bind, Option.bind_eq_some_iff] at h
    obtain ⟨b, htcp, hudp⟩ := h
    exact (loop_sameUdp evictTcpFlow_sameUdp htcp).trans
      (loop_sameUdp evictUdpFlow_sameUdp hudp)

/-- A packet makes no flow, a TCP flow, or a UDP flow with a socket bound to the
destination. -/
inductive Ensured (a : Actor) (pkt : Bytes) : Actor → Prop where
  | none : Ensured a pkt a
  | tcp {a' : Actor} {key : FlowKey} {h : Handle} {s : TcpSocket} :
      parseFlowKey pkt = some key → key.proto ≠ 17 → a'.nextFlow = a.nextFlow + 1 →
      a'.udpFlows = a.udpFlows → a'.sockets = a.sockets.put h (.tcp s) → Ensured a pkt a'
  | udp {a' : Actor} {key : FlowKey} {h : Handle} {f : UdpFlow} {u : UdpSocket} :
      parseFlowKey pkt = some key → key.proto = 17 → a'.nextFlow = a.nextFlow + 1 →
      f.id = a.nextFlow → a'.udpFlows = a.udpFlows.insert key f →
      u.owner = a.nextFlow → u.localEndpoint = key.dst →
      a'.sockets = a.sockets.put h (.udp u) → Ensured a pkt a'

/-- The actor after a message: only a packet makes flows. -/
def After (a a' : Actor) : Msg → Prop
  | .inbound pkt => ∃ b, Ensured a pkt b ∧ b.SameUdp a'
  | _ => a.SameUdp a'

theorem After.refl (a : Actor) (m : Msg) : a.After a m := by
  cases m with
  | inbound pkt => exact ⟨a, .none, .refl a⟩
  | tick | tcpData _ _ _ | udpReply _ _ _ => exact SameUdp.refl a

theorem After.next_le {a a' : Actor} {m : Msg} (h : a.After a' m) :
    a.nextFlow ≤ a'.nextFlow := by
  cases m with
  | inbound pkt =>
    obtain ⟨b, hensured, hsame⟩ := h
    rw [hsame.next]
    cases hensured with
    | none => exact Nat.le_refl _
    | tcp _ _ hnext => exact hnext ▸ Nat.le_succ _
    | udp _ _ hnext => exact hnext ▸ Nat.le_succ _
  | tick => exact Nat.le_of_eq h.next.symm
  | tcpData _ _ _ => exact Nat.le_of_eq h.next.symm
  | udpReply _ _ _ => exact Nat.le_of_eq h.next.symm

theorem ensureFlow_ensured (a : Actor) (now : Nat) (slot : Handle) (pkt : Bytes) :
    Ensured a pkt (a.ensureFlow now slot pkt) := by
  unfold ensureFlow
  split
  · rename_i key hkey
    split
    · rename_i htcp
      unfold ensureTcp
      split
      · exact .none
      split
      · exact .none
      · exact .tcp hkey (by rw [htcp]; decide) rfl rfl rfl
    split
    · rename_i hudp
      unfold ensureUdp
      split
      · exact .none
      split
      · exact .none
      · exact .udp hkey hudp rfl rfl rfl rfl rfl rfl
    · exact .none
  · exact .none

end Actor

/-! ## The stack -/

namespace System

variable {s s' : System}

/-- A step in which no message is taken makes no flow, and sends at most one message. -/
theorem step_sameUdp {e : Event} (he : ∀ env, e ≠ .handle env) (h : s.step e = some s') :
    s.actor.SameUdp s'.actor ∧ (s'.inbox = s.inbox ∨ ∃ m, s'.inbox = s.inbox ++ [m]) := by
  rcases step_mover h with ⟨env, rfl, -⟩ | ⟨rfl, -, hproceed⟩ | ⟨-, houtside⟩
  · exact absurd rfl (he env)
  · obtain ⟨task, todo, -, ⟨-, rfl⟩ | ⟨a', ha', rfl⟩⟩ := proceed_eq_some hproceed
    · exact ⟨.refl _, .inl rfl⟩
    · exact ⟨Actor.perform_sameUdp ha', .inl rfl⟩
  · have hapart := houtside.apart
    refine ⟨⟨hapart.nextFlow, fun _ f hf => ⟨f, ?_, rfl⟩, fun _ u hu => ⟨u, ?_, rfl, rfl⟩⟩, ?_⟩
    · rwa [hapart.udpFlows] at hf
    · rwa [hapart.sockets] at hu
    · exact hapart.inbox.imp_right fun ⟨m, hm, _⟩ => ⟨m, hm⟩

/-- Handling a message takes it from the channel. -/
theorem handle_sameUdp (hinv : s.Inv) {env : Env} {m : Msg} {inbox : List Msg}
    (hinbox : s.inbox = m :: inbox) (h : s.handle env = some s') :
    s'.inbox = inbox ∧ s.actor.After s'.actor m := by
  obtain ⟨m', inbox', -, hinbox', -, hcase⟩ := handle_eq_some h
  rw [hinbox] at hinbox'
  cases hinbox'
  rcases hcase with ⟨-, rfl⟩ | ⟨a', ha', rfl⟩
  · exact ⟨rfl, .refl _ m⟩
  refine ⟨rfl, ?_⟩
  cases m with
  | inbound pkt =>
    cases ha'
    exact ⟨_, Actor.ensureFlow_ensured _ _ _ _, Actor.poll_sameUdp _ _⟩
  | tick =>
    cases ha'
    exact Actor.poll_sameUdp _ _
  | tcpData origin hd data =>
    rw [Actor.handle_tcpData] at ha'
    obtain ⟨t, -, rfl⟩ := Option.map_eq_some_iff.mp ha'
    exact (Actor.fedTcp_sameUdp _ _ _ _ _).trans (Actor.poll_sameUdp _ _)
  | udpReply origin hd data =>
    rcases Actor.handle_udpReply hinv.actor env s.now origin hd data with
      ⟨-, ha⟩ | ⟨key, f, u, -, -, hu, -, ha⟩
    · rw [ha] at ha'
      cases ha'
      exact Actor.poll_sameUdp _ _
    · rw [ha] at ha'
      cases ha'
      exact (Actor.fedUdp_sameUdp _ _ _ _ hu).trans (Actor.poll_sameUdp _ _)

end System

end Ruproxy.Wireguard
