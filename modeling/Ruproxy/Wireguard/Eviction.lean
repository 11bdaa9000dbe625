/-
  Wireguard/Eviction.lean --- what a step does to the stamps of the TCP flows.

  A flow is stamped when it is made and when a turn of `drain_tcp_recv` finds bytes of
  it, and it is evicted when `evict_flows` finds its stamp `TCP_IDLE` old.  Nothing
  else touches a stamp; relayed data does not.
-/
import Ruproxy.Wireguard.Handles
import Ruproxy.Wireguard.Tables

set_option autoImplicit false

namespace Ruproxy.Wireguard

open Ruproxy.Foundation

namespace Actor

/-- The numbers and the stamps of the TCP flows. -/
def stamps (a : Actor) (key : FlowKey) : Option (FlowId × Nat) :=
  (a.tcpFlows.lookup key).map fun f => (f.id, f.lastActive)

/-- What becomes of the stamps of the TCP flows at a time; the flow, if there is one, is
that whose bytes were drained. -/
inductive Restamped (now : Nat) (a a' : Actor) : Option FlowId → Prop where
  | same : a'.stamps = a.stamps → Restamped now a a' none
  | made {key : FlowKey} : a.stamps key = none →
      a'.stamps = Function.update a.stamps key (some (a.nextFlow, now)) →
      Restamped now a a' none
  | drained {key : FlowKey} {i last : Nat} : a.stamps key = some (i, last) →
      a'.stamps = Function.update a.stamps key (some (i, now)) → Restamped now a a' (some i)
  | evicted : (∀ key, a'.stamps key = (a.stamps key).filter fun stamp => now - stamp.2 < tcpIdle) →
      Restamped now a a' none

variable {a a' : Actor} {now : Nat}

/-- A stamp is from now, or is an old one. -/
theorem Restamped.stamp {o : Option FlowId} (h : Restamped now a a' o) {key : FlowKey}
    {i last : Nat} (hi : a'.stamps key = some (i, last)) :
    last = now ∨ a.stamps key = some (i, last) := by
  cases h with
  | same hsame => exact .inr (hsame ▸ hi)
  | @made key' _ hmade | @drained key' i' _ _ hmade =>
    rw [hmade] at hi
    rcases eq_or_ne key key' with rfl | hne
    · rw [Function.update_self] at hi
      cases hi
      exact .inl rfl
    · rw [Function.update_of_ne hne] at hi
      exact .inr hi
  | evicted hevicted =>
    rw [hevicted] at hi
    exact .inr (Option.filter_eq_some_iff.mp hi).1

/-- A flow that goes has an old stamp, and nothing is drained then. -/
theorem Restamped.gone {o : Option FlowId} (h : Restamped now a a' o) {key : FlowKey}
    {i last : Nat} (hi : a.stamps key = some (i, last)) (hgone : a'.stamps key = none) :
    tcpIdle ≤ now - last ∧ o = none := by
  cases h with
  | same hsame =>
    rw [hsame, hi] at hgone
    cases hgone
  | @made key' _ hmade | @drained key' i' _ _ hmade =>
    rw [hmade] at hgone
    rcases eq_or_ne key key' with rfl | hne
    · rw [Function.update_self] at hgone
      cases hgone
    · rw [Function.update_of_ne hne, hi] at hgone
      cases hgone
  | evicted hevicted =>
    rw [hevicted, hi, Option.filter_eq_none_iff] at hgone
    exact ⟨Nat.le_of_not_lt fun hyoung => hgone _ rfl (decide_eq_true hyoung), rfl⟩

theorem stamps_eq_some {key : FlowKey} {i t : Nat} :
    a.stamps key = some (i, t) ↔
      ∃ f, a.tcpFlows.lookup key = some f ∧ f.id = i ∧ f.lastActive = t := by
  simp [stamps, Option.map_eq_some_iff]

theorem stamps_of_lookup {key : FlowKey} {f : TcpFlow} (hf : a.tcpFlows.lookup key = some f) :
    a.stamps key = some (f.id, f.lastActive) := by
  rw [stamps, hf]
  rfl

theorem stamps_congr (h : a'.tcpFlows = a.tcpFlows) : a'.stamps = a.stamps := by
  unfold stamps
  rw [h]

/-- The stamps after a flow was written under a key. -/
theorem stamps_insert (key : FlowKey) (f : TcpFlow)
    (h : a'.tcpFlows = a.tcpFlows.insert key f) :
    a'.stamps = Function.update a.stamps key (some (f.id, f.lastActive)) := by
  funext key'
  rcases eq_or_ne key' key with rfl | hne
  · rw [stamps, h, AList.lookup_insert, Function.update_self]
    rfl
  · rw [stamps, h, AList.lookup_insert_ne hne, Function.update_of_ne hne]
    rfl

/-! ## Messages -/

/-- A packet makes a flow, or leaves the stamps alone. -/
theorem ensureFlow_restamped (a : Actor) (now : Nat) (slot : Handle) (pkt : Bytes) :
    Restamped now a (a.ensureFlow now slot pkt) none := by
  unfold ensureFlow
  split
  · rename_i key _
    split
    · unfold ensureTcp
      split
      · exact .same rfl
      rename_i hnew
      split
      · exact .same rfl
      · rw [Bool.not_eq_true, Option.isSome_eq_false_iff, Option.isNone_iff_eq_none] at hnew
        exact .made (by rw [stamps, hnew]; rfl)
          (stamps_insert key ⟨a.nextFlow, slot, false, now⟩ rfl)
    split
    · unfold ensureUdp
      split
      · exact .same rfl
      split
      · exact .same rfl
      · exact .same rfl
    · exact .same rfl
  · exact .same rfl

theorem handle_restamped {env : Env} {m : Msg} (h : a.handle env now m = some a') :
    Restamped now a a' none := by
  cases m with
  | inbound pkt =>
    cases h
    have hstamps : ∀ b : Actor, (b.poll env.effects).stamps = b.stamps := fun b =>
      stamps_congr rfl
    cases ensureFlow_restamped a now env.slot pkt with
    | same hsame => exact .same ((hstamps _).trans hsame)
    | made hnew hmade => exact .made hnew ((hstamps _).trans hmade)
    | evicted hevicted => exact .evicted fun key => (congrFun (hstamps _) key).trans (hevicted key)
  | tick =>
    cases h
    exact .same (stamps_congr rfl)
  | tcpData origin handle data =>
    simp only [Actor.handle, Option.bind_eq_bind, Option.bind_eq_some_iff] at h
    obtain ⟨b, hb, ha'⟩ := h
    cases ha'
    obtain ⟨sockets, deliveries, rfl⟩ := feedTcpSend_eq hb
    exact .same (stamps_congr rfl)
  | udpReply origin handle data =>
    simp only [Actor.handle] at h
    split at h
    · simp only [Option.bind_eq_bind, Option.bind_eq_some_iff] at h
      obtain ⟨b, hb, ha'⟩ := h
      cases ha'
      obtain ⟨sockets, deliveries, rfl⟩ := feedUdpSend_eq hb
      exact .same (stamps_congr rfl)
    · cases h
      exact .same (stamps_congr rfl)

/-! ## Draining -/

/-- The flow whose bytes a task drains. -/
def drainedBy (a : Actor) : Task → Option FlowId
  | .drainTcpFlow key => ((a.tcpFlows.lookup key).filter a.drains).map TcpFlow.id
  | _ => none

theorem drainTcpFlow_restamped {key : FlowKey} (h : drainTcpFlow now a key = some a') :
    Restamped now a a' (a.drainedBy (.drainTcpFlow key)) := by
  rcases drainTcpFlow_cases h with
    ⟨rfl, hempty⟩ | ⟨f, s, relays, hf, hstarted, hs, hrecv, hfull, rfl⟩
  · have hnone : a'.drainedBy (.drainTcpFlow key) = none := by
      rw [drainedBy, Option.map_eq_none_iff, Option.filter_eq_none_iff]
      intro f hf hdrains
      simp only [drains, Bool.and_eq_true, Option.any_eq_true, decide_eq_true_eq] at hdrains
      obtain ⟨hstarted, s, hs, hmay, hfull⟩ := hdrains
      rcases hempty f s hf hstarted hs with hshut | hnil
      · rw [hshut] at hmay
        cases hmay
      · exact hfull (by rw [hnil]; rfl)
    rw [hnone]
    exact .same rfl
  · have hsome : a.drainedBy (.drainTcpFlow key) = some f.id := by
      have hdrains : a.drains f = true := by
        rw [drains, hstarted, hs, Bool.true_and, Option.any_some]
        simpa [hrecv] using hfull
      rw [drainedBy, hf, Option.filter_some_pos hdrains, Option.map_some]
    rw [hsome]
    exact .drained (stamps_of_lookup hf) (stamps_insert key { f with lastActive := now } rfl)

/-! ## The other tasks -/

theorem startTcpRelays_stamps (h : a.startTcpRelays = some a') : a'.stamps = a.stamps := by
  refine foldlM_rel (R := fun a a' : Actor => a'.stamps = a.stamps) (fun _ => rfl)
    (fun h₁ h₂ => h₂.trans h₁) ?_ h
  intro b key b' hb
  rcases startTcpRelay_cases hb with rfl | ⟨f, relays, hf, -, rfl⟩
  · rfl
  · rw [stamps_insert key { f with relayStarted := true } rfl, Function.update_eq_self_iff]
    exact (stamps_of_lookup hf).symm

/-- The turn of a flow in `evict_flows`. -/
theorem evictTcpFlow_lookup {key : FlowKey} (h : evictTcpFlow now a key = some a') :
    a'.tcpFlows.lookup key =
      (a.tcpFlows.lookup key).filter fun f => now - f.lastActive < tcpIdle := by
  rcases evictTcpFlow_cases h with ⟨rfl, hyoung⟩ | ⟨f, sockets, hf, hold, -, rfl⟩
  · cases hf : a'.tcpFlows.lookup key with
    | none => rfl
    | some f => rw [Option.filter_some_pos (by simpa using hyoung f hf)]
  · rw [hf, Option.filter_some_neg (by simpa using hold)]
    exact AList.lookup_erase _ _

theorem evictTcpFlow_other {key key' : FlowKey} (hne : key ≠ key')
    (h : evictTcpFlow now a key = some a') :
    a'.tcpFlows.lookup key' = a.tcpFlows.lookup key' := by
  rcases evictTcpFlow_cases h with ⟨rfl, -⟩ | ⟨f, sockets, -, -, -, rfl⟩
  · rfl
  · exact AList.lookup_erase_ne hne.symm

/-- **Eviction.**  `evict_flows` removes the TCP flows whose stamp is `TCP_IDLE` old. -/
theorem evictFlows_lookup (h : a.evictFlows now = some a') (key : FlowKey) :
    a'.tcpFlows.lookup key =
      (a.tcpFlows.lookup key).filter fun f => now - f.lastActive < tcpIdle := by
  simp only [evictFlows, Option.bind_eq_bind, Option.bind_eq_some_iff] at h
  obtain ⟨b, htcp, hudp⟩ := h
  have hudp : a'.tcpFlows = b.tcpFlows := by
    refine foldlM_rel (R := fun a a' : Actor => a'.tcpFlows = a.tcpFlows) (fun _ => rfl)
      (fun h₁ h₂ => h₂.trans h₁) ?_ hudp
    intro c k c' hc
    rcases evictUdpFlow_cases hc with rfl | ⟨f, sockets, -, -, -, rfl⟩
    · rfl
    · rfl
  have hloop := foldlM_turn (v := fun b : Actor => b.tcpFlows.lookup key)
    evictTcpFlow_other a.tcpFlows.nodupKeys htcp
  rw [hudp]
  rcases Classical.em (key ∈ a.tcpFlows.keys) with hkey | hkey
  · obtain ⟨a₁, a₂, hbefore, hturn, hafter⟩ := hloop.2 hkey
    rw [hafter, evictTcpFlow_lookup hturn, hbefore]
  · have hnone : a.tcpFlows.lookup key = none := AList.lookup_eq_none.mpr hkey
    rw [hloop.1 hkey, hnone]
    rfl

theorem evictFlows_stamps (h : a.evictFlows now = some a') (key : FlowKey) :
    a'.stamps key = (a.stamps key).filter fun stamp => now - stamp.2 < tcpIdle := by
  rw [stamps, stamps, evictFlows_lookup h, Option.filter_map]
  rfl

theorem perform_restamped {task : Task} (h : a.perform now task = some a') :
    Restamped now a a' (a.drainedBy task) := by
  cases task with
  | startTcpRelays => exact .same (startTcpRelays_stamps h)
  | drainTcpRecv | drainUdpRecv =>
    cases h
    exact .same rfl
  | drainTcpFlow key => exact drainTcpFlow_restamped h
  | drainUdpFlow key =>
    rcases drainUdpFlow_cases h with rfl | ⟨f, s, d, rx, relays, -, -, -, rfl⟩
    · exact .same rfl
    · exact .same (stamps_congr rfl)
  | evictFlows => exact .evicted (evictFlows_stamps h)

end Actor

/-! ## Steps -/

namespace System

variable {s s' : System}

/-- The flow whose bytes a step takes out of its receive buffer. -/
def drainedBy (s : System) : Event → Option FlowId
  | .proceed => s.todo.head?.bind s.actor.drainedBy
  | _ => none

/-- When `evict_flows` is next, it takes out the flows with an old stamp. -/
theorem step_evictFlows (hinv : s.Inv) (htodo : s.todo.head? = some .evictFlows)
    (h : s.step .proceed = some s') (key : FlowKey) :
    s'.actor.stamps key = (s.actor.stamps key).filter fun stamp => s.now - stamp.2 < Actor.tcpIdle := by
  rcases step_mover h with ⟨env, he, -⟩ | ⟨-, -, hproceed⟩ | ⟨he, -⟩
  · cases he
  · obtain ⟨task, todo, htask, hcase⟩ := proceed_eq_some hproceed
    rw [htask] at htodo
    obtain rfl := Option.some.inj htodo
    obtain ⟨a', ha', -⟩ := Actor.perform_keeps hinv.actor s.now .evictFlows
    rw [ha'] at hcase
    rcases hcase with ⟨hpanic, -⟩ | ⟨a'', ha'', rfl⟩
    · cases hpanic
    · cases ha''
      exact Actor.evictFlows_stamps ha' key
  · cases he

/-- **Stamps.**  What a step does to the stamps of the TCP flows. -/
theorem step_restamped {e : Event} (hinv : s.Inv) (h : s.step e = some s') :
    Actor.Restamped s.now s.actor s'.actor (s.drainedBy e) := by
  rcases step_mover h with ⟨env, rfl, -, hhandle⟩ | ⟨rfl, -, hproceed⟩ | ⟨he, houtside⟩
  · obtain ⟨m, inbox, -, -, -, ⟨-, rfl⟩ | ⟨a', ha', rfl⟩⟩ := handle_eq_some hhandle
    · exact .same rfl
    · exact Actor.handle_restamped ha'
  · obtain ⟨task, todo, htodo, hcase⟩ := proceed_eq_some hproceed
    have hdrained : s.drainedBy .proceed = s.actor.drainedBy task := by
      rw [drainedBy, htodo]
      rfl
    obtain ⟨a', ha', -⟩ := Actor.perform_keeps hinv.actor s.now task
    rw [ha'] at hcase
    rcases hcase with ⟨hpanic, -⟩ | ⟨a'', ha'', rfl⟩
    · cases hpanic
    · cases ha''
      rw [hdrained]
      exact Actor.perform_restamped ha'
  · have hnone : s.drainedBy e = none := by
      cases e with
      | proceed => cases he
      | _ => rfl
    rw [hnone]
    exact .same (Actor.stamps_congr houtside.apart.tcpFlows)

end System

end Ruproxy.Wireguard
