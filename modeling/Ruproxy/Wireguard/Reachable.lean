/-
  Wireguard/Reachable.lean --- what holds in every state of a peer's stack.

  The invariant of the actor together with the messages in its channel, and what
  one step of any task does to it.  Handling a message comes to one of five
  cases (`Handled`), and the tasks of a turn are as harmless as the other tasks; the
  results about runs are proved from these.
-/
import Ruproxy.Wireguard.Invariant
import Ruproxy.Wireguard.System

set_option autoImplicit false

namespace Ruproxy.Wireguard

open Ruproxy.Foundation

/-! ## The invariant -/

/-- A message of a relay task carries the handle of its flow. -/
def MsgLinked (a : Actor) : Msg → Prop
  | .tcpData i h data => a.TcpLinked i h ∧ data ≠ []
  | .udpReply i h _ => a.UdpLinked i h
  | _ => True

theorem MsgLinked.steady {a a' : Actor} {m : Msg} (hm : MsgLinked a m) (h : a.Steady a') :
    MsgLinked a' m := by
  cases m with
  | tcpData i hd data => exact ⟨hm.1.steady h, hm.2⟩
  | udpReply i hd data => exact Actor.UdpLinked.steady hm h
  | inbound pkt => trivial
  | tick => trivial

namespace System

/-- The invariant of the system: the actor's, and every message in the channel carries
the handle of its flow. -/
structure Inv (s : System) : Prop where
  actor : s.actor.Inv
  inbox : ∀ m ∈ s.inbox, MsgLinked s.actor m

theorem inv_init : init.Inv := ⟨Actor.inv_init, fun m hm => by simp [init] at hm⟩

/-- A steady change of the actor with no new message. -/
theorem Inv.steady {s s' : System} (hinv : s.Inv) (hactor : s'.actor.Inv)
    (hsteady : s.actor.Steady s'.actor) (hinbox : ∀ m ∈ s'.inbox, m ∈ s.inbox) : s'.Inv :=
  ⟨hactor, fun m hm => (hinv.inbox m (hinbox m hm)).steady hsteady⟩

/-! ## The other tasks -/

/-- A step in which no message is taken: flows come and go, and no socket takes bytes
from a relay. -/
structure Elsewhere (s s' : System) : Prop where
  inv : s'.Inv
  calm : s.actor.Calm s'.actor
  crashed : s'.crashed = s.crashed

theorem send_elsewhere {s s' : System} (hinv : s.Inv) (m : Msg) (hm : MsgLinked s.actor m)
    (h : s.send m = some s') : s.Elsewhere s' := by
  unfold System.send at h
  split at h
  · obtain rfl := Option.some.inj h
    refine ⟨⟨hinv.actor, fun m' hm' => ?_⟩, .refl _, rfl⟩
    rcases List.mem_append.mp hm' with hm' | hm'
    · exact hinv.inbox m' hm'
    · exact List.mem_singleton.mp hm' ▸ hm
  · simp at h

theorem setTcpRelay_elsewhere {s : System} (hinv : s.Inv) {flow : FlowId} {r r' : TcpRelay}
    (hr : s.actor.tcpRelays flow = some r) (hhandle : r'.handle = r.handle) :
    s.Elsewhere (s.setTcpRelay flow r') := by
  have hcalm : s.actor.Calm (s.setTcpRelay flow r').actor :=
    Actor.calm_of_registry_eq rfl (fun h t ht => ⟨t, ht, .refl t⟩) rfl rfl
  refine ⟨hinv.steady (hinv.actor.steady hcalm.steady ?_ fun i q hq => .inl ⟨q, hq, rfl⟩)
    hcalm.steady fun m hm => hm, hcalm, rfl⟩
  intro i q hq
  left
  by_cases hi : i = flow
  · subst hi
    simp only [setTcpRelay, Function.update_self, Option.some.injEq] at hq
    exact ⟨r, hr, by rw [← hq, hhandle]⟩
  · simp only [setTcpRelay, Function.update_of_ne hi] at hq
    exact ⟨q, hq, rfl⟩

theorem setUdpRelay_elsewhere {s : System} (hinv : s.Inv) {flow : FlowId} {r r' : UdpRelay}
    (hr : s.actor.udpRelays flow = some r) (hhandle : r'.handle = r.handle) :
    s.Elsewhere (s.setUdpRelay flow r') := by
  have hcalm : s.actor.Calm (s.setUdpRelay flow r').actor :=
    Actor.calm_of_registry_eq rfl (fun h t ht => ⟨t, ht, .refl t⟩) rfl rfl
  refine ⟨hinv.steady (hinv.actor.steady hcalm.steady (fun i q hq => .inl ⟨q, hq, rfl⟩) ?_)
    hcalm.steady fun m hm => hm, hcalm, rfl⟩
  intro i q hq
  left
  by_cases hi : i = flow
  · subst hi
    simp only [setUdpRelay, Function.update_self, Option.some.injEq] at hq
    exact ⟨r, hr, by rw [← hq, hhandle]⟩
  · simp only [setUdpRelay, Function.update_of_ne hi] at hq
    exact ⟨q, hq, rfl⟩

theorem Elsewhere.trans {s t u : System} (h₁ : s.Elsewhere t) (h₂ : t.Elsewhere u) :
    s.Elsewhere u :=
  ⟨h₂.inv, h₁.calm.trans h₂.calm, h₂.crashed.trans h₁.crashed⟩

/-- A task beside the actor keeps the invariant, and what it sends carries the handle of
its flow. -/
theorem Outside.elsewhere {s s' : System} {e : Event} (hinv : s.Inv) (h : s.Outside e s') :
    s.Elsewhere s' := by
  cases h with
  | wait _ => exact ⟨⟨hinv.actor, hinv.inbox⟩, .refl _, rfl⟩
  | @packet pkt _ _ hsend => exact send_elsewhere hinv (.inbound pkt) trivial hsend
  | tick hsend => exact send_elsewhere hinv .tick trivial hsend
  | tcpRelay hr hhandle => exact setTcpRelay_elsewhere hinv hr hhandle
  | @tcpData flow r data _ hr hdata hsend =>
    exact send_elsewhere hinv (.tcpData flow r.handle data)
      ⟨hinv.actor.tcpRelay flow r hr, List.length_pos_iff.mp hdata⟩ hsend
  | udpRelay hr hhandle => exact setUdpRelay_elsewhere hinv hr hhandle
  | @udpReply flow r r' data _ hr hhandle hsend =>
    have hset : s.Elsewhere (s.setUdpRelay flow r') := setUdpRelay_elsewhere hinv hr hhandle
    exact hset.trans (send_elsewhere hset.inv (.udpReply flow r.handle data)
      (hinv.actor.udpRelay flow r hr) hsend)

/-! ## The actor -/

/-- What handling a message comes to; `inbox` is what stays in the channel. -/
inductive Handled (s : System) (env : Env) (inbox : List Msg) : Msg → System → Prop where
  /-- a packet or a tick -/
  | quiet {m : Msg} {a' : Actor} : (m = .tick ∨ ∃ pkt, m = .inbound pkt) →
      Actor.Keeps s.actor a' →
      Handled s env inbox m { s with actor := a', todo := m.tasks, inbox := inbox }
  /-- TCP data for a slot that holds a TCP socket -/
  | tcp {i : FlowId} {h : Handle} {data : Bytes} {t : TcpSocket} :
      s.actor.sockets h = some (.tcp t) →
      Handled s env inbox (.tcpData i h data)
        { s with
          actor := (s.actor.fedTcp i h data t).poll env.effects, todo := [], inbox := inbox }
  /-- TCP data for any other slot -/
  | panic {i : FlowId} {h : Handle} {data : Bytes} :
      (∀ t, s.actor.sockets h ≠ some (.tcp t)) →
      Handled s env inbox (.tcpData i h data) { s with inbox := inbox, crashed := true }
  /-- a reply under the handle of a UDP flow -/
  | udp {i : FlowId} {h : Handle} {data : Bytes} {key : FlowKey} {f : UdpFlow}
      {t : UdpSocket} : s.actor.udpFlows.lookup key = some f → f.handle = h →
      s.actor.sockets h = some (.udp t) → t.owner = f.id →
      Handled s env inbox (.udpReply i h data)
        { s with
          actor := (s.actor.fedUdp env.room i h key.src data t).poll env.effects
          todo := []
          inbox := inbox }
  /-- a reply under any other handle -/
  | noFlow {i : FlowId} {h : Handle} {data : Bytes} : s.actor.udpPeer h = none →
      Handled s env inbox (.udpReply i h data)
        { s with actor := s.actor.poll env.effects, todo := [], inbox := inbox }

theorem handle_handled {s s' : System} (hinv : s.Inv) {env : Env}
    (h : s.handle env = some s') :
    ∃ m inbox, s.inbox = m :: inbox ∧ Handled s env inbox m s' := by
  obtain ⟨m, inbox, -, hinbox, hslot, hcase⟩ := handle_eq_some h
  refine ⟨m, inbox, hinbox, ?_⟩
  have hquiet : (m = .tick ∨ ∃ pkt, m = .inbound pkt) → Handled s env inbox m s' := by
    intro hm
    obtain ⟨a', ha', hkeeps⟩ := Actor.handle_calm hinv.actor hslot s.now hm
    rw [ha'] at hcase
    rcases hcase with ⟨hpanic, -⟩ | ⟨a'', ha'', rfl⟩
    · cases hpanic
    · cases ha''
      exact .quiet hm hkeeps
  cases m with
  | inbound pkt => exact hquiet (.inr ⟨pkt, rfl⟩)
  | tick => exact hquiet (.inl rfl)
  | tcpData i hd data =>
    rw [Actor.handle_tcpData] at hcase
    rcases hcase with ⟨hpanic, rfl⟩ | ⟨a', ha', rfl⟩
    · refine .panic fun t ht => ?_
      rw [SocketSet.getTcp_eq_some.mpr ht] at hpanic
      cases hpanic
    · obtain ⟨t, ht, rfl⟩ := Option.map_eq_some_iff.mp ha'
      exact .tcp (SocketSet.getTcp_eq_some.mp ht)
  | udpReply i hd data =>
    rcases Actor.handle_udpReply hinv.actor env s.now i hd data with
      ⟨hpeer, ha⟩ | ⟨key, f, t, hf, hh, ht, howner, ha⟩
    · rw [ha] at hcase
      rcases hcase with ⟨hpanic, -⟩ | ⟨a', ha', rfl⟩
      · cases hpanic
      · cases ha'
        exact .noFlow hpeer
    · rw [ha] at hcase
      rcases hcase with ⟨hpanic, -⟩ | ⟨a', ha', rfl⟩
      · cases hpanic
      · cases ha'
        exact .udp hf hh ht howner

/-- Handling a message is a steady step. -/
theorem Handled.steady {s s' : System} {env : Env} {m : Msg} {inbox : List Msg}
    (h : Handled s env inbox m s') : s.actor.Steady s'.actor := by
  have hpolled : ∀ {a : Actor}, s.actor.Steady a → s.actor.Steady (a.poll env.effects) :=
    fun ha => ha.trans (Actor.poll_calm _ env.effects).steady
  cases h with
  | quiet _ hkeeps => exact hkeeps.2.steady
  | @tcp i h data t ht => exact hpolled (Actor.fedTcp_steady i data ht)
  | panic _ => exact (Actor.Calm.refl _).steady
  | @udp i h data key f t _ _ ht _ =>
    exact hpolled (Actor.fedUdp_steady env.room i key.src data ht)
  | noFlow _ => exact hpolled (Actor.Calm.refl _).steady

theorem Handled.inv {s s' : System} {env : Env} {m : Msg} {inbox : List Msg} (hinv : s.Inv)
    (hinbox : s.inbox = m :: inbox) (h : Handled s env inbox m s') : s'.Inv := by
  have hsub : ∀ x ∈ inbox, x ∈ s.inbox := fun x hx => hinbox ▸ List.mem_cons_of_mem _ hx
  have hsteady := h.steady
  cases h with
  | quiet _ hkeeps => exact hinv.steady hkeeps.1 hsteady hsub
  | @tcp i h data t _ =>
    obtain ⟨htcp, hudp⟩ := s.actor.fedTcp_relays i h data t
    exact hinv.steady (hinv.actor.steady_of_eq hsteady htcp hudp) hsteady hsub
  | panic _ => exact hinv.steady hinv.actor hsteady hsub
  | @udp i h data key f t _ _ _ _ =>
    obtain ⟨htcp, hudp⟩ := s.actor.fedUdp_relays env.room i h key.src data t
    exact hinv.steady (hinv.actor.steady_of_eq hsteady htcp hudp) hsteady hsub
  | noFlow _ => exact hinv.steady (hinv.actor.steady_of_eq hsteady rfl rfl) hsteady hsub

/-- A task of a turn. -/
theorem proceed_elsewhere {s s' : System} (hinv : s.Inv) (h : s.proceed = some s') :
    s.Elsewhere s' := by
  obtain ⟨task, todo, -, hcase⟩ := proceed_eq_some h
  obtain ⟨a', ha', hkeeps⟩ := Actor.perform_keeps hinv.actor s.now task
  rw [ha'] at hcase
  rcases hcase with ⟨hpanic, -⟩ | ⟨a'', ha'', rfl⟩
  · cases hpanic
  · cases ha''
    exact ⟨hinv.steady hkeeps.1 hkeeps.2.steady fun m hm => hm, hkeeps.2, rfl⟩

/-! ## Steps and runs -/

/-- **What a step does.**  Either the actor handles the first message of its channel,
or it goes on with its turn, or another task moves. -/
theorem step_cases {s s' : System} {e : Event} (hinv : s.Inv) (h : s.step e = some s') :
    (∃ env m inbox, e = .handle env ∧ s.crashed = false ∧ s.inbox = m :: inbox ∧
      Handled s env inbox m s') ∨
    ((∀ env, e ≠ .handle env) ∧ s.Elsewhere s') := by
  rcases step_mover h with
    ⟨env, rfl, hcrashed, hhandle⟩ | ⟨rfl, -, hproceed⟩ | ⟨he, houtside⟩
  · obtain ⟨m, inbox, hinbox, hhandled⟩ := handle_handled hinv hhandle
    exact .inl ⟨env, m, inbox, rfl, hcrashed, hinbox, hhandled⟩
  · exact .inr ⟨nofun, proceed_elsewhere hinv hproceed⟩
  · refine .inr ⟨fun env heq => ?_, houtside.elsewhere hinv⟩
    rw [heq] at he
    cases he

/-- Every step is steady. -/
theorem step_steady {s s' : System} {e : Event} (hinv : s.Inv) (h : s.step e = some s') :
    s.actor.Steady s'.actor := by
  rcases step_cases hinv h with ⟨env, m, inbox, -, -, -, hhandled⟩ | ⟨-, helse⟩
  · exact hhandled.steady
  · exact helse.calm.steady

/-- Every step of every task keeps the invariant. -/
theorem step_inv : Transition.Preserves step (fun _ _ => True) Inv := by
  intro s e s' hinv _ h
  rcases step_cases hinv h with ⟨env, m, inbox, -, -, hinbox, hhandled⟩ | ⟨-, helse⟩
  · exact hhandled.inv hinv hinbox
  · exact helse.inv

end System

end Ruproxy.Wireguard
