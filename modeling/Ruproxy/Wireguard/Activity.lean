/-
  Wireguard/Activity.lean --- which flows an eviction spares.

  A watched stack remembers beside the stack when each TCP flow was made and when its
  bytes moved: out of the receive buffer towards the relay (`drained`), and from the
  relay into the real connection or from there into the send buffer (`carried`).  Only
  the first of these stamps `last_active`.  So an eviction spares the flows in use as
  long as they hear from the peer.
-/
import Ruproxy.Wireguard.Eviction

set_option autoImplicit false

namespace Ruproxy.Wireguard

open Ruproxy.Foundation
open Ruproxy.Foundation.Transition

/-! ## Where bytes move -/

namespace Actor

/-- The flow whose send buffer `feed_tcp_send` puts bytes into. -/
def fedFlow (a : Actor) (handle : Handle) (data : Bytes) : Option FlowId :=
  match a.sockets.getTcp handle with
  | some s =>
      match s.sendSlice data with
      | some (_, size) => if 0 < size then some s.owner else none
      | none => none
  | none => none

/-- The flows that are in the table of `a` and not in that of `a'`. -/
def evictedFlows (a a' : Actor) : List FlowId :=
  (a.tcpFlows.entries.filter fun e => (a'.tcpFlows.lookup e.1).isNone).map fun e => e.2.id

end Actor

/-- The flow whose bytes a step writes to its connection or puts into its send buffer. -/
def System.carriedBy (s : System) : Event → Option FlowId
  | .handle _ =>
      match s.inbox with
      | .tcpData _ handle data :: _ => s.actor.fedFlow handle data
      | _ => none
  | .writeRemote flow size => if 0 < size then some flow else none
  | _ => none

/-! ## Watched stacks -/

/-- A TCP flow was evicted at a time; when bytes of it had last moved. -/
structure Eviction where
  flow : FlowId
  time : Nat
  drained : Option Nat
  carried : Option Nat
  deriving DecidableEq

/-- A stack with the times at which its TCP flows were made and their last bytes moved,
and with its evictions. -/
structure Watched where
  system : System
  made : FlowId → Nat
  drained : FlowId → Option Nat
  carried : FlowId → Option Nat
  evictions : List Eviction

/-- The times with that of one flow set to now. -/
def noted (last : FlowId → Option Nat) (now : Nat) (flow : Option FlowId) (i : FlowId) :
    Option Nat :=
  if flow = some i then some now else last i

namespace Watched

/-- A stack at its start. -/
def init : Watched where
  system := .init
  made _ := 0
  drained _ := none
  carried _ := none
  evictions := []

/-- What the watch makes of a step to `s'`. -/
def after (w : Watched) (e : Event) (s' : System) : Watched :=
  let drained := noted w.drained w.system.now (w.system.drainedBy e)
  let carried := noted w.carried w.system.now (w.system.carriedBy e)
  { system := s'
    made := fun i => if w.system.actor.nextFlow ≤ i then w.system.now else w.made i
    drained := drained
    carried := carried
    evictions := w.evictions ++ (w.system.actor.evictedFlows s'.actor).map fun i =>
      ⟨i, w.system.now, drained i, carried i⟩ }

/-- One step of the stack. -/
def step (w : Watched) (e : Event) : Option Watched := (w.system.step e).map (w.after e)

/-- The watch does not change what the stack does. -/
theorem run_system (w : Watched) (es : List Event) :
    (run step w es).map system = run System.step w.system es := by
  induction es generalizing w with
  | nil => rfl
  | cons e es ih =>
    rw [run_cons, run_cons, step]
    cases w.system.step e with
    | none => rfl
    | some s' => exact ih (w.after e s')

/-- No TCP flow was evicted with a byte in the last 300 seconds. -/
def Spared (w : Watched) : Prop :=
  ∀ ev ∈ w.evictions, ∀ t, ev.drained = some t ∨ ev.carried = some t → Actor.tcpIdle ≤ ev.time - t

/-- When bytes of the peer were last drained on a flow, or else when the flow was made. -/
def heard (w : Watched) (i : FlowId) : Nat := (w.drained i).getD (w.made i)

/-- Time passes only so far that a TCP flow with bytes carried in the last 300 seconds was
heard of in the last 300 seconds, and bytes are only carried for a flow that was. -/
def InTouch (w : Watched) : Event → Prop
  | .wait ms =>
      ∀ key f, w.system.actor.tcpFlows.lookup key = some f → ∀ t ∈ w.carried f.id,
        w.system.now + ms - t < Actor.tcpIdle →
          w.system.now + ms - w.heard f.id < Actor.tcpIdle
  | e =>
      ∀ key f, w.system.actor.tcpFlows.lookup key = some f →
        w.system.carriedBy e = some f.id → w.system.now - w.heard f.id < Actor.tcpIdle

instance (w : Watched) (e : Event) : Decidable (w.InTouch e) := by
  unfold InTouch
  split
  · exact decidable_of_iff _ Table.forall_lookup_iff.symm
  · exact decidable_of_iff _ Table.forall_lookup_iff.symm

/-- Every TCP flow with bytes carried in the last 300 seconds was heard of in that time. -/
def Touched (w : Watched) : Prop :=
  ∀ key f, w.system.actor.tcpFlows.lookup key = some f → ∀ t ∈ w.carried f.id,
    w.system.now - t < Actor.tcpIdle → w.system.now - w.heard f.id < Actor.tcpIdle

end Watched

theorem Actor.mem_evictedFlows {a a' : Actor} {i : FlowId} :
    i ∈ a.evictedFlows a' ↔
      ∃ key last, a.stamps key = some (i, last) ∧ a'.stamps key = none := by
  have hnone : ∀ key, a'.stamps key = none ↔ a'.tcpFlows.lookup key = none := fun key =>
    Option.map_eq_none_iff
  simp only [evictedFlows, List.mem_map, List.mem_filter, Option.isNone_iff_eq_none, hnone]
  constructor
  · rintro ⟨⟨key, f⟩, ⟨hmem, hgone⟩, rfl⟩
    exact ⟨key, f.lastActive, stamps_of_lookup (AList.mem_lookup_iff.mpr hmem), hgone⟩
  · rintro ⟨key, last, hstamps, hgone⟩
    obtain ⟨f, hf, hid, -⟩ := stamps_eq_some.mp hstamps
    exact ⟨⟨key, f⟩, ⟨AList.mem_lookup_iff.mp hf, hgone⟩, hid⟩

namespace Watched

variable {w w' : Watched} {e : Event}

/-! ## The invariant -/

theorem noted_eq_some {last : FlowId → Option Nat} {now : Nat} {flow : Option FlowId}
    {i t : Nat} (h : noted last now flow i = some t) :
    (flow = some i ∧ t = now) ∨ last i = some t := by
  unfold noted at h
  split at h
  · cases h
    exact .inl ⟨‹_›, rfl⟩
  · exact .inr h

/-- The stamp of a flow is the time when the flow was heard of. -/
structure Inv (w : Watched) : Prop where
  system : w.system.Inv
  stamp : ∀ {key i last}, w.system.actor.stamps key = some (i, last) → last = w.heard i
  undrained : ∀ {i}, w.system.actor.nextFlow ≤ i → w.drained i = none

theorem inv_init : init.Inv where
  system := System.inv_init
  stamp h := by cases h
  undrained _ := rfl

theorem Inv.lt_next (h : w.Inv) {key : FlowKey} {i last : Nat}
    (hi : w.system.actor.stamps key = some (i, last)) : i < w.system.actor.nextFlow := by
  obtain ⟨f, hf, rfl, -⟩ := Actor.stamps_eq_some.mp hi
  exact h.system.actor.wellFormed.lt_next (Actor.entry_tcp.mpr ⟨f, hf, rfl, rfl⟩)

/-- A flow that was made before is heard of in a step only when its bytes are drained. -/
theorem heard_after {i : FlowId} (s' : System) (hi : i < w.system.actor.nextFlow) :
    (w.after e s').heard i = if w.system.drainedBy e = some i then w.system.now else w.heard i := by
  simp only [heard, after, noted, if_neg (Nat.not_le.mpr hi)]
  split <;> rfl

theorem step_inv : Preserves step (fun _ _ => True) Inv := by
  intro w e w' h _ hstep
  obtain ⟨s', hs', rfl⟩ := Option.map_eq_some_iff.mp hstep
  have hnext := (System.step_steady h.system hs').evolves.next_le
  have hrestamped := System.step_restamped h.system hs'
  generalize hdrained : w.system.drainedBy e = flow at hrestamped
  have hheard : ∀ {i}, i < w.system.actor.nextFlow →
      (w.after e s').heard i = if flow = some i then w.system.now else w.heard i := by
    intro i hi
    rw [heard_after s' hi, hdrained]
  have hlt : ∀ {i}, flow = some i → i < w.system.actor.nextFlow := by
    intro i hi
    cases hrestamped with
    | drained hold _ =>
      cases hi
      exact h.lt_next hold
    | _ => cases hi
  refine ⟨System.step_inv h.system trivial hs', fun {key i last} hi => ?_, fun {i} hi => ?_⟩
  · -- a stamp that was there before, of a flow whose bytes are not drained
    have hkept : ∀ {key}, w.system.actor.stamps key = some (i, last) → flow ≠ some i →
        last = (w.after e s').heard i := by
      intro key hold hne
      rw [hheard (h.lt_next hold), if_neg hne]
      exact h.stamp hold
    cases hrestamped with
    | same hsame => exact hkept (hsame ▸ hi) nofun
    | @made key' _ hmade =>
      change s'.actor.stamps key = some (i, last) at hi
      rw [hmade] at hi
      rcases eq_or_ne key key' with rfl | hne
      · rw [Function.update_self] at hi
        cases hi
        simp [heard, after, noted, hdrained, h.undrained (Nat.le_refl _)]
      · rw [Function.update_of_ne hne] at hi
        exact hkept hi nofun
    | @drained key' i' last' hold hnew =>
      change s'.actor.stamps key = some (i, last) at hi
      rw [hnew] at hi
      rcases eq_or_ne key key' with rfl | hne
      · rw [Function.update_self] at hi
        cases hi
        rw [hheard (h.lt_next hold), if_pos rfl]
      · rw [Function.update_of_ne hne] at hi
        refine hkept hi fun heq => hne ?_
        cases heq
        obtain ⟨f, hf, hid, -⟩ := Actor.stamps_eq_some.mp hi
        obtain ⟨f', hf', hid', -⟩ := Actor.stamps_eq_some.mp hold
        exact h.system.actor.wellFormed.key_unique (Actor.entry_tcp.mpr ⟨f, hf, hid, rfl⟩)
          (Actor.entry_tcp.mpr ⟨f', hf', hid', rfl⟩)
    | evicted hevicted =>
      change s'.actor.stamps key = some (i, last) at hi
      rw [hevicted] at hi
      exact hkept (Option.filter_eq_some_iff.mp hi).1 nofun
  · have hi : w.system.actor.nextFlow ≤ i := hnext.trans hi
    have hne : flow ≠ some i := fun heq => absurd (hlt heq) (Nat.not_lt.mpr hi)
    change noted w.drained w.system.now (w.system.drainedBy e) i = none
    rw [hdrained, noted, if_neg hne]
    exact h.undrained hi

/-! ## Evictions -/

/-- An evicted flow was not heard of for 300 seconds, and no bytes of it are drained in the
step. -/
theorem evicted_spec (h : w.Inv) {s' : System} (hs' : w.system.step e = some s') {i : FlowId}
    (hi : i ∈ w.system.actor.evictedFlows s'.actor) :
    ∃ key f, w.system.actor.tcpFlows.lookup key = some f ∧ f.id = i ∧
      Actor.tcpIdle ≤ w.system.now - w.heard i ∧ (w.after e s').drained i = w.drained i := by
  obtain ⟨key, last, hstamp, hgone⟩ := Actor.mem_evictedFlows.mp hi
  obtain ⟨f, hf, hid, -⟩ := Actor.stamps_eq_some.mp hstamp
  obtain ⟨hold, hnone⟩ := (System.step_restamped h.system hs').gone hstamp hgone
  refine ⟨key, f, hf, hid, h.stamp hstamp ▸ hold, ?_⟩
  change noted w.drained w.system.now (w.system.drainedBy e) i = w.drained i
  rw [hnone]
  rfl

/-- The evictions of a step spare the flows with recent bytes. -/
theorem after_spared_iff (hs : w.Spared) (s' : System) :
    (w.after e s').Spared ↔ ∀ i ∈ w.system.actor.evictedFlows s'.actor, ∀ t,
      (w.after e s').drained i = some t ∨ (w.after e s').carried i = some t →
        Actor.tcpIdle ≤ w.system.now - t := by
  constructor
  · intro hall i hi t ht
    exact hall _ (List.mem_append_right _ (List.mem_map_of_mem hi)) t ht
  · intro hnew ev hev t ht
    rcases List.mem_append.mp hev with hold | hev
    · exact hs ev hold t ht
    · obtain ⟨i, hi, rfl⟩ := List.mem_map.mp hev
      exact hnew i hi t ht

/-- Bytes were last drained when the flow was last heard of. -/
theorem heard_of_drained {i t : Nat} (h : w.drained i = some t) : w.heard i = t := by
  rw [heard, h, Option.getD_some]

/-- A flow in touch may have bytes carried. -/
theorem InTouch.carried (h : w.InTouch e) {key : FlowKey} {f : TcpFlow}
    (hf : w.system.actor.tcpFlows.lookup key = some f)
    (hcarried : w.system.carriedBy e = some f.id) :
    w.system.now - w.heard f.id < Actor.tcpIdle := by
  cases e with
  | wait ms => cases hcarried
  | _ => exact h key f hf hcarried

/-- **One step.**  As long as the flows in use hear from the peer, evictions spare them. -/
theorem step_spared (hinv : w.Inv) (htouched : w.Touched) (hs : w.Spared) (hok : w.InTouch e)
    (hstep : w.step e = some w') : w'.Spared := by
  obtain ⟨s', hs', rfl⟩ := Option.map_eq_some_iff.mp hstep
  rw [after_spared_iff hs]
  intro i hi t ht
  obtain ⟨key, f, hf, rfl, hold, hdrained⟩ := evicted_spec hinv hs' hi
  rw [hdrained] at ht
  rcases ht with ht | ht
  · exact heard_of_drained ht ▸ hold
  · by_contra hrecent
    refine Nat.not_lt.mpr hold ?_
    rcases noted_eq_some ht with ⟨hcarried, -⟩ | ht
    · exact hok.carried hf hcarried
    · exact htouched key f hf t ht (Nat.lt_of_not_le hrecent)

/-- **One step.**  In such a step the flows in use stay in touch. -/
theorem step_touched (hinv : w.Inv) (htouched : w.Touched) (hok : w.InTouch e)
    (hstep : w.step e = some w') : w'.Touched := by
  have hinv' : w'.Inv := step_inv hinv trivial hstep
  obtain ⟨s', hs', rfl⟩ := Option.map_eq_some_iff.mp hstep
  intro key f hf t ht hrecent
  have hstamp' := Actor.stamps_of_lookup hf
  by_cases hwait : ∃ ms, e = .wait ms
  · obtain ⟨ms, rfl⟩ := hwait
    cases hs'
    have hlt := hinv.lt_next hstamp'
    rw [heard_after _ hlt]
    exact hok key f hf t ht hrecent
  · have hnow := System.step_now (fun ms he => hwait ⟨ms, he⟩) hs'
    change s'.now - t < Actor.tcpIdle at hrecent
    change s'.now - _ < Actor.tcpIdle
    rw [hnow] at hrecent ⊢
    rcases (System.step_restamped hinv.system hs').stamp hstamp' with hnew | hstamp
    · -- the flow was made, or bytes of it were drained
      rw [← hinv'.stamp hstamp', hnew, Nat.sub_self]
      decide
    · rw [← hinv'.stamp hstamp', hinv.stamp hstamp]
      obtain ⟨g, hg, hid, -⟩ := Actor.stamps_eq_some.mp hstamp
      rcases noted_eq_some ht with ⟨hcarried, -⟩ | ht
      · exact hid ▸ hok.carried hg (hid ▸ hcarried)
      · exact hid ▸ htouched key g hg t (hid ▸ ht) hrecent

/-- **Active flows.**  In every run of a peer's stack in which the flows in use hear from the
peer, no eviction takes a TCP flow with a byte in the last 300 seconds. -/
theorem always_spared_of_every {es : List Event} (h : Every step InTouch init es) :
    Always step Spared init es := by
  have hpres : Preserves step InTouch fun w => w.Inv ∧ w.Touched ∧ w.Spared := by
    rintro w e w' ⟨hinv, htouched, hs⟩ hok hstep
    exact ⟨step_inv hinv trivial hstep, step_touched hinv htouched hok hstep,
      step_spared hinv htouched hs hok hstep⟩
  have hinit : init.Inv ∧ init.Touched ∧ init.Spared :=
    ⟨inv_init, nofun, nofun⟩
  exact always_of_every hpres (fun h => h.2.2) hinit h

/-- **The eviction.**  When `evict_flows` is next, it spares the flows with a byte in the
last 300 seconds exactly if those in use have heard from the peer. -/
theorem evictFlows_spared_iff (hinv : w.Inv) (hs : w.Spared)
    (htodo : w.system.todo.head? = some .evictFlows) (hstep : w.step .proceed = some w') :
    w'.Spared ↔ w.Touched := by
  constructor
  · intro hs' key f hf t ht hrecent
    by_contra hold
    obtain ⟨s', hproceed, rfl⟩ := Option.map_eq_some_iff.mp hstep
    have hstamp := Actor.stamps_of_lookup hf
    rw [← hinv.stamp hstamp, Nat.not_lt] at hold
    have hgone : s'.actor.stamps key = none := by
      rw [System.step_evictFlows hinv.system htodo hproceed, hstamp,
        Option.filter_some_neg (by simpa [hinv.stamp hstamp] using hold)]
    have hmem := Actor.mem_evictedFlows.mpr ⟨key, f.lastActive, hstamp, hgone⟩
    have hlate := (after_spared_iff hs s').mp hs' f.id hmem t (.inr ht)
    exact absurd hrecent (Nat.not_lt.mpr hlate)
  · intro htouched
    exact step_spared hinv htouched hs (fun _ _ _ h => by cases h) hstep

end Watched

/-! ## Instances -/

/-- A poll in which the client of the only connection sends bytes. -/
def uploadEnv (received : Bytes) : Env where
  slot := 1
  room := true
  effects _ :=
    { state := .established, acked := 0, received := received, datagrams := [], transmitted := 0 }

/-- A reply of the server after 200 seconds, a request of the client 50 seconds later, which
is written to the server, and then nothing until the flow is evicted. -/
def chatRun : List Event :=
  greetingRun ++ [.wait 200000, .remoteData 0 [104, 105]] ++
    turn (sampleEnv 1 .established []) 0 ++
    .wait 50000 :: .packet (samplePacket 6 200 80) :: turn (uploadEnv [63]) 4 ++
    [.takeChunk 0, .writeRemote 0 1, .wait 300000, .tick] ++
    turn (sampleEnv 1 .established []) 5

/-- The client is silent while the server sends two bytes in the last second. -/
def downloadRun : List Event :=
  greetingRun ++ [.wait 299000, .remoteData 0 [104, 105]] ++
    turn (sampleEnv 1 .established []) 0 ++ [.wait 1000, .tick] ++
    turn (sampleEnv 1 .established []) 5

/-- The flow is evicted 300 seconds after its last bytes. -/
theorem Watched.always_spared_chatRun :
    (run Watched.step Watched.init chatRun).map (·.evictions) =
        some [⟨0, 550000, some 250000, some 250000⟩] ∧
      Always Watched.step Watched.Spared Watched.init chatRun :=
  ⟨by decide +kernel, Watched.always_spared_of_every (by decide +kernel)⟩

/-- A flow that is only downloaded on is evicted one second after its last bytes. -/
theorem Watched.not_spared_downloadRun :
    ¬ ∀ es : List Event, Always Watched.step Watched.Spared Watched.init es := by
  intro hall
  have hend : (run Watched.step Watched.init downloadRun).map (·.evictions) =
      some [⟨0, 300000, none, some 299000⟩] := by decide +kernel
  obtain ⟨w, hrun, hevictions⟩ := Option.map_eq_some_iff.mp hend
  have hspared := hall downloadRun downloadRun w (List.prefix_refl _) hrun
    ⟨0, 300000, none, some 299000⟩ (by rw [hevictions]; exact List.mem_singleton_self _)
    299000 (.inr rfl)
  exact absurd hspared (by decide)

end Ruproxy.Wireguard
