/-
  Tuic/Parked.lean --- no handler of a connection stays parked.

  The handlers of a connection call `Authenticated::set` and `wait` among other things.
  Seen in these calls only, a connection is the system of `WakeUp`: each of its steps is
  none, one, or the end of a call there.  So what holds of any tasks holds of the handlers.
-/
import Ruproxy.Tuic.WakeUp

set_option autoImplicit false

namespace Ruproxy.Tuic

open Ruproxy.Foundation
open Ruproxy.Foundation.Transition

/-- The call that a handler is in.  The check in front of `wait` is the handler's own. -/
def Task.call : Task → Option Authenticated.Call
  | .gate .outside _ => none
  | .gate g _ => some (.wait g)
  | .setUuid uuid => some (.setUuid uuid)
  | .setFlag => some .setFlag
  | .setNotify => some .setNotify
  | _ => none

/-- A handler that reads from its stream is in no call. -/
theorem Task.call_of_reads {task : Task} (h : task.reads = true) : task.call = none := by
  cases task with
  | gate g k => cases h
  | setUuid | setFlag | setNotify => cases h
  | _ => rfl

namespace Connection

/-- A connection, seen in the calls of its handlers. -/
def view (s : Connection) : Authenticated.State :=
  ⟨s.auth, fun t => (s.tasks.lookup t).bind Task.call⟩

theorem view_setTask (s : Connection) (t : TaskId) (task : Task) :
    (s.setTask t task).view = s.view.put t task.call := by
  refine congrArg (Authenticated.State.mk s.auth) (funext fun t' => ?_)
  by_cases ht : t' = t
  · subst ht
    simp [setTask]
  · simp [setTask, AList.lookup_insert_ne ht, Function.update_of_ne ht, view]

theorem view_endTask (s : Connection) (t : TaskId) :
    (s.endTask t).view = s.view.put t none := by
  refine congrArg (Authenticated.State.mk s.auth) (funext fun t' => ?_)
  by_cases ht : t' = t
  · subst ht
    simp [endTask]
  · simp [endTask, AList.lookup_erase_ne ht, Function.update_of_ne ht, view]

theorem relayUdpToClient_view (s : Connection) (r : RelayId) (task : RelayTask) (sent : Bool) :
    (s.relayUdpToClient r task sent).view = s.view := by
  unfold relayUdpToClient
  dsimp only
  repeat' split
  all_goals rfl

/-! ## Handlers in no call -/

/-- The handler of a task goes on outside of the calls. -/
def Outside (s : Connection) (t : TaskId) (s' : Connection) : Prop := s'.view = s.view.put t none

theorem outside_setTask (s : Connection) (t : TaskId) {task : Task} (h : task.call = none) :
    s.Outside t (s.setTask t task) := by
  rw [Outside, view_setTask, h]

theorem outside_endTask (s : Connection) (t : TaskId) : s.Outside t (s.endTask t) :=
  s.view_endTask t

theorem handleUni_outside (s : Connection) (t : TaskId) (recv : Bytes) :
    s.Outside t (s.handleUni t recv) := by
  unfold handleUni
  repeat' split
  all_goals first
    | exact s.outside_endTask t
    | exact s.outside_setTask t rfl

theorem handleBi_outside (s : Connection) (t : TaskId) (recv : Bytes) :
    s.Outside t (s.handleBi t recv) := by
  unfold handleBi
  repeat' split
  all_goals first
    | exact s.outside_endTask t
    | exact s.outside_setTask t rfl

theorem handleDatagram_outside (s : Connection) (t : TaskId) (dg : Bytes) :
    s.Outside t (s.handleDatagram t dg) := by
  unfold handleDatagram
  repeat' split
  all_goals first
    | exact s.outside_endTask t
    | exact s.outside_setTask t rfl

theorem pass_outside (s : Connection) (t : TaskId) (k : Gated) : s.Outside t (s.pass t k) := by
  unfold pass
  dsimp only
  repeat' split
  all_goals first
    | exact s.outside_endTask t
    | exact s.outside_setTask t rfl

theorem dialNext_outside (s : Connection) (t : TaskId) (addrs : List SocketAddr) :
    s.Outside t (s.dialNext t addrs) := by
  cases addrs with
  | nil => exact s.outside_endTask t
  | cons addr addrs => exact (s.record (.dial addr)).outside_setTask t rfl

theorem handleConnect_outside (s : Connection) (t : TaskId) (addr : Address) :
    s.Outside t (s.handleConnect t addr) := by
  cases addr with
  | none => exact s.outside_endTask t
  | socket addr => exact s.dialNext_outside t [addr]
  | domain name port => exact (s.record (.resolve name port)).outside_setTask t rfl

theorem handlePacketData_outside (s : Connection) (t : TaskId) (info : PacketInfo)
    (payload : Bytes) (mode : UdpMode) :
    s.Outside t (s.handlePacketData t info payload mode) := by
  unfold handlePacketData
  dsimp only
  repeat' split
  all_goals first
    | exact outside_endTask { s with udpMode := some (s.udpMode.getD mode) } t
    | exact outside_setTask { s with udpMode := some (s.udpMode.getD mode) } t rfl

theorem packetSession_outside (c : Config) (s : Connection) (t : TaskId) (assocId : UInt16)
    (payload : Bytes) (target : SocketAddr) (sockets : Bool) :
    s.Outside t (packetSession c s t assocId payload target sockets) := by
  unfold packetSession
  split
  · exact s.outside_setTask t rfl
  · split
    · exact outside_setTask (newUdpSession c s assocId).1 t rfl
    · exact s.outside_endTask t

theorem packetSend_outside (s : Connection) (t : TaskId) (g : SessionId) (payload : Bytes)
    (target : SocketAddr) : s.Outside t (s.packetSend t g payload target) := by
  unfold packetSend
  repeat' split
  all_goals exact s.view_endTask t

theorem handleDissociate_outside (s : Connection) (t : TaskId) (assocId : UInt16) :
    s.Outside t (s.handleDissociate t assocId) := by
  unfold handleDissociate
  dsimp only
  repeat' split
  all_goals exact s.view_endTask t

/-! ## Steps -/

/-- Outside of the calls nothing is seen of a handler that was in none. -/
theorem Outside.reachable {s s' : Connection} {t : TaskId} (h : s.Outside t s')
    (hcalls : s.view.calls t = none) :
    Reachable Authenticated.State.step s.view s'.view := by
  have hput : s.view.put t none = s.view :=
    congrArg (Authenticated.State.mk s.auth) (by rw [← hcalls, Function.update_eq_self]; rfl)
  exact ⟨[], congrArg some (hput.symm.trans h.symm)⟩

/-- One step of a call. -/
theorem reachable_of_step {s s' : Authenticated.State} {e : Authenticated.Event}
    (h : s.step e = some s') : Reachable Authenticated.State.step s s' :=
  ⟨[e], run_cons_eq_some.mpr ⟨s', h, rfl⟩⟩

theorem handleAuthenticate_reachable (c : Config) (s : Connection) {t : TaskId}
    (auth : AuthInfo) (hcalls : s.view.calls t = none) :
    Reachable Authenticated.State.step s.view (handleAuthenticate c s t auth).view := by
  have hset : Reachable Authenticated.State.step s.view
      (s.view.put t (some (.setUuid auth.uuid))) := by
    refine reachable_of_step (e := .set t auth.uuid) ?_
    simp only [Authenticated.State.step, hcalls, Option.isSome_none, Bool.false_eq_true, if_false]
  have hanswer : ∀ valid : Bool, Reachable Authenticated.State.step s.view
      (if valid = true then
        (s.record (.authenticate auth.uuid auth.token)).setTask t (.setUuid auth.uuid)
      else ((s.record (.authenticate auth.uuid auth.token)).record
        (.close "auth failed")).endTask t).view := by
    intro valid
    cases valid with
    | true =>
      rw [if_pos rfl, view_setTask]
      exact hset
    | false =>
      rw [if_neg Bool.false_ne_true]
      exact Outside.reachable (view_endTask _ t) hcalls
  unfold handleAuthenticate
  split
  · exact (s.outside_endTask t).reachable hcalls
  · exact hanswer _

/-- A handler at the gate makes a line of `wait`. -/
theorem gate_reachable {c : Config} {s s' : Connection} {t : TaskId} {g : Gate} {k : Gated}
    (ht : s.tasks.lookup t = some (.gate g k)) (h : advance c s t (.gate g k) = some s') :
    Reachable Authenticated.State.step s.view s'.view := by
  have hcalls : s.view.calls t = (Task.gate g k).call := by
    simp [view, ht]
  by_cases hout : g = .outside
  · subst hout
    simp only [advance, Gate.next] at h
    split at h
    · cases h
      exact (s.outside_setTask t rfl).reachable hcalls
    · rename_i g' hstay
      cases h
      -- the flag is not set, and `wait` is called
      obtain rfl : g' = .firstCheck := by
        split at hstay
        · cases hstay
        · cases hstay
          rfl
      rw [view_setTask]
      refine reachable_of_step (e := .wait t) ?_
      simp only [Authenticated.State.step, hcalls, Task.call, Option.isSome_none,
        Bool.false_eq_true, if_false]
    · cases h
  · have hcall : ∀ g' : Gate, g' ≠ .outside → (Task.gate g' k).call = some (.wait g') := by
      intro g' hg'
      cases g' with
      | outside => exact absurd rfl hg'
      | _ => rfl
    rw [hcall g hout] at hcalls
    simp only [advance] at h
    split at h
    · rename_i hpass
      cases h
      rw [view_setTask]
      refine reachable_of_step (e := .advance t) ?_
      have hpass' : g.next s.view.auth = some .pass := hpass
      simp only [Authenticated.State.step, hcalls, Authenticated.State.advance, hpass']
      rfl
    · rename_i g' hstay
      cases h
      have hg' : g' ≠ .outside := by
        rintro rfl
        cases g with
        | outside => exact hout rfl
        | firstCheck | create | secondCheck | parked =>
          simp only [Gate.next] at hstay
          repeat' split at hstay
          all_goals cases hstay
      rw [view_setTask, hcall g' hg']
      refine reachable_of_step (e := .advance t) ?_
      have hstay' : g.next s.view.auth = some (.stay g') := hstay
      simp only [Authenticated.State.step, hcalls, Authenticated.State.advance, hstay']
    · cases h

/-- The next step of a handler, whatever it is at. -/
theorem advance_reachable {c : Config} {s s' : Connection} {t : TaskId} {task : Task}
    (ht : s.tasks.lookup t = some task) (h : advance c s t task = some s') :
    Reachable Authenticated.State.step s.view s'.view := by
  have hcalls : s.view.calls t = task.call := by
    simp [view, ht]
  have hcall : ∀ {call : Authenticated.Call} {a : Authenticated.State},
      task.call = some call → s.view.advance t call = some a →
        Reachable Authenticated.State.step s.view a := by
    intro call a htask hstep
    refine reachable_of_step (e := .advance t) ?_
    simp only [Authenticated.State.step, hcalls, htask, hstep]
  cases task with
  | connectResolving | connecting | packetResolving | packetSession => cases h
  | gate g k => exact gate_reachable ht h
  | setUuid | setFlag =>
    cases h
    rw [view_setTask]
    exact hcall rfl rfl
  | setNotify =>
    cases h
    rw [view_endTask]
    exact hcall rfl rfl
  | authenticate auth =>
    cases h
    exact handleAuthenticate_reachable c s auth hcalls
  | uni recv =>
    cases h
    exact (s.handleUni_outside t recv).reachable hcalls
  | bi recv =>
    cases h
    exact (s.handleBi_outside t recv).reachable hcalls
  | datagram dg =>
    cases h
    exact (s.handleDatagram_outside t dg).reachable hcalls
  | dissociate assocId =>
    cases h
    exact (s.handleDissociate_outside t assocId).reachable hcalls
  | passed k =>
    cases h
    exact (s.pass_outside t k).reachable hcalls
  | connect addr =>
    cases h
    exact (s.handleConnect_outside t addr).reachable hcalls
  | packet info payload mode =>
    cases h
    exact (s.handlePacketData_outside t info payload mode).reachable hcalls
  | packetSend g payload target =>
    cases h
    exact (s.packetSend_outside t g payload target).reachable hcalls

/-- **Simulation.**  A step of a connection shows as steps of the calls of its handlers. -/
theorem step_reachable {c : Config} {s s' : Connection} {e : Event} (h : step c s e = some s') :
    Reachable Authenticated.State.step s.view s'.view := by
  have hcalls : ∀ {t : TaskId} {task : Task}, s.tasks.lookup t = some task → task.call = none →
      s.view.calls t = none := by
    intro t task ht hcall
    simp [view, ht, hcall]
  cases e with
  | acceptUni t | acceptBi t | readDatagram t =>
    simp only [step, spawn] at h
    split at h
    · cases h
    rename_i hnew
    cases h
    refine (s.outside_setTask t rfl).reachable ?_
    rw [Option.not_isSome_iff_eq_none] at hnew
    simp [view, hnew]
  | advance t =>
    simp only [step] at h
    split at h
    · rename_i task ht
      exact advance_reachable ht h
    · cases h
  | broken t =>
    simp only [step] at h
    split at h
    case h_2 => cases h
    rename_i task ht
    split at h
    · rename_i hreads
      cases h
      exact (s.outside_endTask t).reachable (hcalls ht (Task.call_of_reads hreads))
    · cases h
  | timeout t =>
    simp only [step] at h
    split at h
    case h_2 => cases h
    rename_i g k ht
    split at h
    · cases h
    rename_i hout
    cases h
    rw [view_endTask]
    refine reachable_of_step (e := .drop t) ?_
    have hcall : s.view.calls t = some (.wait g) := by
      cases g with
      | outside => exact absurd rfl hout
      | _ => simp [view, ht, Task.call]
    simp only [Authenticated.State.step, hcall]
  | resolved t addrs =>
    simp only [step] at h
    split at h
    · rename_i ht
      cases h
      exact (s.dialNext_outside t _).reachable (hcalls ht rfl)
    · rename_i ht
      split at h
      · cases h
        exact (s.outside_setTask t rfl).reachable (hcalls ht rfl)
      · cases h
        exact (s.outside_endTask t).reachable (hcalls ht rfl)
    · cases h
  | connected t ok =>
    simp only [step] at h
    split at h
    case h_2 => cases h
    rename_i ht
    cases h
    cases ok with
    | true => exact (s.outside_endTask t).reachable (hcalls ht rfl)
    | false => exact (s.dialNext_outside t _).reachable (hcalls ht rfl)
  | session t sockets =>
    simp only [step] at h
    split at h
    · rename_i ht
      cases h
      exact (packetSession_outside c s t _ _ _ sockets).reachable (hcalls ht rfl)
    · cases h
  | relay r sent =>
    simp only [step] at h
    repeat' split at h
    all_goals first
      | contradiction
      | cases h
        exact ⟨[], congrArg some (relayUdpToClient_view ..).symm⟩
  | opened | written | reply | recvError | tick | closed | watchdog =>
    simp only [step] at h
    repeat' split at h
    all_goals first
      | contradiction
      | cases h
        exact ⟨[], rfl⟩
  | wait ms =>
    cases h
    exact ⟨[], rfl⟩

/-- In every run of a connection the calls of its handlers keep their invariant. -/
theorem inv_view {c : Config} {es : List Event} {s : Connection}
    (h : run (step c) new es = some s) : Authenticated.Inv s.view := by
  have hview : Reachable Authenticated.State.step new.view s.view :=
    Reachable.simulates view step_reachable ⟨es, h⟩
  exact hview.invariant Authenticated.step_inv Authenticated.inv_new

/-- **Parked handlers.**  In every run of a connection, once a `set` has finished a handler
that is parked at the gate passes it with its next step. -/
theorem step_parked {c : Config} {es : List Event} {s : Connection}
    (h : run (step c) new es = some s) (hset : 0 < s.auth.notified) {t : TaskId} {created : Nat}
    {k : Gated} (ht : s.tasks.lookup t = some (.gate (.parked created) k)) :
    step c s (.advance t) = some (s.setTask t (.passed k)) := by
  have hcall : s.view.calls t = some (.wait (.parked created)) := by
    simp [view, ht, Task.call]
  have hzero : created = 0 := (inv_view h).calls t _ hcall
  simp only [step, ht, advance, Gate.next, hzero, hset, if_true]

end Connection

end Ruproxy.Tuic
