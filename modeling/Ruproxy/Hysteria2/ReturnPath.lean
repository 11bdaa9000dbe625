/-
  Hysteria2/ReturnPath.lean --- how long replies reach the client.

  The two idle timers of a session know nothing of each other: that of the main loop
  starts anew with each frame of the client, that of the receive task with each datagram
  of a remote host.  A client that only sends keeps its session, but after
  `UDP_IDLE_TIMEOUT` without a reply no later reply is relayed.
-/
import Ruproxy.Hysteria2.Session

set_option autoImplicit false

namespace Ruproxy.Hysteria2

open Ruproxy.Foundation Ruproxy.Foundation.Transition

/-- In the main loop: frames of the client are taken and forwarded. -/
def SessionMain.Accepts : SessionMain → Prop
  | .waiting _ | .relaying => True
  | _ => False

def ReceiveTask.Runs : ReceiveTask → Prop
  | .waiting _ => True
  | _ => False

instance : (m : SessionMain) → Decidable m.Accepts
  | .waiting _ | .relaying => .isTrue trivial
  | .binding | .relayingFirst | .returned => .isFalse id

instance : (r : ReceiveTask) → Decidable r.Runs
  | .waiting _ => .isTrue trivial
  | .unspawned | .ended => .isFalse id

/-- The socket or `send_datagram` reports an error. -/
def SessionEvent.IsError : SessionEvent → Prop
  | .bindError | .replyError .. | .recvError => True
  | _ => False

/-- While client frames are accepted the receive task runs, and sends on what arrives. -/
def KeepsReturnPath (s : UdpSession) : Prop :=
  s.main.Accepts → s.receive.Runs ∧ ∀ src data, ∃ s', s.step (.reply src data) = some s' ∧
    s'.relayed = s.relayed ++ s.replyFrames src data

/-- The timer of the receive task does not run out while client frames are accepted. -/
def ReceiveTimerLasts (s : UdpSession) (e : SessionEvent) : Prop :=
  e = .receiveIdle → ¬ s.main.Accepts

/-! ## One step -/

/-- A receive task that runs relays what arrives. -/
theorem keepsReturnPath_iff_runs (s : UdpSession) :
    KeepsReturnPath s ↔ (s.main.Accepts → s.receive.Runs) := by
  constructor
  · exact fun h hacc => (h hacc).1
  · intro h hacc
    refine ⟨h hacc, fun src data => ?_⟩
    cases hr : s.receive with
    | waiting deadline => exact ⟨_, by rw [UdpSession.step, hr], rfl⟩
    | unspawned | ended => exact absurd (h hacc) (by rw [hr]; exact id)

/-- A step keeps the receive task under the main loop unless it ends it there. -/
theorem runs_step_iff {s s' : UdpSession} {e : SessionEvent}
    (h : s.main.Accepts → s.receive.Runs) (hs : s.step e = some s') :
    (s'.main.Accepts → s'.receive.Runs) ↔ (e.EndsReceive → ¬ s.main.Accepts) := by
  obtain ⟨heffect, -, -⟩ := UdpSession.effect_of_step hs
  generalize s'.main = main at *
  generalize s'.receive = receive at *
  cases heffect with
  | elapses | delivers => exact iff_of_true h (absurd · id)
  | binds => exact iff_of_true (absurd · id) (absurd · id)
  | returns hends => exact iff_of_true (absurd · id) (absurd · hends)
  | spawns | relays => exact iff_of_true (fun _ => trivial) (absurd · id)
  | turns hmain | takes hmain =>
    exact iff_of_true (fun _ => h (by rw [hmain]; trivial)) (absurd · id)
  | ends hends => exact ⟨fun hg _ hacc => hg hacc, fun hno hacc => absurd hacc (hno hends)⟩

/-! ## The timer of the receive task -/

/-- The receive task waits until `UDP_IDLE_TIMEOUT` after its last datagram. -/
theorem silence_of_waiting {sessionId : UInt32} {firstFrame : UdpFrame}
    {es : List SessionEvent} {s : UdpSession} {deadline : Nat}
    (hrun : run UdpSession.step (.init sessionId firstFrame) es = some s)
    (hwaits : s.receive = .waiting deadline) :
    ∃ before after, es = before ++ after ∧ (∀ src data, .reply src data ∉ after) ∧
      s.now + udpIdleTimeout = deadline + (after.map SessionEvent.ms).sum := by
  induction es using List.reverseRecOn generalizing s deadline with
  | nil =>
    obtain rfl := Option.some.inj hrun
    cases hwaits
  | append_singleton es e ih =>
    rw [run_append] at hrun
    obtain ⟨t, ht, hlast⟩ := Option.bind_eq_some_iff.mp hrun
    obtain ⟨s', hs', heq⟩ := run_cons_eq_some.mp hlast
    obtain rfl := Option.some.inj heq
    obtain ⟨heffect, -, hnow⟩ := UdpSession.effect_of_step hs'
    -- a step that leaves the receive task alone goes after the last datagram
    have hstays : t.receive = .waiting deadline → (∀ src data, e ≠ .reply src data) →
        ∃ before after, es ++ [e] = before ++ after ∧ (∀ src data, .reply src data ∉ after) ∧
          s'.now + udpIdleTimeout = deadline + (after.map SessionEvent.ms).sum := by
      intro hwaits' hno
      obtain ⟨before, after, rfl, hsilent, htime⟩ := ih ht hwaits'
      refine ⟨before, after ++ [e], (List.append_assoc ..), ?_, ?_⟩
      · intro src data hmem
        rcases List.mem_append.mp hmem with hmem | hmem
        · exact hsilent src data hmem
        · exact hno src data (List.mem_singleton.mp hmem).symm
      · rw [hnow, List.map_append, List.sum_append, List.map_singleton, List.sum_singleton]
        omega
    rw [hwaits] at heffect
    generalize s'.main = main at heffect
    generalize hreceive : ReceiveTask.waiting deadline = receive at heffect
    cases heffect with
    | elapses | delivers | binds | turns | takes =>
      exact hstays hreceive.symm fun _ _ h => by cases h
    | spawns | relays =>
      cases hreceive
      refine ⟨_, [], (List.append_nil _).symm, by simp, ?_⟩
      simp [hnow, SessionEvent.ms]
    | ends | returns => cases hreceive

/-- The timer of the receive task runs out after that time without a reply. -/
theorem silence_of_receiveIdle {sessionId : UInt32} {firstFrame : UdpFrame}
    {es : List SessionEvent} {s : UdpSession}
    (hrun : run UdpSession.step (.init sessionId firstFrame) (es ++ [.receiveIdle]) = some s) :
    ∃ before after, es = before ++ after ∧ (∀ src data, .reply src data ∉ after) ∧
      udpIdleTimeout ≤ (after.map SessionEvent.ms).sum := by
  rw [run_append] at hrun
  obtain ⟨t, ht, hlast⟩ := Option.bind_eq_some_iff.mp hrun
  obtain ⟨s', hs', -⟩ := run_cons_eq_some.mp hlast
  simp only [UdpSession.step] at hs'
  split at hs'
  · rename_i deadline hwaits
    split at hs'
    · rename_i hdue
      obtain ⟨before, after, hes, hsilent, htime⟩ := silence_of_waiting ht hwaits
      exact ⟨before, after, hes, hsilent, by omega⟩
    · cases hs'
  · cases hs'

/-! ## Every run -/

/-- **The return path.**  In a run without errors of the socket or of `send_datagram`, the
session keeps its return path in every state exactly if the timer of the receive task never
runs out while client frames are accepted. -/
theorem always_keepsReturnPath_iff {sessionId : UInt32} {firstFrame : UdpFrame}
    {es : List SessionEvent} {s : UdpSession}
    (hrun : run UdpSession.step (.init sessionId firstFrame) es = some s)
    (hok : ∀ e ∈ es, ¬ e.IsError) :
    Always UdpSession.step KeepsReturnPath (.init sessionId firstFrame) es ↔
      Every UdpSession.step ReceiveTimerLasts (.init sessionId firstFrame) es := by
  have hends : ∀ s : UdpSession, ∀ e ∈ es,
      ((e.EndsReceive → ¬ s.main.Accepts) ↔ ReceiveTimerLasts s e) := by
    intro s e he
    have hno := hok e he
    cases e with
    | receiveIdle => exact ⟨fun h _ => h trivial, fun h _ => h rfl⟩
    | replyError | recvError => exact absurd trivial hno
    | _ => exact iff_of_true (absurd · id) (fun h => by cases h)
  have hpres : Preserves UdpSession.step (fun _ _ => True) fun _ => True :=
    fun _ _ _ => trivial
  rw [← every_congr hends]
  apply always_iff_every hpres ?_ trivial ?_ hrun
  · intro s e s' _ hgood hs
    rw [keepsReturnPath_iff_runs] at hgood ⊢
    exact runs_step_iff hgood hs
  · exact fun hacc => absurd hacc id

/-- A frame that announces no fragments. -/
def wholeFrame (payload : Bytes) : UdpFrame := ⟨1, 0, 0, 1, "192.0.2.1", 53, payload⟩

theorem always_keepsReturnPath_iff_reply :
    Always UdpSession.step KeepsReturnPath (.init 1 (wholeFrame [7]))
      [.bound, .forwarded, .elapse 30000, .reply ⟨.v4 (.new 192 0 2 1), 53⟩ [8]] := by
  apply (always_keepsReturnPath_iff rfl ?_).mpr
  · apply every_of_forall
    rintro s e he rfl
    simp at he
  · simp [SessionEvent.IsError]

/-- A client that sends every 30 s and gets no reply. -/
def sendOnly : List SessionEvent :=
  [.bound, .forwarded, .elapse 30000, .deliver (wholeFrame [8]), .recv, .forwarded,
    .elapse 30000, .receiveIdle]

/-- After 60 s the session still accepts its frames, and relays no reply. -/
theorem not_keepsReturnPath_sendOnly :
    ∃ s, run UdpSession.step (.init 1 (wholeFrame [7])) sendOnly = some s ∧
      (∀ e ∈ sendOnly, ¬ e.IsError) ∧ ¬ KeepsReturnPath s := by
  refine ⟨_, rfl, by simp [sendOnly, SessionEvent.IsError], ?_⟩
  intro hkeeps
  exact (hkeeps trivial).1

end Ruproxy.Hysteria2
