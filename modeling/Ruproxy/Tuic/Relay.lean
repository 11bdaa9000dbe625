/-
  Tuic/Relay.lean --- `handle_connect` of `tuic/connection.rs`.

  After the dial two loops of `tokio::io::copy` run side by side and `select!` drops
  both when the first of them returns.  A `Flow` is a loop with what its source does.  A
  loop that returns without an error has written all that its source has sent; nothing
  speaks for the other loop, and so a half-close in one direction cuts the other one off,
  unless the two sides take turns.
-/
import Mathlib.Logic.Function.Basic
import Ruproxy.Foundation.Transition
import Ruproxy.Tunnel.Copy

set_option autoImplicit false

namespace Ruproxy.Tuic

open Ruproxy.Foundation
open Ruproxy.Foundation.Transition
open Ruproxy.Tunnel

/-! ## One loop and its source -/

/-- A source, and the loop that copies what it has sent so far. -/
structure Flow where
  sent : Bytes
  /-- the source has finished its side -/
  ended : Bool
  loop : CopyLoop sent
  ended_of_readDone : loop.readDone = true → ended = true

/-- What happens at a loop. -/
inductive FlowEvent where
  /-- the source sends -/
  | send (bs : Bytes)
  /-- the source finishes its side -/
  | close
  /-- the loop goes on -/
  | copy (e : CopyEvent)
  deriving DecidableEq

namespace Flow

/-- Nothing was sent. -/
def start : Flow where
  sent := []
  ended := false
  loop := .start []
  ended_of_readDone := nofun

/-- The source sends bytes, before it has finished its side. -/
def send (f : Flow) (bs : Bytes) : Option Flow :=
  if h : bs ≠ [] ∧ f.ended = false then
    have hopen : f.loop.readDone = false :=
      Bool.eq_false_iff.mpr fun hdone => Bool.eq_false_iff.mp h.2 (f.ended_of_readDone hdone)
    some {
      sent := f.sent ++ bs
      ended := false
      loop := f.loop.extend hopen bs
      ended_of_readDone := fun hdone => hopen.symm.trans hdone }
  else
    none

/-- The source finishes its side. -/
def close (f : Flow) : Option Flow :=
  if f.ended = false then some { f with ended := true, ended_of_readDone := fun _ => rfl }
  else none

/-- The loop goes on; it reads the end when the source has finished its side. -/
def copy (f : Flow) (e : CopyEvent) : Option Flow :=
  if h : e = .eof → f.ended = true then
    (copyStep f.loop e).attach.map fun l => { f with
      loop := l.1
      ended_of_readDone := fun hdone =>
        (copyStep_readDone l.2 hdone).elim h f.ended_of_readDone }
  else
    none

/-- One step. -/
def step (f : Flow) : FlowEvent → Option Flow
  | .send bs => f.send bs
  | .close => f.close
  | .copy e => f.copy e

/-- The sink has all that the source has sent. -/
def Delivered (f : Flow) : Prop := f.loop.written = f.sent

instance (f : Flow) : Decidable f.Delivered := inferInstanceAs (Decidable (_ = _))

theorem copy_eq_some {f f' : Flow} {e : CopyEvent} (h : f.copy e = some f') :
    ∃ l hl, copyStep f.loop e = some l ∧ f' = { f with loop := l, ended_of_readDone := hl } := by
  rw [copy] at h
  split at h
  · obtain ⟨⟨l, hl⟩, -, rfl⟩ := Option.map_eq_some_iff.mp h
    exact ⟨l, _, hl, rfl⟩
  · cases h

/-- Only the source ends its side, and what was delivered stays so until it sends again. -/
theorem step_spec {f f' : Flow} {e : FlowEvent} (h : f.step e = some f') :
    (e ≠ .close → f'.ended = f.ended) ∧ ((∀ bs, e ≠ .send bs) → f.Delivered → f'.Delivered) := by
  cases e with
  | send bs =>
    rw [step, send] at h
    split at h
    · rename_i hsend
      cases h
      exact ⟨fun _ => hsend.2.symm, fun hne => absurd rfl (hne bs)⟩
    · cases h
  | close =>
    obtain ⟨-, h⟩ := Option.ite_none_right_eq_some.mp h
    cases h
    exact ⟨fun hne => absurd rfl hne, fun _ hdelivered => hdelivered⟩
  | copy e =>
    obtain ⟨l, hl, hstep, rfl⟩ := copy_eq_some h
    refine ⟨fun _ => rfl, fun _ hdelivered => ?_⟩
    have hmono := copyStep_written_mono hstep
    rw [hdelivered] at hmono
    exact l.written_prefix.eq_of_length_le hmono.length_le

/-- What is sent is not delivered at once. -/
theorem not_delivered_of_send {f f' : Flow} {bs : Bytes} (h : f.step (.send bs) = some f') :
    ¬ f'.Delivered := by
  rw [step, send] at h
  split at h
  · rename_i hsend
    cases h
    intro hdelivered
    have hle := f.loop.written_prefix.length_le
    have hwritten : f.loop.written.length = f.sent.length + bs.length := by
      rw [← List.length_append]
      exact congrArg List.length hdelivered
    have hpos := List.length_pos_iff.mpr hsend.1
    omega
  · cases h

/-- A source that has ended its side does not send or end it again. -/
theorem step_of_ended {f : Flow} (hended : f.ended = true) :
    f.step .close = none ∧ ∀ bs, f.step (.send bs) = none := by
  refine ⟨if_neg ?_, fun bs => dif_neg ?_⟩
  · rw [hended]
    nofun
  · rintro ⟨-, hopen⟩
    rw [hended] at hopen
    cases hopen

/-- A loop whose source has ended its side goes on until it returns. -/
theorem exists_step_of_ended {f : Flow} (hended : f.ended = true) (hgo : ¬ f.loop.Finished) :
    ∃ e f', f.step (.copy e) = some f' ∧ copyRank f'.loop < copyRank f.loop := by
  obtain ⟨e, l, hl, hlt⟩ := copyStep_progress f.loop hgo
  have hattach : (copyStep f.loop e).attach = some ⟨l, hl⟩ := by simp [hl]
  refine ⟨e, { f with loop := l, ended_of_readDone := fun _ => hended }, ?_, hlt⟩
  rw [step, copy, dif_pos fun _ => hended, hattach, Option.map_some]

end Flow

/-! ## The two loops of a connection -/

/-- Client to server, from the QUIC stream to the target, or back. -/
inductive Direction where
  | c2s
  | s2c
  deriving DecidableEq

/-- The direction of the other loop. -/
def Direction.other : Direction → Direction
  | .c2s => .s2c
  | .s2c => .c2s

theorem Direction.other_ne (d : Direction) : d.other ≠ d := by cases d <;> nofun

theorem Direction.eq_or_eq_other (d d' : Direction) : d' = d ∨ d' = d.other := by
  cases d <;> cases d' <;> simp [other]

@[simp] theorem Direction.other_other (d : Direction) : d.other.other = d := by cases d <;> rfl

/-- How far `handle_connect` is. -/
inductive Phase where
  | dialing
  | relaying
  /-- the dial failed and `send` was reset -/
  | reset
  /-- the loop of the direction returned, with `Ok` or not, and `send` was finished -/
  | done (d : Direction) (ok : Bool)
  deriving DecidableEq

/-- The event is one of the source, which does not wait for `handle_connect`. -/
def FlowEvent.bySource : FlowEvent → Bool
  | .send _ | .close => true
  | .copy _ => false

/-- The loops are polled while both run; the client sends when it likes, the target after the
dial. -/
def Phase.admits : Phase → Direction → FlowEvent → Bool
  | .relaying, _, _ => true
  | .done _ _, _, e => e.bySource
  | .dialing, d, e | .reset, d, e => d = .c2s && e.bySource

/-- `handle_connect` between a client and a target. -/
structure Relay where
  phase : Phase
  flow : Direction → Flow

/-- A step of `handle_connect`, or of one of the two sides. -/
inductive RelayEvent where
  | dialed (ok : Bool)
  | flow (d : Direction) (e : FlowEvent)
  /-- the loop returns `Ok` -/
  | finish (d : Direction)
  /-- a read or a write of the loop gives an error -/
  | fail (d : Direction)
  deriving DecidableEq

namespace Relay

/-- Where `handle_connect` begins. -/
def start : Relay where
  phase := .dialing
  flow := fun _ => .start

/-- One direction moves on. -/
def setFlow (s : Relay) (d : Direction) (f : Flow) : Relay :=
  { s with flow := Function.update s.flow d f }

@[simp] theorem setFlow_phase (s : Relay) (d : Direction) (f : Flow) :
    (s.setFlow d f).phase = s.phase := rfl

@[simp] theorem setFlow_flow (s : Relay) (d : Direction) (f : Flow) :
    (s.setFlow d f).flow d = f := Function.update_self ..

@[simp] theorem setFlow_flow_other (s : Relay) (d : Direction) (f : Flow) :
    (s.setFlow d f).flow d.other = s.flow d.other := Function.update_of_ne d.other_ne ..

/-- One step. -/
def step (s : Relay) : RelayEvent → Option Relay
  | .dialed ok =>
      if s.phase = .dialing then some { s with phase := if ok then .relaying else .reset } else none
  | .flow d e => if s.phase.admits d e then ((s.flow d).step e).map (s.setFlow d) else none
  | .finish d =>
      if s.phase = .relaying ∧ (s.flow d).loop.Finished then some { s with phase := .done d true }
      else none
  | .fail d => if s.phase = .relaying then some { s with phase := .done d false } else none

/-- Where `handle_connect` is over and no loop gave an error, both sides got all that the other
one sent. -/
def Delivered (s : Relay) : Prop :=
  ∀ d, s.phase = .done d true → ∀ d', (s.flow d').Delivered

/-- The two sides take turns: one sends only while the other has not finished its side, and
finishes its own only when nothing of the other's is on its way. -/
def TakesTurns (s : Relay) : RelayEvent → Prop
  | .flow d (.send _) => (s.flow d.other).ended = false
  | .flow d .close => (s.flow d.other).Delivered
  | _ => True

instance (s : Relay) : (e : RelayEvent) → Decidable (s.TakesTurns e)
  | .flow d (.send _) => inferInstanceAs (Decidable ((s.flow d.other).ended = false))
  | .flow d .close => inferInstanceAs (Decidable (s.flow d.other).Delivered)
  | .flow _ (.copy _) | .dialed _ | .finish _ | .fail _ => .isTrue trivial

/-! ## What one step does -/

/-- A step moves one direction on, or it changes the phase; the loop that ends `handle_connect`
without an error is finished. -/
theorem step_cases {s s' : Relay} {e : RelayEvent} (h : s.step e = some s') :
    (∃ d ev f, e = .flow d ev ∧ s.phase.admits d ev = true ∧ (s.flow d).step ev = some f ∧
      s' = s.setFlow d f) ∨
    ((∀ d ev, e ≠ .flow d ev) ∧ s'.flow = s.flow ∧
      ∀ d, s'.phase = .done d true → (s.flow d).loop.Finished) := by
  cases e with
  | dialed ok =>
    obtain ⟨-, h⟩ := Option.ite_none_right_eq_some.mp h
    cases h
    refine .inr ⟨nofun, rfl, fun d hd => ?_⟩
    cases ok <;> cases hd
  | flow d ev =>
    obtain ⟨hadmits, h⟩ := Option.ite_none_right_eq_some.mp h
    obtain ⟨f, hf, rfl⟩ := Option.map_eq_some_iff.mp h
    exact .inl ⟨d, ev, f, rfl, hadmits, hf, rfl⟩
  | finish d =>
    obtain ⟨⟨-, hfin⟩, h⟩ := Option.ite_none_right_eq_some.mp h
    cases h
    refine .inr ⟨nofun, rfl, fun d' hd' => ?_⟩
    cases hd'
    exact hfin
  | fail d =>
    obtain ⟨-, h⟩ := Option.ite_none_right_eq_some.mp h
    cases h
    exact .inr ⟨nofun, rfl, nofun⟩

/-- A side that has finished is owed nothing more, and the loop that has returned stays
finished. -/
structure Settled (s : Relay) : Prop where
  ended : ∀ d, (s.flow d).ended = true → (s.flow d.other).Delivered
  finished : ∀ d, s.phase = .done d true → (s.flow d).loop.Finished

theorem settled_start : start.Settled where
  ended _ h := nomatch h
  finished _ h := nomatch h

theorem Settled.delivered {s : Relay} (h : s.Settled) : s.Delivered := by
  intro d hd d'
  have hfin := h.finished d hd
  rcases d.eq_or_eq_other d' with rfl | rfl
  · exact (CopyLoop.written_eq_iff _).mpr hfin.drained
  · exact h.ended d ((s.flow d).ended_of_readDone hfin.1)

/-- A loop that has returned is not moved by its source, which has finished its side. -/
theorem Settled.not_moved {s : Relay} {d : Direction} {ev : FlowEvent} {f : Flow}
    (h : s.Settled) (hdone : s.phase = .done d true) (hadmits : s.phase.admits d ev = true) :
    (s.flow d).step ev ≠ some f := by
  obtain ⟨hclose, hsend⟩ :=
    Flow.step_of_ended ((s.flow d).ended_of_readDone (h.finished d hdone).1)
  rw [hdone] at hadmits
  cases ev with
  | send bs => simp [hsend]
  | close => simp [hclose]
  | copy e => cases hadmits

/-- Where the sides take turns, a side that finishes was answered in full, and nobody answers
it afterwards. -/
theorem settled_step : Preserves step TakesTurns Settled := by
  intro s e s' h hturn hstep
  rcases step_cases hstep with ⟨d, ev, f, rfl, hadmits, hf, rfl⟩ | ⟨-, hflow, hfin⟩
  · obtain ⟨hended, hdelivered⟩ := Flow.step_spec hf
    refine ⟨fun d' hd' => ?_, fun d' hd' => ?_⟩
    · rcases d.eq_or_eq_other d' with rfl | rfl
      · rw [setFlow_flow] at hd'
        rw [setFlow_flow_other]
        by_cases hclose : ev = .close
        · subst hclose
          exact hturn
        · exact h.ended d' (by rwa [hended hclose] at hd')
      · rw [setFlow_flow_other] at hd'
        rw [Direction.other_other, setFlow_flow]
        refine hdelivered (fun bs hsend => ?_) (by simpa using h.ended d.other hd')
        subst hsend
        have hopen : (s.flow d.other).ended = false := hturn
        rw [hopen] at hd'
        cases hd'
    · rcases d.eq_or_eq_other d' with rfl | rfl
      · exact absurd hf (h.not_moved hd' hadmits)
      · rw [setFlow_flow_other]
        exact h.finished _ hd'
  · refine ⟨fun d hd => ?_, fun d hd => ?_⟩
    · rw [hflow] at hd ⊢
      exact h.ended d hd
    · rw [hflow]
      exact hfin d hd

/-! ## Every run -/

/-- **Both directions are delivered.**  In every run in which the two sides take turns,
`handle_connect` is over without an error only when each side got all that the other one sent. -/
theorem always_delivered_of_every {es : List RelayEvent} (hev : Every step TakesTurns start es) :
    Always step Delivered start es :=
  always_of_every settled_step Settled.delivered settled_start hev

/-- Both loops run, the source of this one has finished its side, and the other one waits. -/
structure Finishing (d : Direction) (f : Flow) (s : Relay) : Prop where
  phase : s.phase = .relaying
  ended : (s.flow d).ended = true
  other : s.flow d.other = f

theorem Finishing.exists_step {d : Direction} {f : Flow} {s : Relay} (h : s.Finishing d f)
    (hgo : ¬ (s.flow d).loop.Finished) :
    ∃ e s', s.step e = some s' ∧ s'.Finishing d f ∧
      copyRank (s'.flow d).loop < copyRank (s.flow d).loop := by
  obtain ⟨ev, f', hf', hlt⟩ := Flow.exists_step_of_ended h.ended hgo
  have hadmits : s.phase.admits d (.copy ev) = true := by rw [h.phase, Phase.admits]
  refine ⟨.flow d (.copy ev), s.setFlow d f', ?_, ⟨h.phase, ?_, ?_⟩, ?_⟩
  · rw [step, if_pos hadmits, hf', Option.map_some]
  · rw [setFlow_flow, (Flow.step_spec hf').1 nofun]
    exact h.ended
  · rw [setFlow_flow_other, h.other]
  · rw [setFlow_flow]
    exact hlt

/-- The loop whose source has finished its side can end `handle_connect` while the other one
waits. -/
theorem Finishing.exists_done {d : Direction} {f : Flow} {s : Relay} (h : s.Finishing d f) :
    ∃ fs t, run step s fs = some t ∧ t.phase = .done d true ∧ t.flow d.other = f := by
  have hrank : ∀ t : Relay, t.Finishing d f → ¬ (t.Finishing d f ∧ (t.flow d).loop.Finished) →
      ∃ e t', True ∧ t.step e = some t' ∧ t'.Finishing d f ∧
        copyRank (t'.flow d).loop < copyRank (t.flow d).loop := by
    intro t ht hgo
    obtain ⟨e, t', hstep, ht', hlt⟩ := ht.exists_step fun hfin => hgo ⟨ht, hfin⟩
    exact ⟨e, t', trivial, hstep, ht', hlt⟩
  obtain ⟨t, hreach, ht, hfin⟩ := exists_reachableBy_of_rank
    (fun t : Relay => t.Finishing d f ∧ (t.flow d).loop.Finished)
    (fun t => copyRank (t.flow d).loop) hrank h
  obtain ⟨fs, hrun⟩ := hreach.reachable
  have hdone : t.step (.finish d) = some { t with phase := .done d true } :=
    if_pos ⟨ht.phase, hfin⟩
  refine ⟨fs ++ [.finish d], { t with phase := .done d true }, ?_, rfl, ht.other⟩
  rw [run_append, hrun, Option.bind_some, run_cons, hdone, Option.bind_some, run_nil]

/-- **Nothing less will do.**  Where the sides do not take turns while both loops run, some run
from there on cuts one of them off. -/
theorem exists_cutOff {s s' : Relay} {e : RelayEvent} (hphase : s.phase = .relaying)
    (hstep : s.step e = some s') (hturn : ¬ s.TakesTurns e) :
    ∃ fs t, run step s' fs = some t ∧ ¬ t.Delivered := by
  suffices hfinishing : ∃ d f, s'.Finishing d f ∧ ¬ f.Delivered by
    obtain ⟨d, f, h, hleft⟩ := hfinishing
    obtain ⟨fs, t, hrun, hdone, rfl⟩ := h.exists_done
    exact ⟨fs, t, hrun, fun hdelivered => hleft (hdelivered d hdone d.other)⟩
  rcases step_cases hstep with ⟨d, ev, f, rfl, -, hf, rfl⟩ | ⟨hne, -⟩
  · cases ev with
    | send bs =>
      have hended : (s.flow d.other).ended = true := Bool.not_eq_false _ ▸ hturn
      refine ⟨d.other, f, ⟨hphase, ?_, ?_⟩, Flow.not_delivered_of_send hf⟩
      · rw [setFlow_flow_other]
        exact hended
      · rw [Direction.other_other, setFlow_flow]
    | close =>
      obtain ⟨-, h⟩ := Option.ite_none_right_eq_some.mp hf
      cases h
      exact ⟨d, s.flow d.other, ⟨hphase, by rw [setFlow_flow], setFlow_flow_other ..⟩, hturn⟩
    | copy e => exact absurd trivial hturn
  · cases e with
    | flow d ev => exact absurd rfl (hne d ev)
    | _ => exact absurd trivial hturn

end Relay

/-! ## Two half-closes -/

/-- The client asks in one byte; the target answers in one and closes. -/
def answered : List RelayEvent :=
  [.flow .c2s (.send [1]), .dialed true, .flow .c2s (.copy (.read 1)),
    .flow .c2s (.copy (.write 1)), .flow .s2c (.send [2]), .flow .s2c (.copy (.read 1)),
    .flow .s2c (.copy (.write 1)), .flow .s2c .close, .flow .s2c (.copy .eof), .finish .s2c]

/-- The client closes its side after its question, with the answer on its way. -/
def halfClosed : List RelayEvent :=
  [.dialed true, .flow .c2s (.send [1]), .flow .c2s .close, .flow .c2s (.copy (.read 1)),
    .flow .c2s (.copy (.write 1)), .flow .s2c (.send [2]), .flow .c2s (.copy .eof), .finish .c2s]

theorem Relay.always_delivered_of_every_answered :
    (∃ t, run Relay.step Relay.start answered = some t ∧ t.phase = .done .s2c true ∧
      (t.flow .c2s).sent = [1] ∧ (t.flow .s2c).sent = [2]) ∧
    Always Relay.step Relay.Delivered Relay.start answered :=
  ⟨⟨_, rfl, rfl, rfl, rfl⟩, Relay.always_delivered_of_every (by decide)⟩

/-- Not every run that ends without an error delivers both directions. -/
theorem Relay.not_delivered_halfClosed :
    ¬ ∀ es t, run Relay.step Relay.start es = some t → t.Delivered := by
  intro h
  have hall := h halfClosed _ rfl .c2s rfl .s2c
  cases hall

end Ruproxy.Tuic
