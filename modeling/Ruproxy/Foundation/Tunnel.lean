/-
  Foundation/Tunnel.lean --- a connection that opens a tunnel to a target.

  A server reads a handshake off a client, connects to the target that it names, answers,
  and joins two legs: one carries what the client sends behind the handshake to the target,
  the other one carries the answers of the target back.  A `Protocol` says which handshakes
  are accepted and what the server answers.  The states of a `Conn` carry what has been
  accepted, so that nothing is dialed and no byte is passed on without a handshake.

  All that the client will ever send is known, and so is what each target will ever answer.
  Where one of the two breaks off, an event ends the handshake or fails a leg.
-/
import Ruproxy.Foundation.Duplex

set_option autoImplicit false

namespace Ruproxy.Foundation.Tunnel

open Ruproxy.Foundation.Transition Ruproxy.Foundation.Duplex

/-- A protocol to open a tunnel with. -/
structure Protocol (ε : Type) where
  /-- the answers to what a client sends; if it is accepted, the target with what is left -/
  accept : Bytes → Bytes × Option (String × Bytes)
  /-- the answer when the target is connected -/
  connected : Bytes
  /-- the answer when it is not, for an error text -/
  failed : String → Bytes
  /-- from the client to the target -/
  up : (sent : Bytes) → Pump ε sent
  /-- from the target to the client -/
  down : (sent : Bytes) → Pump ε sent

variable {ε : Type}

/-- A handshake of a client that was accepted. -/
structure Accepted (P : Protocol ε) (client : Bytes) where
  target : String
  rest : Bytes
  accepted : (P.accept client).2 = some (target, rest)

/-- Where a connection is. -/
inductive Conn (P : Protocol ε) (client : Bytes) (upstream : String → Bytes) where
  /-- the handshake is read -/
  | reading
  /-- the handshake was refused or broke off; what was answered -/
  | refused (answers : Bytes) (isPrefix : answers <+: (P.accept client).1)
  | dialing (a : Accepted P client)
  /-- the target was not connected; what was answered to that -/
  | unreachable (a : Accepted P client) (answer : Bytes) (isPrefix : ∃ e, answer <+: P.failed e)
  /-- the target is connected, and that is answered -/
  | answering (a : Accepted P client)
  /-- the answer broke off -/
  | cut (a : Accepted P client) (answer : Bytes) (isPrefix : answer <+: P.connected)
  | relaying (a : Accepted P client) (legs : Leg (P.up a.rest) × Leg (P.down (upstream a.target)))

/-- A step of a connection. -/
inductive ConnEvent (ε : Type) where
  /-- the handshake returns, with whatever result -/
  | handshake
  /-- the client is lost in the handshake, after `n` bytes of the answers -/
  | lost (n : Nat)
  | connected
  /-- the connection fails, and `n` bytes of the answer get to the client -/
  | unreachable (e : String) (n : Nat)
  | answered
  /-- the client is lost, after `n` bytes of the answer -/
  | cut (n : Nat)
  | relay (e : LegEvent ε ⊕ LegEvent ε)

namespace Conn

variable {P : Protocol ε} {client : Bytes} {upstream : String → Bytes}

/-- One step of a connection. -/
def step : Conn P client upstream → ConnEvent ε → Option (Conn P client upstream)
  | .reading, .handshake =>
      match h : (P.accept client).2 with
      | some (target, rest) => some (.dialing ⟨target, rest, h⟩)
      | none => some (.refused (P.accept client).1 List.prefix_rfl)
  | .reading, .lost n => some (.refused ((P.accept client).1.take n) (List.take_prefix n _))
  | .dialing a, .connected => some (.answering a)
  | .dialing a, .unreachable e n =>
      some (.unreachable a ((P.failed e).take n) ⟨e, List.take_prefix n _⟩)
  | .answering a, .answered => some (.relaying a (.start _, .start _))
  | .answering a, .cut n => some (.cut a (P.connected.take n) (List.take_prefix n _))
  | .relaying a legs, .relay e => (both Leg.step Leg.step legs e).map (.relaying a)
  | _, _ => none

/-! ## What is seen from outside -/

/-- The handshake that was accepted. -/
def accepted : Conn P client upstream → Option (Accepted P client)
  | .reading => none
  | .refused _ _ => none
  | .dialing a => some a
  | .unreachable a _ _ => some a
  | .answering a => some a
  | .cut a _ _ => some a
  | .relaying a _ => some a

/-- The target that the server has tried to connect to. -/
def dialed (c : Conn P client upstream) : Option String := c.accepted.map Accepted.target

/-- The target is connected. -/
def opened : Conn P client upstream → Bool
  | .answering _ => true
  | .cut _ _ _ => true
  | .relaying _ _ => true
  | _ => false

/-- What the target got. -/
def toTarget : Conn P client upstream → Bytes
  | .relaying _ legs => legs.1.written
  | _ => []

/-- What the client got. -/
def toClient : Conn P client upstream → Bytes
  | .reading => []
  | .refused answers _ => answers
  | .dialing _ => (P.accept client).1
  | .unreachable _ answer _ => (P.accept client).1 ++ answer
  | .answering _ => (P.accept client).1
  | .cut _ answer _ => (P.accept client).1 ++ answer
  | .relaying _ legs => (P.accept client).1 ++ (P.connected ++ legs.2.written)

/-- How far the leg to the target is. -/
def upStage : Conn P client upstream → Option Stage
  | .relaying _ legs => some legs.1.stage
  | _ => none

/-- How far the leg to the client is. -/
def downStage : Conn P client upstream → Option Stage
  | .relaying _ legs => some legs.2.stage
  | _ => none

/-! ## Safety -/

/-- What an accepted handshake for `target` in front of `rest`, with these answers to it,
allows in a state. -/
structure Faithful (c : Conn P client upstream) (answers : Bytes) (target : String)
    (rest : Bytes) : Prop where
  toTarget_prefix : c.toTarget <+: rest
  toClient_prefix : c.opened = true → c.toClient <+: answers ++ (P.connected ++ upstream target)
  toClient_of_unopened : c.opened = false → c.toTarget = [] ∧
    ∃ e, c.toClient <+: answers ++ P.failed e
  toTarget_eq : c.upStage.any Stage.succeeded = true → c.toTarget = rest
  toClient_eq : c.downStage.any Stage.succeeded = true →
    c.toClient = answers ++ (P.connected ++ upstream target)

/-- Without an accepted handshake nothing is passed on, and the client gets the answers to its
handshake at most. -/
theorem refused_of_accepted (c : Conn P client upstream) (h : c.accepted = none) :
    c.toTarget = [] ∧ c.toClient <+: (P.accept client).1 := by
  cases c with
  | reading => exact ⟨rfl, List.nil_prefix⟩
  | refused answers isPrefix => exact ⟨rfl, isPrefix⟩
  | dialing a => cases h
  | unreachable a answer isPrefix => cases h
  | answering a => cases h
  | cut a answer isPrefix => cases h
  | relaying a legs => cases h

/-- Both ends get what the other one sends, from the start and in order. -/
theorem faithful_of_accepted (c : Conn P client upstream) {a : Accepted P client}
    (h : c.accepted = some a) : c.Faithful (P.accept client).1 a.target a.rest := by
  cases c with
  | reading => cases h
  | refused answers isPrefix => cases h
  | dialing a' =>
    cases h
    exact ⟨List.nil_prefix, nofun, fun _ => ⟨rfl, "", List.prefix_append _ _⟩, nofun, nofun⟩
  | unreachable a' answer isPrefix =>
    cases h
    obtain ⟨e, hprefix⟩ := isPrefix
    exact ⟨List.nil_prefix, nofun,
      fun _ => ⟨rfl, e, (List.prefix_append_right_inj _).mpr hprefix⟩, nofun, nofun⟩
  | answering a' =>
    cases h
    exact ⟨List.nil_prefix, fun _ => List.prefix_append _ _, nofun, nofun, nofun⟩
  | cut a' answer isPrefix =>
    cases h
    refine ⟨List.nil_prefix, fun _ => ?_, nofun, nofun, nofun⟩
    exact (List.prefix_append_right_inj _).mpr (isPrefix.trans (List.prefix_append _ _))
  | relaying a' legs =>
    cases h
    refine ⟨Leg.written_prefix legs.1, fun _ => ?_, nofun, fun hok => ?_, fun hok => ?_⟩
    · exact (List.prefix_append_right_inj _).mpr
        ((List.prefix_append_right_inj _).mpr (Leg.written_prefix legs.2))
    · exact Leg.written_of_succeeded hok
    · have hwritten : legs.2.written = upstream a.target := Leg.written_of_succeeded hok
      rw [toClient, hwritten]

/-! ## Liveness -/

/-- A leg that has not failed can go on until its end has got everything, `rest` or `back`,
and is shut down.  Whatever became of the other leg, that does not touch it. -/
structure Completes (c : Conn P client upstream) (rest back : Bytes) : Prop where
  up : ∀ stage, c.upStage = some stage → stage.failed = false →
    ∃ es c', run step c es = some c' ∧ c'.upStage = some (.closed true) ∧ c'.toTarget = rest ∧
      c'.downStage = c.downStage ∧ c'.toClient = c.toClient
  down : ∀ stage, c.downStage = some stage → stage.failed = false →
    ∃ es c', run step c es = some c' ∧ c'.downStage = some (.closed true) ∧ c'.toClient = back ∧
      c'.upStage = c.upStage ∧ c'.toTarget = c.toTarget

theorem run_relaying {a : Accepted P client}
    {legs legs' : Leg (P.up a.rest) × Leg (P.down (upstream a.target))}
    {es : List (LegEvent ε ⊕ LegEvent ε)} (h : run (both Leg.step Leg.step) legs es = some legs') :
    run step (.relaying a legs : Conn P client upstream) (es.map .relay) =
      some (.relaying a legs') := by
  induction es generalizing legs with
  | nil =>
    obtain rfl := Option.some.inj h
    rfl
  | cons e es ih =>
    obtain ⟨legs₁, hstep, hrest⟩ := run_cons_eq_some.mp h
    refine run_cons_eq_some.mpr ⟨.relaying a legs₁, ?_, ih hrest⟩
    rw [step, hstep, Option.map_some]

theorem completes_of_accepted (c : Conn P client upstream) {a : Accepted P client}
    (h : c.accepted = some a) :
    c.Completes a.rest ((P.accept client).1 ++ (P.connected ++ upstream a.target)) := by
  cases c with
  | relaying a' legs =>
    cases h
    obtain ⟨up, down⟩ := legs
    constructor
    · intro stage hstage hgo
      cases hstage
      obtain ⟨es, up', hrun, hclosed, hwritten⟩ := up.exists_completion hgo
      exact ⟨_, .relaying a (up', down), run_relaying (run_both_lefts down hrun),
        congrArg some hclosed, hwritten, rfl, rfl⟩
    · intro stage hstage hgo
      cases hstage
      obtain ⟨es, down', hrun, hclosed, hwritten⟩ := down.exists_completion hgo
      refine ⟨_, .relaying a (up, down'), run_relaying (run_both_rights up hrun),
        congrArg some hclosed, ?_, rfl, rfl⟩
      rw [toClient, hwritten]
  | _ => exact ⟨nofun, nofun⟩

/-- A client with an accepted handshake can be served: both ends get everything. -/
theorem exists_served (upstream : String → Bytes) (a : Accepted P client) :
    ∃ es c, run step (.reading : Conn P client upstream) es = some c ∧ c.dialed = some a.target ∧
      c.upStage = some (.closed true) ∧ c.downStage = some (.closed true) ∧
        c.toTarget = a.rest ∧
          c.toClient = (P.accept client).1 ++ (P.connected ++ upstream a.target) := by
  have hdial : step (.reading : Conn P client upstream) .handshake = some (.dialing a) := by
    rw [step]
    split
    · rename_i target rest heq
      obtain ⟨target', rest', accepted⟩ := a
      rw [accepted] at heq
      cases heq
      rfl
    · rename_i hnone
      rw [a.accepted] at hnone
      cases hnone
  have hopen : run step (.reading : Conn P client upstream) [.handshake, .connected, .answered] =
      some (.relaying a (.start _, .start _)) :=
    run_cons_eq_some.mpr ⟨_, hdial, rfl⟩
  obtain ⟨up, u, hup, hupStage, hupWritten⟩ := (Leg.start (P.up a.rest)).exists_completion rfl
  obtain ⟨down, d, hdown, hdownStage, hdownWritten⟩ :=
    (Leg.start (P.down (upstream a.target))).exists_completion rfl
  refine ⟨[.handshake, .connected, .answered] ++
    (up.map .inl ++ down.map .inr : List (LegEvent ε ⊕ LegEvent ε)).map .relay,
    .relaying a (u, d), ?_, rfl, congrArg some hupStage, congrArg some hdownStage, hupWritten, ?_⟩
  · rw [run_append, hopen]
    refine run_relaying ?_
    rw [run_append, run_both_lefts _ hup]
    exact run_both_rights _ hdown
  · rw [toClient, hdownWritten]

end Conn

/-! ## Tunnels -/

/-- The connections of a client are a tunnel behind a handshake: `IsHandshake` tells, for a
stream of a client, the answers, the target and what is left for it. -/
structure Tunnels (P : Protocol ε) (client : Bytes) (upstream : String → Bytes)
    (IsHandshake : Bytes → String → Bytes → Prop) : Prop where
  /-- nothing is passed on before a target is dialed -/
  quiet : ∀ es c, run Conn.step (.reading : Conn P client upstream) es = some c →
    c.dialed = none → c.toTarget = [] ∧ c.toClient <+: (P.accept client).1
  /-- a target that is dialed is the one of a handshake -/
  faithful : ∀ es c, run Conn.step (.reading : Conn P client upstream) es = some c →
    ∀ target, c.dialed = some target → ∃ answers rest, IsHandshake answers target rest ∧
      c.Faithful answers target rest ∧
        c.Completes rest (answers ++ (P.connected ++ upstream target))
  /-- every handshake can be served -/
  served : ∀ answers target rest, IsHandshake answers target rest →
    ∃ es c, run Conn.step (.reading : Conn P client upstream) es = some c ∧
      c.dialed = some target ∧ c.upStage = some (.closed true) ∧
        c.downStage = some (.closed true) ∧ c.toTarget = rest ∧
          c.toClient = answers ++ (P.connected ++ upstream target)

/-- **Tunnels.**  A protocol that accepts exactly the handshakes tunnels behind them. -/
theorem tunnels_of_accept {P : Protocol ε} {client : Bytes}
    {IsHandshake : Bytes → String → Bytes → Prop}
    (h : ∀ answers target rest, P.accept client = (answers, some (target, rest)) ↔
      IsHandshake answers target rest) (upstream : String → Bytes) :
    Tunnels P client upstream IsHandshake := by
  refine ⟨fun _ c _ hnone => ?_, fun _ c _ target htarget => ?_,
    fun answers target rest hshake => ?_⟩
  · exact c.refused_of_accepted (Option.map_eq_none_iff.mp hnone)
  · obtain ⟨a, ha, rfl⟩ := Option.map_eq_some_iff.mp htarget
    exact ⟨_, a.rest, (h _ _ _).mp (Prod.ext rfl a.accepted), c.faithful_of_accepted ha,
      c.completes_of_accepted ha⟩
  · have haccept := (h answers target rest).mpr hshake
    obtain ⟨es, c, hserved⟩ :=
      Conn.exists_served upstream ⟨target, rest, congrArg Prod.snd haccept⟩
    rw [congrArg Prod.fst haccept] at hserved
    exact ⟨es, c, hserved⟩

end Ruproxy.Foundation.Tunnel
