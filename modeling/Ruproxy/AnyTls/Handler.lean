/-
  AnyTls/Handler.lean --- `handle_stream`, from the SYN of its stream to the drop of the
  `StreamConn`.

  It reads the address of the stream, connects to the server and relays.  Only the
  downlink of the relay sends the FIN frame of the stream, so that the returns before the
  relay leave the client with a stream that nobody serves.

  Until the relay starts, `relay` holds the stream and the write channel, with both halves
  at their start.
-/
import Ruproxy.AnyTls.Framing

set_option autoImplicit false

namespace Ruproxy.AnyTls

open Ruproxy.Foundation Ruproxy.Foundation.Transition Ruproxy.Address

/-! ## The handler -/

/-- Why `handle_stream` fails. -/
inductive StreamError where
  | addr (e : AddrError)
  /-- `anyhow!` -/
  | anyhow (msg : String)
  /-- the error of `TcpStream::connect` -/
  | io
  deriving DecidableEq

/-- Where `handle_stream` is. -/
inductive Phase where
  /-- in `read_socks5_addr`, with the bytes that it has taken so far -/
  | addressing (taken : Bytes)
  /-- in `TcpStream::connect` -/
  | connecting (target : String)
  /-- in the `join!` -/
  | relaying
  /-- it has returned, and the `StreamConn` is dropped -/
  | returned (result : Except StreamError Unit)

/-- It has returned. -/
def Phase.isReturned : Phase → Bool
  | .returned _ => true
  | _ => false

/-- What becomes of a `TcpStream::connect` with a timeout. -/
inductive Connect where
  | connected
  | failed
  | timedOut
  deriving DecidableEq

/-- A `handle_stream` and the write channel of its session. -/
structure Handler where
  phase : Phase
  relay : Relay

/-- What happens next. -/
inductive HandlerEvent where
  /-- `read_socks5_addr` goes on with the chunks there are -/
  | address
  | connect (outcome : Connect)
  /-- both halves of the `join!` are done -/
  | join
  /-- a step of the relay, of the session loop or of the writer task -/
  | relay (e : Event)

/-- What can happen while `handle_stream` does not relay. -/
def Phase.admits : Phase → Event → Bool
  | .relaying, _ => true
  | _, .otherFrame _ | _, .write | _, .writerBreaks => true
  | .addressing _, .push _ | .addressing _, .fin | .addressing _, .replaced => true
  | .connecting _, .push _ | .connecting _, .fin | .connecting _, .replaced => true
  | _, _ => false

namespace Handler

/-- A stream that was just opened. -/
def start (streamId : UInt32) (writeChannel : List Frame) (writerAlive : Bool) : Handler where
  phase := .addressing []
  relay := Relay.start streamId ⟨[], true, []⟩ writeChannel writerAlive

/-- One step; `none` where the event cannot happen. -/
def step (s : Handler) : HandlerEvent → Option Handler
  | .address =>
      match s.phase with
      | .addressing taken =>
          let conn := { s.relay.conn with buf := taken ++ s.relay.conn.buf }
          match OnStream.readSocks5Addr.run conn with
          | none =>
              some { s with
                phase := .addressing conn.held
                relay := { s.relay with conn := { s.relay.conn with rx := [], buf := [] } } }
          | some (.ok target, conn) =>
              some { s with
                phase := .connecting target
                relay := { s.relay with conn := conn } }
          | some (.error e, conn) =>
              some { s with
                phase := .returned (.error (.addr e))
                relay := { s.relay with conn := conn } }
      | _ => none
  | .connect outcome =>
      match s.phase with
      | .connecting target =>
          match outcome with
          | .connected =>
              some { s with
                phase := .relaying
                relay := Relay.start s.relay.streamId s.relay.conn s.relay.writeChannel
                  s.relay.writerAlive }
          | .failed => some { s with phase := .returned (.error .io) }
          | .timedOut =>
              some { s with
                phase := .returned (.error (.anyhow ("connect timeout: " ++ target))) }
      | _ => none
  | .join =>
      match s.phase, s.relay.uplink, s.relay.downlink with
      | .relaying, .done, .done => some { s with phase := .returned (.ok ()) }
      | _, _, _ => none
  | .relay e =>
      if s.phase.admits e then (s.relay.step e).map fun relay => { s with relay := relay }
      else none

/-! ## The property -/

/-- When it has returned with the write channel open, the FIN of its stream was queued. -/
def FinOnReturn (s : Handler) : Prop :=
  s.phase.isReturned = true → s.relay.writerAlive = true →
    ⟨cmdFin, s.relay.streamId, []⟩ ∈ s.relay.queued

instance (s : Handler) : Decidable s.FinOnReturn :=
  inferInstanceAs (Decidable (_ → _ → _))

/-- It does not return before the relay while the write channel is open: the address is
read without an error and the connect succeeds. -/
def GetsToRelay (s : Handler) : HandlerEvent → Prop
  | .address =>
      match s.phase with
      | .addressing taken =>
          s.relay.writerAlive = true →
            ∀ e conn, OnStream.readSocks5Addr.run
              { s.relay.conn with buf := taken ++ s.relay.conn.buf } ≠ some (.error e, conn)
      | _ => True
  | .connect outcome => s.relay.writerAlive = true → outcome = .connected
  | _ => True

end Handler

/-! ## The relay sends the FIN -/

namespace Relay

/-- What a step does to the frames of the stream: none is queued and the downlink is not
done by it, unless the writer task is gone; or one is queued, and it is the FIN when the
downlink is done. -/
theorem step_queued {s s' : Relay} {e : Event} (h : s.step e = some s') :
    s'.streamId = s.streamId ∧ (s'.writerAlive = true → s.writerAlive = true) ∧
      ((s'.queued = s.queued ∧
          (s'.downlink = .done → s.downlink = .done ∨ s'.writerAlive = false)) ∨
        ∃ f, s'.queued = s.queued ++ [f] ∧
          (s'.downlink = .done → f = ⟨cmdFin, s.streamId, []⟩)) := by
  cases e with
  | push data | fin | otherFrame f =>
    simp only [step] at h
    split at h
    · cases h
      exact ⟨rfl, id, .inl ⟨rfl, .inl⟩⟩
    · cases h
  | replaced =>
    cases h
    exact ⟨rfl, id, .inl ⟨rfl, .inl⟩⟩
  | writerBreaks =>
    cases h
    exact ⟨rfl, (nomatch ·), .inl ⟨rfl, fun _ => .inr rfl⟩⟩
  | write =>
    simp only [step] at h
    split at h
    · split at h
      · cases h
        exact ⟨rfl, id, .inl ⟨rfl, .inl⟩⟩
      · cases h
    · cases h
  | locked half =>
    cases half with
    | up =>
      simp only [step] at h
      split at h
      · cases h
        exact ⟨rfl, id, .inl ⟨rfl, .inl⟩⟩
      · cases h
    | down =>
      simp only [step] at h
      split at h
      · split at h
        case h_3 => cases h
        all_goals
          cases h
          exact ⟨rfl, id, .inl ⟨rfl, fun hdone => by cases hdone⟩⟩
      · cases h
  | upRead =>
    simp only [step] at h
    split at h
    · split at h
      case h_1 => cases h
      all_goals
        cases h
        exact ⟨rfl, id, .inl ⟨rfl, .inl⟩⟩
    · cases h
  | upWritten ok =>
    simp only [step] at h
    split at h
    · split at h
      all_goals
        cases h
        exact ⟨rfl, id, .inl ⟨rfl, .inl⟩⟩
    · cases h
  | upShutdown =>
    simp only [step] at h
    split at h
    · cases h
      exact ⟨rfl, id, .inl ⟨rfl, .inl⟩⟩
    · cases h
  | downRead data =>
    simp only [step] at h
    split at h
    · split at h
      · split at h
        · cases h
          exact ⟨rfl, id, .inl ⟨rfl, fun hdone => by cases hdone⟩⟩
        · cases h
      · cases h
        exact ⟨rfl, id, .inl ⟨rfl, fun hdone => by cases hdone⟩⟩
    · cases h
  | downSent =>
    simp only [step] at h
    split at h
    · -- PSH
      split at h
      · cases h
        exact ⟨rfl, id, .inl ⟨rfl, fun hdone => by cases hdone⟩⟩
      · split at h
        · cases h
          exact ⟨rfl, id, .inr ⟨_, rfl, fun hdone => by cases hdone⟩⟩
        · cases h
    · -- FIN
      split at h
      · rename_i hgone
        cases h
        exact ⟨rfl, id, .inl ⟨rfl, fun _ => .inr hgone⟩⟩
      · split at h
        · cases h
          exact ⟨rfl, id, .inr ⟨_, rfl, fun _ => rfl⟩⟩
        · cases h
    · cases h

/-- The downlink is not done before the FIN is queued, as long as the write channel is
open. -/
def FinWhenDone (s : Relay) : Prop :=
  s.downlink = .done → s.writerAlive = true → ⟨cmdFin, s.streamId, []⟩ ∈ s.queued

theorem finWhenDone_start (streamId : UInt32) (conn : StreamConn) (writeChannel : List Frame)
    (writerAlive : Bool) : (start streamId conn writeChannel writerAlive).FinWhenDone := by
  intro hdone
  cases hdone

theorem FinWhenDone.step {s s' : Relay} {e : Event} (hs : s.FinWhenDone)
    (h : s.step e = some s') : s'.FinWhenDone := by
  intro hdone halive
  obtain ⟨hid, hback, ⟨hqueued, hbefore⟩ | ⟨f, hqueued, hfin⟩⟩ := step_queued h
  · rw [hid, hqueued]
    rcases hbefore hdone with hdone' | hgone
    · exact hs hdone' (hback halive)
    · rw [hgone] at halive
      cases halive
  · rw [hid, hqueued, hfin hdone]
    exact List.mem_append_right _ List.mem_cons_self

/-- The session loop and the writer task queue nothing for the stream. -/
theorem queued_of_admits {s s' : Relay} {e : Event} {phase : Phase}
    (hphase : phase ≠ .relaying) (hadmits : phase.admits e = true) (h : s.step e = some s') :
    s'.queued = s.queued := by
  cases e with
  | push | fin | otherFrame =>
    simp only [Relay.step] at h
    split at h
    · cases h
      rfl
    · cases h
  | replaced | writerBreaks =>
    cases h
    rfl
  | write =>
    simp only [Relay.step] at h
    split at h
    · split at h
      · cases h
        rfl
      · cases h
    · cases h
  | _ =>
    cases phase with
    | relaying => exact absurd rfl hphase
    | _ => cases hadmits

end Relay

namespace Handler

/-! ## Every run -/

/-- Before the relay nothing is queued, and the relay is done with its FIN. -/
structure Inv (s : Handler) : Prop where
  early : (∃ taken, s.phase = .addressing taken) ∨ (∃ target, s.phase = .connecting target) →
    s.relay.queued = []
  relaying : s.phase = .relaying → s.relay.FinWhenDone

theorem inv_start (streamId : UInt32) (writeChannel : List Frame) (writerAlive : Bool) :
    (start streamId writeChannel writerAlive).Inv where
  early _ := rfl
  relaying h := by cases h

theorem preserves_inv : Preserves step (fun _ _ => True) Inv := by
  intro s e s' hs _ h
  cases e with
  | address =>
    simp only [step] at h
    split at h
    · rename_i taken hphase
      have hnil := hs.early (.inl ⟨taken, hphase⟩)
      split at h
      all_goals
        cases h
        exact ⟨fun _ => hnil, fun hrelay => by cases hrelay⟩
    · cases h
  | connect outcome =>
    simp only [step] at h
    split at h
    · rename_i target hphase
      cases outcome with
      | connected =>
        cases h
        exact ⟨fun _ => rfl, fun _ => Relay.finWhenDone_start _ _ _ _⟩
      | failed | timedOut =>
        cases h
        exact ⟨fun hor => by simp at hor, fun hrelay => by cases hrelay⟩
    · cases h
  | join =>
    simp only [step] at h
    split at h
    · cases h
      exact ⟨fun hor => by simp at hor, fun hrelay => by cases hrelay⟩
    · cases h
  | relay e =>
    simp only [step] at h
    split at h
    · rename_i hadmits
      obtain ⟨relay, hstep, rfl⟩ := Option.map_eq_some_iff.mp h
      refine ⟨fun hor => ?_, fun hrelay => (hs.relaying hrelay).step hstep⟩
      have hphase : s.phase ≠ .relaying := by
        rintro hrelaying
        simp [hrelaying] at hor
      exact (Relay.queued_of_admits hphase hadmits hstep).trans (hs.early hor)
    · cases h

/-- A return before the relay is good exactly if the write channel is closed. -/
theorem finOnReturn_early_iff {result : Except StreamError Unit} {relay : Relay}
    (hnil : relay.queued = []) :
    FinOnReturn ⟨.returned result, relay⟩ ↔ relay.writerAlive = false := by
  constructor
  · intro hfin
    rw [← Bool.not_eq_true]
    intro halive
    have hmem := hfin rfl halive
    rw [hnil] at hmem
    cases hmem
  · intro hgone _ halive
    rw [hgone] at halive
    cases halive

/-- **Step.**  The handler has returned only with its FIN queued, exactly if the step does
not end it before the relay. -/
theorem finOnReturn_step_iff {s s' : Handler} {e : HandlerEvent} (hs : s.Inv)
    (hgood : s.FinOnReturn) (h : s.step e = some s') : s'.FinOnReturn ↔ s.GetsToRelay e := by
  cases e with
  | address =>
    simp only [step] at h
    split at h
    · rename_i taken hphase
      have hnil := hs.early (.inl ⟨taken, hphase⟩)
      simp only [GetsToRelay, hphase]
      split at h
      · rename_i hrun
        cases h
        refine iff_of_true (fun hreturned => by cases hreturned) fun _ e conn => ?_
        rw [hrun]
        exact Option.some_ne_none _ |>.symm
      · rename_i target conn hrun
        cases h
        refine iff_of_true (fun hreturned => by cases hreturned) fun _ e conn => ?_
        rw [hrun]
        simp
      · rename_i e conn hrun
        cases h
        have hnil' : ({ s.relay with conn := conn } : Relay).queued = [] := hnil
        rw [finOnReturn_early_iff hnil']
        refine ⟨fun hgone halive => ?_, fun hok => ?_⟩
        · rw [hgone] at halive
          cases halive
        · exact Bool.eq_false_iff.mpr fun halive => hok halive e conn hrun
    · cases h
  | connect outcome =>
    simp only [step] at h
    split at h
    · rename_i target hphase
      have hnil := hs.early (.inr ⟨target, hphase⟩)
      cases outcome with
      | connected =>
        cases h
        exact iff_of_true (fun hreturned => by cases hreturned) fun _ => rfl
      | failed | timedOut =>
        cases h
        rw [finOnReturn_early_iff hnil]
        simp [GetsToRelay]
    · cases h
  | join =>
    simp only [step] at h
    split at h
    · rename_i hphase _ hdone
      cases h
      exact iff_of_true (fun _ halive => hs.relaying hphase hdone halive) trivial
    · cases h
  | relay e =>
    simp only [step] at h
    split at h
    · rename_i hadmits
      obtain ⟨relay, hstep, rfl⟩ := Option.map_eq_some_iff.mp h
      refine iff_of_true (fun hreturned halive => ?_) trivial
      obtain ⟨hid, hback, hqueued⟩ := Relay.step_queued hstep
      have hmem := hgood hreturned (hback halive)
      rcases hqueued with ⟨hsame, -⟩ | ⟨f, hmore, -⟩
      · change _ ∈ relay.queued
        rw [hsame]
        simpa only [hid] using hmem
      · change _ ∈ relay.queued
        rw [hmore]
        apply List.mem_append_left
        simpa only [hid] using hmem
    · cases h

/-- **FIN.**  In a run of a stream, whatever its client, its server and its session do,
the handler has returned only with the FIN queued or the write channel closed, exactly if
it never returns before the relay while the write channel is open. -/
theorem finOnReturn_iff_getsToRelay {streamId : UInt32} {writeChannel : List Frame}
    {writerAlive : Bool} {es : List HandlerEvent} {s : Handler}
    (h : run step (start streamId writeChannel writerAlive) es = some s) :
    Always step FinOnReturn (start streamId writeChannel writerAlive) es ↔
      Every step GetsToRelay (start streamId writeChannel writerAlive) es := by
  refine always_iff_every preserves_inv (fun hinv hgood hstep => ?_)
    (inv_start streamId writeChannel writerAlive) ?_ h
  · exact finOnReturn_step_iff hinv hgood hstep
  · intro hreturned
    cases hreturned

/-- 127.0.0.1:80, a server that closes at once, and the FIN frame of the client. -/
def relayToEnd : List HandlerEvent :=
  [.relay (.push [1, 127, 0, 0]), .address, .relay (.push [1, 0, 80]), .address,
    .connect .connected, .relay (.locked .up), .relay (.downRead none), .relay .fin,
    .relay .upRead, .relay .upShutdown, .relay (.locked .down), .relay .downSent, .join]

theorem finOnReturn_iff_getsToRelay_relayToEnd : ∃ s,
    run step (start 1 [] true) relayToEnd = some s ∧
    (Always step FinOnReturn (start 1 [] true) relayToEnd ↔
      Every step GetsToRelay (start 1 [] true) relayToEnd) := by
  obtain ⟨s, hs⟩ : ∃ s, run step (start 1 [] true) relayToEnd = some s :=
    Option.isSome_iff_exists.mp (by decide +kernel)
  exact ⟨s, hs, finOnReturn_iff_getsToRelay hs⟩

/-- **No FIN.**  An address of an unknown type: the handler has returned, with the write
channel open and nothing queued. -/
theorem not_finOnReturn_unknownType : ∃ s,
    run step (start 1 [] true) [.relay (.push [2]), .address] = some s ∧ ¬ s.FinOnReturn := by
  have hrun : (run step (start 1 [] true) [.relay (.push [2]), .address]).map
      (fun s => decide s.FinOnReturn) = some false := by
    decide +kernel
  obtain ⟨s, hs, hnot⟩ := Option.map_eq_some_iff.mp hrun
  exact ⟨s, hs, of_decide_eq_false hnot⟩

end Handler

end Ruproxy.AnyTls
