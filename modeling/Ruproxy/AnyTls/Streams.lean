/-
  AnyTls/Streams.lean --- what `handle_stream` does with the bytes of its stream.

  Whatever it reads comes from the front of the stream: first the address, whose target it
  connects to, and behind that the bytes for the target.  What it queues is what the target
  sent, in PSH frames, and at the end of that a FIN.

  A `Record` is not in the source.  It tells what the task has done so far: the target it has
  connected to, the bytes given to `out_w.write_all`, and the bytes that `out_r.read` returned.
-/
import Ruproxy.Address.Agreement
import Ruproxy.Address.Grammar
import Ruproxy.AnyTls.Handler

set_option autoImplicit false

namespace Ruproxy.AnyTls

open Ruproxy.Foundation Ruproxy.Address

/-! ## Reading an address from a stream -/

theorem StreamConn.length_le_of_read {s s' : StreamConn} {len : Nat} {out : Bytes}
    (h : s.read len = some (out, s')) : out.length ≤ len := by
  rcases read_cases h with ⟨-, rfl, -⟩ | ⟨data, rx, -, -, rfl, -⟩ | ⟨-, -, -, rfl, -⟩
  · exact List.length_take_le _ _
  · exact List.length_take_le _ _
  · exact Nat.zero_le _

namespace OnStream

variable {α β : Type}

/-- Parsers one after another. -/
def andThen (parse : Bytes → Option (α × Bytes)) (parse' : α → Bytes → Option (β × Bytes))
    (b : Bytes) : Option (β × Bytes) :=
  (parse b).bind fun r => parse' r.1 r.2

/-- A call takes what it reads from the front of the stream; where it succeeds, that is what
the parser takes. -/
def Reads (x : OnStream α) (parse : Bytes → Option (α × Bytes)) : Prop :=
  ∀ s r s', x.run s = some (r, s') → ∃ out, out ++ s'.held = s.held ∧
    ∀ a, r = .ok a → ∀ rest, parse (out ++ rest) = some (a, rest)

theorem reads_pure (a : α) : Reads (pure a) fun b => some (a, b) := by
  intro s r s' h
  cases h
  exact ⟨[], rfl, fun a' ha rest => by cases ha; rfl⟩

theorem reads_throw (e : AddrError) (parse : Bytes → Option (α × Bytes)) :
    Reads (throw e) parse := by
  intro s r s' h
  cases h
  exact ⟨[], rfl, fun a' ha => nomatch ha⟩

/-- Calls one after another. -/
theorem Reads.bind {x : OnStream α} {parse : Bytes → Option (α × Bytes)} (hx : Reads x parse)
    {f : α → OnStream β} {parse' : α → Bytes → Option (β × Bytes)}
    (hf : ∀ a, Reads (f a) (parse' a)) :
    Reads (x >>= f) (andThen parse parse') := by
  intro s r s' h
  rw [run_bind] at h
  obtain ⟨⟨r₁, s₁⟩, hx₁, hrest⟩ := Option.bind_eq_some_iff.mp h
  obtain ⟨out, hheld, hparse⟩ := hx s r₁ s₁ hx₁
  cases r₁ with
  | error e =>
    cases hrest
    exact ⟨out, hheld, fun a ha => nomatch ha⟩
  | ok a =>
    obtain ⟨out', hheld', hparse'⟩ := hf a s₁ r s' hrest
    refine ⟨out ++ out', by rw [List.append_assoc, hheld', hheld], fun b hb rest => ?_⟩
    rw [andThen, List.append_assoc, hparse a rfl, Option.bind_some]
    exact hparse' b hb rest

theorem reads_readExactFrom (n : Nat) : Reads (readExactFrom n) (readExact n) := by
  induction n using Nat.strongRecOn with
  | ind n ih =>
    intro s r s' h
    rw [readExactFrom] at h
    split at h
    · rename_i hn
      subst hn
      cases h
      exact ⟨[], rfl, fun a ha rest => by cases ha; rfl⟩
    rw [run_bind, run_read] at h
    obtain ⟨⟨r₁, s₁⟩, hcall, hrest⟩ := Option.bind_eq_some_iff.mp h
    obtain ⟨⟨out, s₂⟩, hread, heq⟩ := Option.map_eq_some_iff.mp hcall
    cases heq
    obtain ⟨hheld, -, -⟩ := StreamConn.read_takes hread
    cases out with
    | nil =>
      cases hrest
      exact ⟨[], hheld, fun a ha => by cases ha⟩
    | cons b bs =>
      have hle := StreamConn.length_le_of_read hread
      have hlt : n - (b :: bs).length < n := by
        rw [List.length_cons] at hle ⊢
        omega
      have hmore := (ih _ hlt).bind fun rest => reads_pure (b :: bs ++ rest)
      obtain ⟨out', hheld', hparse⟩ := hmore s₂ r s' hrest
      refine ⟨b :: bs ++ out', by rw [List.append_assoc, hheld', hheld], fun a ha rest => ?_⟩
      obtain ⟨⟨more, rest'⟩, hmore, heq⟩ := Option.bind_eq_some_iff.mp (hparse a ha rest)
      obtain ⟨hout, hlen⟩ := readExact_eq_some.mp hmore
      cases heq
      rw [List.append_assoc, hout, ← List.append_assoc]
      refine readExact_append ?_ rest'
      rw [List.length_append, hlen]
      omega

theorem reads_readSocks5Host (atyp : UInt8) : Reads (readSocks5Host atyp) (host atyp) := by
  have harray : ∀ (n : Nat) (f : Bytes → String),
      Reads (readExactFrom n >>= fun b => pure (f b)) fun b =>
        (readExact n b).map fun r => (f r.1, r.2) := by
    intro n f
    have h := (reads_readExactFrom n).bind fun b => reads_pure (f b)
    have hparse : andThen (readExact n) (fun b rest => some (f b, rest)) =
        fun b => (readExact n b).map fun r => (f r.1, r.2) := by
      funext b
      rw [andThen, Option.map_eq_bind]
      rfl
    rwa [hparse] at h
  unfold readSocks5Host
  split
  · rename_i h1
    subst h1
    exact harray 4 ipv4Text
  split
  · rename_i h3
    subst h3
    have hdomain : host 3 = andThen (readExact 1) fun lb =>
        andThen (readExact (lb.getD 0 0).toNat) fun b rest =>
          (fromUtf8 b).map fun d => (d, rest) := funext host_domain
    rw [hdomain]
    refine (reads_readExactFrom 1).bind fun lb => ?_
    refine (reads_readExactFrom _).bind fun b => ?_
    cases fromUtf8 b with
    | none => exact reads_throw _ _
    | some d => exact reads_pure d
  split
  · rename_i h4
    subst h4
    exact harray 16 ipv6Text
  · exact reads_throw _ _

/-- What `read_socks5_addr` takes is an address. -/
theorem reads_readSocks5Addr : Reads readSocks5Addr target := by
  have htarget : target = andThen (readExact 1) fun atyp =>
      andThen (host (atyp.getD 0 0)) fun h =>
        andThen (readExact 2) fun pb rest =>
          some (hostPort h (u16OfBe (pb.getD 0 0) (pb.getD 1 0)), rest) := by
    funext b
    cases b with
    | nil => rfl
    | cons atyp b =>
      rw [target, andThen, readExact_one, Option.bind_some, andThen, List.getD_cons_zero]
      cases host atyp b with
      | none => rfl
      | some r =>
        rw [Option.bind_some, andThen, readExact_two]
        rcases r with ⟨h, _ | ⟨p, _ | ⟨q, rest⟩⟩⟩
        · rfl
        · rfl
        · rfl
  rw [htarget]
  refine (reads_readExactFrom 1).bind fun atyp => ?_
  refine (reads_readSocks5Host _).bind fun host => ?_
  exact (reads_readExactFrom 2).bind fun pb => reads_pure _

end OnStream

/-- The bytes are an address and a port that name the target. -/
def IsAddress (head : Bytes) (t : String) : Prop :=
  ∃ (a : SocksAddr) (port : UInt16), head = a.bytes ++ u16ToBe port ∧ hostPort a.host port = t

/-- A target that is read from a stream stands at its front. -/
theorem isAddress_of_readSocks5Addr {s s' : StreamConn} {t : String}
    (h : OnStream.readSocks5Addr.run s = some (.ok t, s')) :
    ∃ head, IsAddress head t ∧ head ++ s'.held = s.held := by
  obtain ⟨out, hheld, htarget⟩ := OnStream.reads_readSocks5Addr s _ s' h
  obtain ⟨a, port, hout, ht⟩ := target_eq_some_iff.mp (htarget t rfl [])
  refine ⟨out, ⟨a, port, ?_, ht⟩, hheld⟩
  rw [List.append_nil, List.append_nil] at hout
  exact hout.symm

/-! ## What the task has done -/

/-- What a `handle_stream` has done. -/
structure Record where
  dialed : Option String
  toTarget : Bytes
  fromTarget : Bytes

namespace Record

/-- Nothing yet. -/
def start : Record := ⟨none, [], []⟩

/-- The record behind an event that leads to `h`. -/
def after (r : Record) (e : HandlerEvent) (h : Handler) : Record where
  dialed :=
    match h.phase with
    | .connecting target => some target
    | _ => r.dialed
  toTarget :=
    match e, h.relay.uplink with
    | .relay .upRead, .writing data => r.toTarget ++ data
    | _, _ => r.toTarget
  fromTarget :=
    match e with
    | .relay (.downRead (some data)) => r.fromTarget ++ data
    | _ => r.fromTarget

section
variable {r : Record} {e : HandlerEvent} {h : Handler}

theorem toTarget_after_of_ne (he : e ≠ .relay .upRead) : (r.after e h).toTarget = r.toTarget := by
  unfold after
  dsimp only
  split
  · exact absurd rfl he
  · rfl

theorem toTarget_after_upRead {data : Bytes}
    (hup : (data = [] ∧ h.relay.uplink = .closing) ∨ h.relay.uplink = .writing data) :
    (r.after (.relay .upRead) h).toTarget = r.toTarget ++ data := by
  unfold after
  dsimp only
  rcases hup with ⟨rfl, hup⟩ | hup
  · rw [hup, List.append_nil]
  · rw [hup]

end

end Record

/-- The event is one of the task, not of the session loop or of the writer task. -/
def HandlerEvent.isOwn : HandlerEvent → Bool
  | .relay (.push _) | .relay .fin | .relay .replaced => false
  | .relay (.otherFrame _) | .relay .write | .relay .writerBreaks => false
  | _ => true

/-! ## The uplink -/

namespace Relay

/-- Only the `read` of the uplink takes something from the stream. -/
theorem step_conn {s s' : Relay} {e : Event} (h : s.step e = some s')
    (hown : (HandlerEvent.relay e).isOwn = true) :
    (e ≠ .upRead ∧ s'.conn = s.conn) ∨
      ∃ data, e = .upRead ∧ s.conn.read bufferSize = some (data, s'.conn) ∧
        ((data = [] ∧ s'.uplink = .closing) ∨ s'.uplink = .writing data) := by
  cases e with
  | push | fin | replaced | otherFrame | write | writerBreaks => cases hown
  | upRead =>
    simp only [step] at h
    split at h
    case h_2 => cases h
    split at h
    · cases h
    · rename_i hread
      cases h
      exact .inr ⟨[], rfl, hread, .inl ⟨rfl, rfl⟩⟩
    · rename_i data conn _ hread
      cases h
      exact .inr ⟨data, rfl, hread, .inr rfl⟩
  | locked half =>
    refine .inl ⟨Event.noConfusion, ?_⟩
    cases half with
    | up =>
      simp only [step] at h
      split at h
      · cases h
        rfl
      · cases h
    | down =>
      simp only [step] at h
      repeat' split at h
      all_goals first
        | contradiction
        | obtain rfl := Option.some.inj h
          rfl
  | upWritten ok | upShutdown | downRead data | downSent =>
    refine .inl ⟨Event.noConfusion, ?_⟩
    simp only [step] at h
    repeat' split at h
    all_goals first
      | contradiction
      | obtain rfl := Option.some.inj h
        rfl

end Relay

/-- The relay moves only in its phase. -/
theorem Phase.eq_relaying_of_admits {phase : Phase} {e : Event} (hadmits : phase.admits e = true)
    (hown : (HandlerEvent.relay e).isOwn = true) : phase = .relaying := by
  cases phase with
  | relaying => rfl
  | addressing | connecting | returned =>
    cases e with
    | push | fin | replaced | otherFrame | write | writerBreaks => cases hown
    | locked | upRead | upWritten | upShutdown | downRead | downSent => cases hadmits

namespace Handler

/-- `took` is what the task has read from its stream. -/
structure Took (s : Handler) (r : Record) (took : Bytes) : Prop where
  addressing : ∀ taken, s.phase = .addressing taken → r.dialed = none ∧ taken = took
  connecting : ∀ target, s.phase = .connecting target → r.dialed = some target
  relaying : s.phase = .relaying → r.dialed ≠ none
  quiet : r.dialed = none → r.toTarget = []
  dialed : ∀ target, r.dialed = some target →
    ∃ head, IsAddress head target ∧ took = head ++ r.toTarget

theorem took_start (streamId : UInt32) (writeChannel : List Frame) (writerAlive : Bool) :
    (start streamId writeChannel writerAlive).Took .start [] where
  addressing taken h := by
    cases h
    exact ⟨rfl, rfl⟩
  connecting _ h := nomatch h
  relaying h := nomatch h
  quiet _ := rfl
  dialed _ h := nomatch h

/-- A task that has returned took what it took before. -/
theorem Took.returned {s s' : Handler} {r : Record} {took took' : Bytes}
    {result : Except StreamError Unit} (h : s.Took r took) (hphase : s'.phase = .returned result)
    (hdialed : ∀ target, r.dialed = some target →
      ∃ head, IsAddress head target ∧ took' = head ++ r.toTarget) : s'.Took r took' where
  addressing _ heq := Phase.noConfusion (hphase.symm.trans heq)
  connecting _ heq := Phase.noConfusion (hphase.symm.trans heq)
  relaying heq := Phase.noConfusion (hphase.symm.trans heq)
  quiet := h.quiet
  dialed := hdialed

/-- **Uplink.**  What an event of the task reads comes from the front of its stream. -/
theorem Took.step {s s' : Handler} {e : HandlerEvent} {r : Record} {took : Bytes}
    (h : s.Took r took) (hown : e.isOwn = true) (hstep : s.step e = some s') :
    ∃ took', s'.Took (r.after e s') took' ∧
      took' ++ s'.relay.conn.held = took ++ s.relay.conn.held := by
  cases e with
  | address =>
    simp only [Handler.step] at hstep
    split at hstep
    case h_2 => cases hstep
    rename_i taken hphase
    obtain ⟨hnone, rfl⟩ := h.addressing taken hphase
    have hheld : ({ s.relay.conn with buf := taken ++ s.relay.conn.buf } : StreamConn).held =
        taken ++ s.relay.conn.held := List.append_assoc _ _ _
    split at hstep
    · -- it waits, with all that there is
      obtain rfl := Option.some.inj hstep
      refine ⟨taken ++ s.relay.conn.held, ⟨fun taken' heq => ?_, fun _ heq => ?_, fun heq => ?_,
        h.quiet, ?_⟩, List.append_nil _⟩
      · cases heq
        exact ⟨hnone, hheld⟩
      · cases heq
      · cases heq
      · intro target htarget
        exact absurd (htarget.symm.trans hnone) (Option.some_ne_none _)
    · rename_i target conn hrun
      obtain rfl := Option.some.inj hstep
      obtain ⟨head, haddress, hsplit⟩ := isAddress_of_readSocks5Addr hrun
      refine ⟨head, ⟨fun _ heq => ?_, fun target' heq => ?_, fun heq => ?_, ?_, ?_⟩,
        hsplit.trans hheld⟩
      · cases heq
      · cases heq
        rfl
      · cases heq
      · intro hnone'
        cases hnone'
      · intro target' heq
        obtain rfl : target = target' := Option.some.inj heq
        refine ⟨head, haddress, ?_⟩
        rw [Record.toTarget_after_of_ne HandlerEvent.noConfusion, h.quiet hnone, List.append_nil]
    · rename_i e conn hrun
      obtain rfl := Option.some.inj hstep
      obtain ⟨out, hsplit, -⟩ := OnStream.reads_readSocks5Addr _ _ _ hrun
      refine ⟨out, h.returned rfl fun target htarget => ?_, hsplit.trans hheld⟩
      exact absurd (htarget.symm.trans hnone) (Option.some_ne_none _)
  | connect outcome =>
    simp only [Handler.step] at hstep
    split at hstep
    case h_2 => cases hstep
    rename_i target hphase
    have hdialed := h.connecting target hphase
    have hsome : r.dialed ≠ none := fun hnone => by
      rw [hdialed] at hnone
      cases hnone
    cases outcome with
    | connected | failed | timedOut =>
      obtain rfl := Option.some.inj hstep
      refine ⟨took, ⟨fun _ heq => ?_, fun _ heq => ?_, fun _ => hsome, h.quiet, h.dialed⟩, rfl⟩
      · cases heq
      · cases heq
  | join =>
    simp only [Handler.step] at hstep
    split at hstep
    · obtain rfl := Option.some.inj hstep
      exact ⟨took, h.returned rfl h.dialed, rfl⟩
    · cases hstep
  | relay e =>
    simp only [Handler.step] at hstep
    split at hstep
    case isFalse => cases hstep
    rename_i hadmits
    obtain ⟨relay, hrelay, rfl⟩ := Option.map_eq_some_iff.mp hstep
    -- the phase stays, and names no other target
    have hdialed : (r.after (.relay e) { s with relay := relay }).dialed = r.dialed := by
      unfold Record.after
      dsimp only
      split
      · rename_i target hphase
        exact (h.connecting target hphase).symm
      · rfl
    rcases Relay.step_conn hrelay hown with ⟨hne, hconn⟩ | ⟨data, rfl, hread, hup⟩
    · have hup : (r.after (.relay e) { s with relay := relay }).toTarget = r.toTarget :=
        Record.toTarget_after_of_ne fun heq => hne (HandlerEvent.relay.inj heq)
      refine ⟨took, ⟨?_, ?_, ?_, ?_, ?_⟩, ?_⟩
      · rw [hdialed]
        exact h.addressing
      · rw [hdialed]
        exact h.connecting
      · rw [hdialed]
        exact h.relaying
      · rw [hdialed, hup]
        exact h.quiet
      · rw [hdialed, hup]
        exact h.dialed
      · dsimp only
        rw [hconn]
    · have hphase := Phase.eq_relaying_of_admits hadmits hown
      have htarget := @Record.toTarget_after_upRead r { s with relay := relay } data hup
      obtain ⟨hheld, -, -⟩ := StreamConn.read_takes hread
      refine ⟨took ++ data, ⟨?_, ?_, ?_, ?_, ?_⟩, ?_⟩
      · intro taken heq
        rw [hphase] at heq
        cases heq
      · intro target heq
        rw [hphase] at heq
        cases heq
      · rw [hdialed]
        exact h.relaying
      · rw [hdialed]
        exact fun hnone => absurd hnone (h.relaying hphase)
      · intro target heq
        rw [hdialed] at heq
        obtain ⟨head, haddress, rfl⟩ := h.dialed target heq
        refine ⟨head, haddress, ?_⟩
        rw [htarget, List.append_assoc]
      · rw [List.append_assoc, hheld]

end Handler

/-! ## The downlink -/

/-- PSH frames with these data. -/
def pushes (sid : UInt32) (chunks : List Bytes) : List Frame := chunks.map (⟨cmdPsh, sid, ·⟩)

theorem pushes_snoc (sid : UInt32) (chunks : List Bytes) (data : Bytes) :
    pushes sid (chunks ++ [data]) = pushes sid chunks ++ [⟨cmdPsh, sid, data⟩] := List.map_append

namespace Relay

/-- What is queued is what the target sent, up to what the downlink holds, and the end is only
behind all of it. -/
def Sent (s : Relay) (fromTarget : Bytes) : Prop :=
  ∃ chunks : List Bytes,
    match s.downlink with
    | .reading => s.queued = pushes s.streamId chunks ∧ fromTarget = chunks.flatten
    | .locking data | .sending data =>
        s.queued = pushes s.streamId chunks ∧ fromTarget = chunks.flatten ++ data
    | .finLocking | .finSending =>
        s.queued = pushes s.streamId chunks ∧ chunks.flatten <+: fromTarget ∧
          (s.writerAlive = true → fromTarget = chunks.flatten)
    | .done =>
        (s.queued = pushes s.streamId chunks ∧ chunks.flatten <+: fromTarget) ∨
          (s.queued = pushes s.streamId chunks ++ [⟨cmdFin, s.streamId, []⟩] ∧
            fromTarget = chunks.flatten)

/-- What the target has sent behind an event. -/
def received (fromTarget : Bytes) : Event → Bytes
  | .downRead (some data) => fromTarget ++ data
  | _ => fromTarget

/-- The downlink stays where it is. -/
theorem Sent.same {s s' : Relay} {fromTarget : Bytes} (h : s.Sent fromTarget)
    (hid : s'.streamId = s.streamId) (hdown : s'.downlink = s.downlink)
    (hqueued : s'.queued = s.queued) (halive : s'.writerAlive = true → s.writerAlive = true) :
    s'.Sent fromTarget := by
  obtain ⟨chunks, h⟩ := h
  refine ⟨chunks, ?_⟩
  rw [hdown, hqueued, hid]
  cases hd : s.downlink with
  | finLocking | finSending =>
    rw [hd] at h
    exact ⟨h.1, h.2.1, fun ha => h.2.2 (halive ha)⟩
  | reading | locking | sending | done =>
    rw [hd] at h
    exact h

/-- **Downlink.**  What an event makes of it. -/
theorem Sent.step {s s' : Relay} {e : Event} {fromTarget : Bytes} (h : s.Sent fromTarget)
    (hstep : s.step e = some s') : s'.Sent (received fromTarget e) := by
  cases e with
  | push | fin | replaced | upRead | upWritten | upShutdown | otherFrame | write | writerBreaks =>
    simp only [Relay.step] at hstep
    repeat' split at hstep
    all_goals first
      | contradiction
      | obtain rfl := Option.some.inj hstep
        exact h.same rfl rfl rfl (by
          first
            | exact id
            | exact fun halive => absurd halive Bool.false_ne_true)
  | locked half =>
    cases half with
    | up =>
      simp only [Relay.step] at hstep
      split at hstep
      · obtain rfl := Option.some.inj hstep
        exact h.same rfl rfl rfl id
      · cases hstep
    | down =>
      obtain ⟨chunks, h⟩ := h
      simp only [Relay.step] at hstep
      split at hstep
      case isFalse => cases hstep
      split at hstep
      · rename_i data hdown
        obtain rfl := Option.some.inj hstep
        rw [hdown] at h
        exact ⟨chunks, h⟩
      · rename_i hdown
        obtain rfl := Option.some.inj hstep
        rw [hdown] at h
        exact ⟨chunks, h⟩
      · cases hstep
  | downRead data =>
    obtain ⟨chunks, h⟩ := h
    simp only [Relay.step] at hstep
    split at hstep
    case h_2 => cases hstep
    rename_i hdown
    rw [hdown] at h
    obtain ⟨hqueued, rfl⟩ := h
    split at hstep
    · split at hstep
      · obtain rfl := Option.some.inj hstep
        exact ⟨chunks, hqueued, rfl⟩
      · cases hstep
    · rename_i hnot
      obtain rfl := Option.some.inj hstep
      have hnone : received chunks.flatten (.downRead data) = chunks.flatten := by
        rcases data with _ | _ | ⟨b, bs⟩
        · rfl
        · exact List.append_nil _
        · exact absurd rfl (hnot b bs)
      rw [hnone]
      exact ⟨chunks, hqueued, List.prefix_rfl, fun _ => rfl⟩
  | downSent =>
    obtain ⟨chunks, h⟩ := h
    simp only [Relay.step] at hstep
    split at hstep
    · rename_i data hdown
      rw [hdown] at h
      obtain ⟨hqueued, rfl⟩ := h
      split at hstep
      · rename_i hgone
        obtain rfl := Option.some.inj hstep
        refine ⟨chunks, hqueued, List.prefix_append _ _, fun ha => ?_⟩
        exact absurd (hgone.symm.trans ha) Bool.false_ne_true
      split at hstep
      · obtain rfl := Option.some.inj hstep
        refine ⟨chunks ++ [data], ?_, ?_⟩
        · rw [pushes_snoc]
          exact congrArg (· ++ _) hqueued
        · rw [List.flatten_append, List.flatten_singleton]
          rfl
      · cases hstep
    · rename_i hdown
      rw [hdown] at h
      obtain ⟨hqueued, hpre, hall⟩ := h
      split at hstep
      · obtain rfl := Option.some.inj hstep
        exact ⟨chunks, .inl ⟨hqueued, hpre⟩⟩
      rename_i halive
      split at hstep
      · obtain rfl := Option.some.inj hstep
        exact ⟨chunks, .inr ⟨congrArg (· ++ _) hqueued,
          hall (Bool.eq_true_of_not_eq_false halive)⟩⟩
      · cases hstep
    · cases hstep

/-- What the downlink queues goes to the end of the write channel. -/
theorem step_queues {s s' : Relay} {e : Event} (h : s.step e = some s')
    (hown : (HandlerEvent.relay e).isOwn = true) :
    ∃ new, s'.queued = s.queued ++ new ∧ s'.writeChannel = s.writeChannel ++ new := by
  cases e with
  | push | fin | replaced | otherFrame | write | writerBreaks => cases hown
  | locked half =>
    cases half with
    | up | down =>
      simp only [step] at h
      repeat' split at h
      all_goals first
        | contradiction
        | obtain rfl := Option.some.inj h
          exact ⟨[], (List.append_nil _).symm, (List.append_nil _).symm⟩
  | upRead | upWritten | upShutdown | downRead | downSent =>
    simp only [step] at h
    repeat' split at h
    all_goals first
      | contradiction
      | obtain rfl := Option.some.inj h
        first
          | exact ⟨[], (List.append_nil _).symm, (List.append_nil _).symm⟩
          | exact ⟨_, rfl, rfl⟩

end Relay

namespace Handler

/-- The stream queues what its target sent, and nothing before the relay. -/
structure Sends (s : Handler) (r : Record) : Prop where
  sent : s.relay.Sent r.fromTarget
  early : s.phase ≠ .relaying → s.phase.isReturned = false →
    s.relay.queued = [] ∧ r.fromTarget = []

theorem sends_start (streamId : UInt32) (writeChannel : List Frame) (writerAlive : Bool) :
    (start streamId writeChannel writerAlive).Sends .start where
  sent := ⟨[], rfl, rfl⟩
  early _ _ := ⟨rfl, rfl⟩

theorem Sends.step {s s' : Handler} {e : HandlerEvent} {r : Record} (h : s.Sends r)
    (hown : e.isOwn = true) (hstep : s.step e = some s') : s'.Sends (r.after e s') ∧
      ∃ new, s'.relay.queued = s.relay.queued ++ new ∧
        s'.relay.writeChannel = s.relay.writeChannel ++ new := by
  have hquiet : ∀ {l : List Frame}, ∃ new, l = l ++ new ∧
      s.relay.writeChannel = s.relay.writeChannel ++ new :=
    fun {l} => ⟨[], (List.append_nil l).symm, (List.append_nil _).symm⟩
  cases e with
  | address =>
    simp only [Handler.step] at hstep
    split at hstep
    case h_2 => cases hstep
    rename_i taken hphase
    have hearly := h.early (by rw [hphase]; exact Phase.noConfusion) (by rw [hphase]; rfl)
    split at hstep
    all_goals
      obtain rfl := Option.some.inj hstep
      exact ⟨⟨h.sent.same rfl rfl rfl id, fun _ _ => hearly⟩, hquiet⟩
  | connect outcome =>
    simp only [Handler.step] at hstep
    split at hstep
    case h_2 => cases hstep
    rename_i target hphase
    obtain ⟨hqueued, hnone⟩ :=
      h.early (by rw [hphase]; exact Phase.noConfusion) (by rw [hphase]; rfl)
    cases outcome with
    | connected =>
      obtain rfl := Option.some.inj hstep
      refine ⟨⟨⟨[], rfl, hnone⟩, fun hne => absurd rfl hne⟩, [], ?_, (List.append_nil _).symm⟩
      rw [hqueued]
      rfl
    | failed | timedOut =>
      obtain rfl := Option.some.inj hstep
      exact ⟨⟨h.sent.same rfl rfl rfl id, fun _ hret => by cases hret⟩, hquiet⟩
  | join =>
    simp only [Handler.step] at hstep
    split at hstep
    · obtain rfl := Option.some.inj hstep
      exact ⟨⟨h.sent, fun _ hret => by cases hret⟩, hquiet⟩
    · cases hstep
  | relay e =>
    simp only [Handler.step] at hstep
    split at hstep
    case isFalse => cases hstep
    rename_i hadmits
    obtain ⟨relay, hrelay, rfl⟩ := Option.map_eq_some_iff.mp hstep
    have hphase := Phase.eq_relaying_of_admits hadmits hown
    have hfrom : (r.after (.relay e) { s with relay := relay }).fromTarget =
        Relay.received r.fromTarget e := by
      cases e with
      | downRead data => cases data with
        | none | some => rfl
      | _ => rfl
    refine ⟨⟨?_, fun hne => absurd hphase hne⟩, Relay.step_queues hrelay hown⟩
    rw [hfrom]
    exact h.sent.step hrelay

end Handler

end Ruproxy.AnyTls
