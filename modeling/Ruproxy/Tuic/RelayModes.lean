/-
  Tuic/RelayModes.lean --- the payload of a packet in the two relay modes.

  A client sends a packet as a datagram (native mode) or on a stream of its own (QUIC
  mode).  Both handlers parse the same command, but the stream handler reads as many bytes
  as the size field says and the datagram handler takes what is left.
-/
import Ruproxy.Tuic.Auth
import Ruproxy.Tuic.Codec

set_option autoImplicit false

namespace Ruproxy.Tuic

open Ruproxy.Foundation
open Ruproxy.Foundation.Transition

namespace Connection

/-! ## Runs of one handler -/

/-- What a handler gives to `handle_packet_data`. -/
def handed (s : Connection) (t : TaskId) : Option (PacketInfo × Bytes) :=
  match s.tasks.lookup t with
  | some (.packet info payload _) => some (info, payload)
  | _ => none

@[simp] theorem handed_setTask_packet (s : Connection) (t : TaskId) (info : PacketInfo)
    (payload : Bytes) (mode : UdpMode) :
    (s.setTask t (.packet info payload mode)).handed t = some (info, payload) := by
  simp [handed, setTask]

@[simp] theorem handed_endTask (s : Connection) (t : TaskId) : (s.endTask t).handed t = none := by
  simp [handed, endTask]

/-- The handler of an event runs up to the end or to `handle_packet_data`: behind its
command come the gate and the payload. -/
def handle (t : TaskId) (e : Event) : List Event := [e, .advance t, .advance t, .advance t]

/-- The handler of an event ends with `o` for `handle_packet_data` and changes nothing else. -/
def Hands (c : Config) (s : Connection) (t : TaskId) (e : Event)
    (o : Option (PacketInfo × Bytes)) : Prop :=
  ∃ s', run (step c) s (handle t e) = some s' ∧ s'.handed t = o ∧
    { s' with tasks := s.tasks } = s

/-- Both relay modes hand the `size` bytes behind the command to `handle_packet_data`, or
nothing if there are fewer. -/
def SamePayload (c : Config) (s : Connection) (t : TaskId) (info : PacketInfo) (rest : Bytes) :
    Prop :=
  ∀ e ∈ [Event.readDatagram t (info.toBytes ++ rest), .acceptUni t (info.toBytes ++ rest)],
    s.Hands c t e (if info.size.toNat ≤ rest.length
      then some (info, rest.take info.size.toNat) else none)

/-! ## The handlers -/

@[simp] theorem lookup_setTask (s : Connection) (t : TaskId) (task : Task) :
    (s.setTask t task).tasks.lookup t = some task := AList.lookup_insert _

/-- A handler that was set goes on with its task. -/
@[simp] theorem step_advance_setTask (c : Config) (s : Connection) (t : TaskId) (task : Task) :
    step c (s.setTask t task) (.advance t) = advance c (s.setTask t task) t task := by
  simp [step]

/-- **Handlers.**  At an authenticated connection the gate is open: a handler that gets to
it goes on behind it. -/
theorem run_handle {c : Config} {s : Connection} {t : TaskId} {e : Event} {task : Task}
    {k : Gated} (hauth : s.auth.isAuthenticated = true)
    (hspawn : step c s e = some (s.setTask t task))
    (hstart : ∀ s : Connection, advance c s t task = some (s.setTask t (.gate .outside k))) :
    ∃ s₀ : Connection, { s₀ with tasks := s.tasks } = s ∧
      run (step c) s (handle t e) = some (s₀.pass t k) := by
  have hnext : ∀ s' : Connection, s'.auth = s.auth →
      Gate.next s'.auth .outside = some .pass := by
    intro s' hs'
    rw [hs', Gate.next, hauth]
    rfl
  refine ⟨(((s.setTask t task).setTask t (.gate .outside k)).setTask t (.passed k)), rfl, ?_⟩
  rw [handle, run_cons, hspawn, Option.bind_some, run_cons, step_advance_setTask, hstart,
    Option.bind_some, run_cons, step_advance_setTask, advance,
    hnext ((s.setTask t task).setTask t (.gate .outside k)) rfl]
  rw [Option.bind_some, run_cons, step_advance_setTask, advance, Option.bind_some, run_nil]

section Packet

variable {c : Config} {s : Connection} {t : TaskId} {info : PacketInfo}

theorem isTuicPrefix_packet : isTuicPrefix version cmdPacket = true := by decide

/-- In native mode all that is left is the payload. -/
theorem hands_datagram (hauth : s.auth.isAuthenticated = true) (ht : s.tasks.lookup t = none)
    (hfits : info.addr.Fits) (rest : Bytes) :
    s.Hands c t (.readDatagram t (info.toBytes ++ rest)) (some (info, rest)) := by
  have hspawn : step c s (.readDatagram t (info.toBytes ++ rest)) =
      some (s.setTask t (.datagram (info.toBytes ++ rest))) := by
    simp [step, spawn, ht]
  have hstart : ∀ s : Connection, advance c s t (.datagram (info.toBytes ++ rest)) =
      some (s.setTask t (.gate .outside (.datagram (info.toBytes ++ rest)))) := fun s => by
    simp [advance, handleDatagram, PacketInfo.toBytes, isTuicPrefix_packet]
  have hparse : readFromSync (info.toBytes ++ rest) = .ok (.packet info, rest) :=
    readFromSync_packet_iff.mpr ⟨hfits, rfl⟩
  obtain ⟨s₀, hs₀, hrun⟩ := run_handle hauth hspawn hstart
  rw [pass_datagram s₀ t hparse] at hrun
  exact ⟨_, hrun, handed_setTask_packet s₀ t info rest .native, hs₀⟩

/-- In QUIC mode the size field says how long the payload is. -/
theorem hands_uni (hauth : s.auth.isAuthenticated = true) (ht : s.tasks.lookup t = none)
    (hfits : info.addr.Fits) (rest : Bytes) :
    s.Hands c t (.acceptUni t (info.toBytes ++ rest)) (if info.size.toNat ≤ rest.length
      then some (info, rest.take info.size.toNat) else none) := by
  have hspawn : step c s (.acceptUni t (info.toBytes ++ rest)) =
      some (s.setTask t (.uni (info.toBytes ++ rest))) := by
    simp [step, spawn, ht]
  have hpeek : readExact 2 (info.toBytes ++ rest) =
      some ([version, cmdPacket], info.body ++ rest) :=
    readExact_eq_some.mpr ⟨rfl, rfl⟩
  have hparse : parseCommandWithPrefix version cmdPacket (info.body ++ rest) =
      .ok (.packet info, rest) := parseCommandWithPrefix_packet_iff.mpr ⟨hfits, rfl⟩
  have hstart : ∀ s : Connection, advance c s t (.uni (info.toBytes ++ rest)) =
      some (s.setTask t (.gate .outside (.packetStream info rest))) := fun s => by
    simp [advance, handleUni, hpeek, hparse, isTuicPrefix_packet]
  obtain ⟨s₀, hs₀, hrun⟩ := run_handle hauth hspawn hstart
  by_cases hle : info.size.toNat ≤ rest.length
  · rw [pass, readExact, if_pos hle] at hrun
    rw [if_pos hle]
    exact ⟨_, hrun, handed_setTask_packet s₀ t info _ .quic, hs₀⟩
  · rw [pass, readExact, if_neg hle] at hrun
    rw [if_neg hle]
    exact ⟨_, hrun, handed_endTask s₀ t, hs₀⟩

theorem Hands.unique {e : Event} {o o' : Option (PacketInfo × Bytes)} (h : s.Hands c t e o)
    (h' : s.Hands c t e o') : o = o' := by
  obtain ⟨s₁, hrun, rfl, -⟩ := h
  obtain ⟨s₂, hrun', rfl, -⟩ := h'
  rw [hrun, Option.some.injEq] at hrun'
  rw [hrun']

/-- **The two relay modes.**  A datagram and a stream with the same bytes have the effect
that the size field asks for exactly if no byte is missing and none is left over. -/
theorem samePayload_iff (hauth : s.auth.isAuthenticated = true) (ht : s.tasks.lookup t = none)
    (hfits : info.addr.Fits) (rest : Bytes) :
    s.SamePayload c t info rest ↔ rest.length = info.size.toNat := by
  have hnative := hands_datagram (c := c) hauth ht hfits rest
  constructor
  · intro hsame
    have heq := (hsame _ List.mem_cons_self).unique hnative
    split at heq
    · rename_i hle
      have htake := congrArg List.length (Prod.mk.inj (Option.some.inj heq)).2
      rw [List.length_take] at htake
      omega
    · cases heq
  · intro hlen e he
    rw [List.mem_cons, List.mem_singleton] at he
    rcases he with rfl | rfl
    · rw [if_pos (Nat.le_of_eq hlen.symm), ← hlen, List.take_length]
      exact hnative
    · exact hands_uni hauth ht hfits rest

end Packet

/-- A connection that is authenticated and has no tasks. -/
def authenticated : Connection :=
  { new with auth := { AuthInner.new with isAuthenticated := true } }

/-- A packet of one byte for 192.0.2.1:53. -/
def oneByte : PacketInfo := ⟨7, 1, 1, 0, 1, .socket ⟨.v4 (.new 192 0 2 1), 53⟩⟩

theorem samePayload_iff_oneByte :
    authenticated.SamePayload sampleConfig 0 oneByte [104] ↔ 1 = oneByte.size.toNat :=
  @samePayload_iff sampleConfig authenticated 0 oneByte rfl rfl trivial [104]

/-- As a datagram the packet of one byte takes two bytes that follow. -/
theorem not_samePayload_oneByte :
    ¬ authenticated.SamePayload sampleConfig 0 oneByte [104, 105] := by
  intro hsame
  have hnative : authenticated.Hands sampleConfig 0
      (.readDatagram 0 (oneByte.toBytes ++ [104, 105])) (some (oneByte, [104, 105])) :=
    @hands_datagram sampleConfig authenticated 0 oneByte rfl rfl trivial [104, 105]
  have heq := (hsame _ List.mem_cons_self).unique hnative
  exact absurd heq (by decide)

end Connection

end Ruproxy.Tuic
