/-
  Vless/Fallback.lean --- a connection behind Reality, and what a probe sees of it.

  `accept` of `vless/tls/reality.rs` looks at the first bytes of a client without taking them.
  A client with a seal gets a TLS handshake and is then served as a VLESS client.  Any other
  one is connected to `dest` by `forward_to_dest`: two copies under `tokio::join!`, of which
  neither shuts its writer down.  So `dest` gets every byte of the client from the first one on,
  but its end only when both copies have returned.

  The TLS handshake comes from a library; what the client sends inside of it is given.
-/
import Ruproxy.Tunnel.Protocols
import Ruproxy.Vless.Peek

set_option autoImplicit false

namespace Ruproxy.Vless

open Ruproxy.Foundation Ruproxy.Foundation.Tunnel Ruproxy.Tunnel
open Ruproxy.Foundation.Outcome
open Ruproxy.Foundation.Transition

/-! ## A copy under `join!` -/

/-- A call of `tokio::io::copy`, with whether it has returned and how. -/
structure Copying (sent : Bytes) where
  loop : CopyLoop sent
  result : Option Bool
  finished_of_ok : result = some true → loop.Finished

/-- A step of it. -/
inductive CopyingEvent where
  | poll (e : CopyEvent)
  | ok
  | error

namespace Copying

variable {sent : Bytes}

/-- Before its first poll. -/
def start (sent : Bytes) : Copying sent where
  loop := .start sent
  result := none
  finished_of_ok := nofun

/-- One step. -/
def step (c : Copying sent) : CopyingEvent → Option (Copying sent)
  | .poll e =>
      if c.result = none then (copyStep c.loop e).map fun loop => ⟨loop, none, nofun⟩ else none
  | .ok =>
      if h : c.result = none ∧ c.loop.Finished then some ⟨c.loop, some true, fun _ => h.2⟩
      else none
  | .error => if c.result = none then some ⟨c.loop, some false, nofun⟩ else none

theorem written_prefix (c : Copying sent) : c.loop.written <+: sent :=
  Duplex.Pump.written_prefix (copyPump sent) c.loop

theorem written_of_ok {c : Copying sent} (h : c.result = some true) : c.loop.written = sent :=
  (copyPump sent).written_of_finished c.loop (decide_eq_true (c.finished_of_ok h))

theorem run_polls {c : Copying sent} (hresult : c.result = none) {es : List CopyEvent}
    {loop : CopyLoop sent} (h : run copyStep c.loop es = some loop) :
    run step c (es.map .poll) = some ⟨loop, none, nofun⟩ := by
  induction es generalizing c with
  | nil =>
    obtain rfl := Option.some.inj h
    obtain ⟨loop, result, hfinished⟩ := c
    obtain rfl : result = none := hresult
    rfl
  | cons e es ih =>
    obtain ⟨loop₁, hstep, hrest⟩ := run_cons_eq_some.mp h
    refine run_cons_eq_some.mpr ⟨⟨loop₁, none, nofun⟩, ?_, ih rfl hrest⟩
    rw [step, if_pos hresult, hstep]
    rfl

/-- A copy that has not failed can go on until it has passed everything on. -/
theorem exists_ok (c : Copying sent) (h : c.result ≠ some false) :
    ∃ es c', run step c es = some c' ∧ c'.result = some true := by
  rcases hresult : c.result with _ | ok
  · obtain ⟨es, (loop : CopyLoop sent), hrun, hfinished⟩ :=
      (copyPump sent).exists_finished c.loop
    have hfin : loop.Finished := of_decide_eq_true hfinished
    refine ⟨es.map .poll ++ [.ok], ⟨loop, some true, fun _ => hfin⟩, ?_, rfl⟩
    rw [run_append, run_polls hresult hrun]
    exact run_cons_eq_some.mpr ⟨_, dif_pos ⟨rfl, hfin⟩, rfl⟩
  · cases ok with
    | true => exact ⟨[], c, rfl, hresult⟩
    | false => exact absurd hresult h

end Copying

/-! ## The connection -/

/-- What a connection meets. -/
structure RealityEnv where
  crypto : RealityCrypto
  cfg : RealityConfig
  /-- `cfg.dest` -/
  dest : String
  uuid : Vector UInt8 16
  /-- all that the client sends -/
  client : Bytes
  /-- all that each target answers -/
  upstream : String → Bytes

/-- The size of `peek_buf`. -/
def peekSize : Nat := 2048

/-- A peek without a seal. -/
structure Probe (env : RealityEnv) where
  n : Nat
  fits : n ≤ peekSize
  accepts : accept env.crypto env.cfg (env.client.take n) = ok .forwardToDest

/-- A peek with a seal, and its key. -/
structure Sealed (env : RealityEnv) where
  n : Nat
  fits : n ≤ peekSize
  authKey : Vector UInt8 32
  accepts : accept env.crypto env.cfg (env.client.take n) = ok (.reality authKey)

/-- The peek of a client without a seal. -/
theorem Probe.unsealed {env : RealityEnv} (p : Probe env) :
    ¬ SealedOver env.crypto env.cfg (env.client.take p.n) :=
  accept_eq_forward_iff.mp p.accepts

/-- The peek of a client with a seal. -/
theorem Sealed.sealedOver {env : RealityEnv} (k : Sealed env) :
    SealedOver env.crypto env.cfg (env.client.take k.n) := by
  by_contra hnone
  have haccepts := k.accepts
  rw [accept_eq_forward_iff.mpr hnone] at haccepts
  cases haccepts

/-- Where a connection is. -/
inductive RealityConn (env : RealityEnv) where
  /-- in `peek_client_hello` -/
  | peeking
  /-- it has ended with an error -/
  | failed
  /-- in `connect` of `forward_to_dest` -/
  | connecting (p : Probe env)
  /-- in `join!` -/
  | forwarding (p : Probe env) (loops : Copying env.client × Copying (env.upstream env.dest))
  /-- `forward_to_dest` has returned, and both sockets are closed -/
  | forwarded (p : Probe env) (loops : Copying env.client × Copying (env.upstream env.dest))
      (returned : loops.1.result ≠ none ∧ loops.2.result ≠ none)
  /-- in `acceptor.accept` -/
  | handshaking (k : Sealed env)
  /-- in `process_vless_stream`, for what the client sends inside of TLS -/
  | serving (k : Sealed env) (plain : Bytes) (conn : Conn (tunnel env.uuid) plain env.upstream)

/-- What happens next. -/
inductive RealityEvent where
  /-- the peek shows `n` bytes -/
  | peek (n : Nat)
  | peekError
  | connected
  | connectError
  /-- one of the two copies moves -/
  | copy (e : CopyingEvent ⊕ CopyingEvent)
  /-- `join!` returns -/
  | joined
  /-- the handshake is done; the client sends `plain` inside -/
  | handshake (plain : Bytes)
  | handshakeError
  | vless (e : ConnEvent CopyEvent)

namespace RealityConn

variable {env : RealityEnv}

/-- `accept` behind a peek of `n` bytes. -/
def peeked (env : RealityEnv) (n : Nat) (hn : n ≤ peekSize) : RealityConn env :=
  match h : accept env.crypto env.cfg (env.client.take n) with
  | ok (.reality authKey) => .handshaking ⟨n, hn, authKey, h⟩
  | ok .forwardToDest => .connecting ⟨n, hn, h⟩
  | _ => .failed

/-- One step; `none` where the event cannot happen. -/
def step : RealityConn env → RealityEvent → Option (RealityConn env)
  | .peeking, .peek n =>
      if h : n ≤ peekSize ∧ n ≤ env.client.length then some (peeked env n h.1) else none
  | .peeking, .peekError => some .failed
  | .connecting p, .connected => some (.forwarding p (.start _, .start _))
  | .connecting _, .connectError => some .failed
  | .forwarding p loops, .copy e =>
      (both Copying.step Copying.step loops e).map (.forwarding p)
  | .forwarding p loops, .joined =>
      if h : loops.1.result ≠ none ∧ loops.2.result ≠ none then some (.forwarded p loops h)
      else none
  | .handshaking k, .handshake plain => some (.serving k plain .reading)
  | .handshaking _, .handshakeError => some .failed
  | .serving k plain conn, .vless e => (conn.step e).map (.serving k plain)
  | _, _ => none

/-! ## What is seen from outside -/

/-- The two copies to and from `dest`. -/
def loops : RealityConn env → Option (Copying env.client × Copying (env.upstream env.dest))
  | .forwarding _ loops => some loops
  | .forwarded _ loops _ => some loops
  | _ => none

/-- Both sockets of the forwarding are closed. -/
def closed : RealityConn env → Bool
  | .forwarded _ _ _ => true
  | _ => false

/-- What was dialed for the client. -/
def dialed : RealityConn env → Option String
  | .connecting _ => some env.dest
  | .forwarding _ _ => some env.dest
  | .forwarded _ _ _ => some env.dest
  | .serving _ _ conn => conn.dialed
  | _ => none

/-! ## Forwarding -/

/-- Two copies that have not failed can go on until both have returned. -/
theorem exists_joined (p : Probe env)
    (loops : Copying env.client × Copying (env.upstream env.dest))
    (hup : loops.1.result ≠ some false) (hdown : loops.2.result ≠ some false) :
    ∃ es c loops', run step (.forwarding p loops) es = some c ∧ c.closed = true ∧
      c.loops = some loops' ∧ loops'.1.loop.written = env.client ∧
        loops'.2.loop.written = env.upstream env.dest := by
  obtain ⟨up, down⟩ := loops
  obtain ⟨es, up', hrun, hok⟩ := up.exists_ok hup
  obtain ⟨fs, down', hrun', hok'⟩ := down.exists_ok hdown
  have hcopies : ∀ {loops loops' : Copying env.client × Copying (env.upstream env.dest)} {gs},
      run (both Copying.step Copying.step) loops gs = some loops' →
        run step (.forwarding p loops) (gs.map .copy) = some (.forwarding p loops') := by
    intro loops loops' gs
    induction gs generalizing loops with
    | nil =>
      intro h
      obtain rfl := Option.some.inj h
      rfl
    | cons e gs ih =>
      intro h
      obtain ⟨loops₁, hstep, hrest⟩ := run_cons_eq_some.mp h
      refine run_cons_eq_some.mpr ⟨.forwarding p loops₁, ?_, ih hrest⟩
      rw [step, hstep, Option.map_some]
  have hreturned : up'.result ≠ none ∧ down'.result ≠ none := by
    rw [hok, hok']
    exact ⟨nofun, nofun⟩
  refine ⟨(es.map .inl).map .copy ++ ((fs.map .inr).map .copy ++ [.joined]),
    .forwarded p (up', down') hreturned, (up', down'), ?_, rfl, rfl,
    Copying.written_of_ok hok, Copying.written_of_ok hok'⟩
  rw [run_append, hcopies (run_both_lefts down hrun), Option.bind_some, run_append,
    hcopies (run_both_rights up' hrun'), Option.bind_some]
  exact run_cons_eq_some.mpr ⟨_, dif_pos hreturned, rfl⟩

/-! ## What the events so far have led to -/

/-- What a connection has gone by is among the events. -/
def Recorded (es : List RealityEvent) : RealityConn env → Prop
  | .connecting p => .peek p.n ∈ es
  | .forwarding p _ => .peek p.n ∈ es
  | .forwarded p _ _ => .peek p.n ∈ es
  | .handshaking k => .peek k.n ∈ es
  | .serving k plain _ => .peek k.n ∈ es ∧ .handshake plain ∈ es
  | _ => True

theorem recorded_peeked (n : Nat) (hn : n ≤ peekSize) (es : List RealityEvent) :
    Recorded (es ++ [.peek n]) (peeked env n hn) := by
  have hlast : RealityEvent.peek n ∈ es ++ [.peek n] :=
    List.mem_append_right _ List.mem_cons_self
  unfold peeked
  split
  · exact hlast
  · exact hlast
  · trivial

theorem recorded_step {es : List RealityEvent} {c c' : RealityConn env} {e : RealityEvent}
    (h : Recorded es c) (hstep : c.step e = some c') : Recorded (es ++ [e]) c' := by
  unfold step at hstep
  split at hstep
  · split at hstep
    · cases hstep
      exact recorded_peeked _ _ es
    · cases hstep
  · cases hstep
    trivial
  · cases hstep
    exact List.mem_append_left _ h
  · cases hstep
    trivial
  · obtain ⟨loops, -, rfl⟩ := Option.map_eq_some_iff.mp hstep
    exact List.mem_append_left _ h
  · split at hstep
    · cases hstep
      exact List.mem_append_left _ h
    · cases hstep
  · cases hstep
    exact ⟨List.mem_append_left _ h, List.mem_append_right _ List.mem_cons_self⟩
  · cases hstep
    trivial
  · obtain ⟨conn, -, rfl⟩ := Option.map_eq_some_iff.mp hstep
    exact ⟨List.mem_append_left _ h.1, List.mem_append_left _ h.2⟩
  · cases hstep

theorem recorded_of_run {es : List RealityEvent} {c : RealityConn env}
    (h : run step (.peeking : RealityConn env) es = some c) : Recorded es c :=
  @history_of_run _ _ step Recorded (fun hinv hstep => recorded_step hinv hstep) .peeking c es
    trivial h

/-- What `dest` and a client without a seal see of each other. -/
structure Transparent (c : RealityConn env)
    (loops : Copying env.client × Copying (env.upstream env.dest)) : Prop where
  /-- `dest` sees the client from the first byte on -/
  toDest : loops.1.loop.written <+: env.client
  toClient : loops.2.loop.written <+: env.upstream env.dest
  /-- no end is seen before both copies have returned -/
  joined : c.closed = true → loops.1.result ≠ none ∧ loops.2.result ≠ none
  /-- unless a copy fails, each side can get everything -/
  completes : c.closed = false → loops.1.result ≠ some false → loops.2.result ≠ some false →
    ∃ es c' loops', run step c es = some c' ∧ c'.closed = true ∧ c'.loops = some loops' ∧
      loops'.1.loop.written = env.client ∧ loops'.2.loop.written = env.upstream env.dest

theorem transparent_of_loops {c : RealityConn env}
    {loops : Copying env.client × Copying (env.upstream env.dest)} (h : c.loops = some loops) :
    c.Transparent loops ∧ c.dialed = some env.dest := by
  cases c with
  | forwarding p loops' =>
    obtain rfl := Option.some.inj h
    exact ⟨⟨Copying.written_prefix _, Copying.written_prefix _, nofun,
      fun _ hup hdown => exists_joined p loops' hup hdown⟩, rfl⟩
  | forwarded p loops' returned =>
    obtain rfl := Option.some.inj h
    exact ⟨⟨Copying.written_prefix _, Copying.written_prefix _, fun _ => returned, nofun⟩, rfl⟩
  | _ => cases h

/-- **Reality connections.**  The peek of a client decides.  Without a seal nothing but `dest`
is dialed, and `dest` and the client see each other's bytes as if they were connected, from the
first one on.  What is dialed else is the target of a VLESS request that came inside of TLS,
from a client whose peek carries a seal, and that is tunneled. -/
theorem run_reality {es : List RealityEvent} {c : RealityConn env}
    (h : run step (.peeking : RealityConn env) es = some c) :
    (∀ loops, c.loops = some loops → c.Transparent loops ∧ c.dialed = some env.dest ∧
      ∃ n ≤ peekSize, .peek n ∈ es ∧
        ¬ SealedOver env.crypto env.cfg (env.client.take n)) ∧
    ∀ target, c.dialed = some target →
      (target = env.dest ∧ ∃ n ≤ peekSize, .peek n ∈ es ∧
        ¬ SealedOver env.crypto env.cfg (env.client.take n)) ∨
      ((∃ n ≤ peekSize, .peek n ∈ es ∧ SealedOver env.crypto env.cfg (env.client.take n)) ∧
        ∃ k plain conn rest, c = .serving k plain conn ∧ .handshake plain ∈ es ∧
          IsRequest env.uuid plain ⟨cmdTcp, target⟩ rest ∧ conn.Faithful [] target rest) := by
  have hrecorded := recorded_of_run h
  have hprobe : ∀ p : Probe env, RealityEvent.peek p.n ∈ es → ∃ n ≤ peekSize, .peek n ∈ es ∧
      ¬ SealedOver env.crypto env.cfg (env.client.take n) := fun p hp =>
    ⟨p.n, p.fits, hp, p.unsealed⟩
  constructor
  · intro loops hloops
    obtain ⟨htransparent, hdialed⟩ := transparent_of_loops hloops
    refine ⟨htransparent, hdialed, ?_⟩
    cases c with
    | forwarding p _ => exact hprobe p hrecorded
    | forwarded p _ _ => exact hprobe p hrecorded
    | _ => cases hloops
  · intro target htarget
    cases c with
    | connecting p => exact .inl ⟨(Option.some.inj htarget).symm, hprobe p hrecorded⟩
    | forwarding p _ => exact .inl ⟨(Option.some.inj htarget).symm, hprobe p hrecorded⟩
    | forwarded p _ _ => exact .inl ⟨(Option.some.inj htarget).symm, hprobe p hrecorded⟩
    | serving k plain conn =>
      obtain ⟨a, ha, rfl⟩ := Option.map_eq_some_iff.mp htarget
      refine .inr ⟨⟨k.n, k.fits, hrecorded.1, k.sealedOver⟩, k, plain, conn, a.rest, rfl,
        hrecorded.2, ?_, conn.faithful_of_accepted ha⟩
      exact processVlessStream_eq_ok.mp (Except.toOption_eq_some.mp a.accepted)
    | _ => cases htarget

/-- A server with `plainHello` in front of it, which has not arrived in whole. -/
def probedEnv : RealityEnv where
  crypto := lengthCrypto
  cfg := openConfig
  dest := "example.com:443"
  uuid := .replicate 16 0
  client := plainHello
  upstream _ := [1, 2, 3]

theorem run_reality_probed : ∃ c : RealityConn probedEnv,
    run step .peeking [.peek 100, .connected] = some c ∧ c.dialed = some "example.com:443" ∧
      ∃ n ≤ peekSize, RealityEvent.peek n ∈ [RealityEvent.peek 100, .connected] ∧
        ¬ SealedOver lengthCrypto openConfig (plainHello.take n) := by
  have heval : (run step (.peeking : RealityConn probedEnv) [.peek 100, .connected]).map
      (fun c => c.loops.isSome) = some true := by
    decide +kernel
  obtain ⟨c, hrun, hsome⟩ := Option.map_eq_some_iff.mp heval
  obtain ⟨loops, hloops⟩ := Option.isSome_iff_exists.mp hsome
  obtain ⟨-, hdialed, hprobe⟩ := (run_reality hrun).1 loops hloops
  exact ⟨c, hrun, hdialed, hprobe⟩

end RealityConn

end Ruproxy.Vless
