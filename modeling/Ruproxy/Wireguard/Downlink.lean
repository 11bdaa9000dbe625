/-
  Wireguard/Downlink.lean --- TCP data on its way to the peer.

  `feed_tcp_send` does not look at how much of a chunk `send_slice` took, so what
  does not fit into the send buffer is lost and the stream goes on behind a gap.
  As long as every chunk fits, what entered the buffer is what the relay sent.
-/
import Ruproxy.Wireguard.Handles

set_option autoImplicit false

namespace Ruproxy.Wireguard

open Ruproxy.Foundation
open Ruproxy.Foundation.Transition

/-- While a flow's socket may send, the bytes that entered its send buffer are the
chunks of its relay that were handled, one after the other. -/
def System.Lossless (s : System) : Prop :=
  ∀ key f t, s.actor.tcpFlows.lookup key = some f →
    s.actor.sockets f.handle = some (.tcp t) → t.maySend = true →
      t.sent = s.actor.handled f.id

/-- The chunk that is handled, when the socket at its handle may send, comes from a flow
that is still there and fits into the free space; a chunk of an evicted flow only
meets a full buffer. -/
def ChunkFits (s : System) (e : Event) : Prop :=
  match e, s.inbox with
  | .handle _, .tcpData i h data :: _ =>
      match s.actor.sockets h with
      | some (.tcp t) =>
          t.maySend = true →
            (s.actor.TcpPresent i → data.length ≤ t.free) ∧
            (¬ s.actor.TcpPresent i → t.free = 0)
      | _ => True
  | _, _ => True

instance (s : System) (e : Event) : Decidable (ChunkFits s e) := by
  unfold ChunkFits
  split
  · split <;> infer_instance
  · infer_instance

namespace Actor

/-- What entered the buffer of every socket that is not closed is what its flow's relay
sent, and flows still to come have sent nothing. -/
structure Streams (a : Actor) : Prop where
  sent : ∀ h t, a.sockets h = some (.tcp t) → t.state ≠ .closed → t.sent = a.handled t.owner
  future : ∀ i, a.nextFlow ≤ i → a.handled i = []

theorem Streams.calm {a a' : Actor} (hs : a.Streams) (h : a.Calm a') : a'.Streams where
  sent := by
    intro hd t' ht' hopen
    rw [h.handled]
    rcases h.streams hd t' ht' with ⟨t, ht, hcont⟩ | ⟨hnew, hsent⟩
    · rw [hcont.sent, hcont.owner]
      exact hs.sent hd t ht (hcont.closed hopen)
    · rw [hsent, hs.future _ hnew]
  future i hi := by
    rw [h.handled]
    exact hs.future i (Nat.le_trans h.next_le hi)

variable {a : Actor}

/-- Bytes of flow `i` are recorded; the streams of the other flows stay. -/
theorem Streams.record_sent (hs : a.Streams) {i : FlowId} (data : Bytes) {h : Handle}
    {t : TcpSocket} (ht : a.sockets h = some (.tcp t)) (hopen : t.state ≠ .closed)
    (hne : t.owner ≠ i) :
    t.sent = Function.update a.handled i (a.handled i ++ data) t.owner := by
  rw [Function.update_of_ne hne]
  exact hs.sent h t ht hopen

/-- **One chunk.**  A chunk that fits keeps the streams. -/
theorem Streams.fedTcp (hinv : a.Inv) (hs : a.Streams) {i : FlowId} {h : Handle}
    {data : Bytes} (hl : a.TcpLinked i h) {t : TcpSocket} (ht : a.sockets h = some (.tcp t))
    (hfits : t.maySend = true → (a.TcpPresent i → data.length ≤ t.free) ∧
      (¬ a.TcpPresent i → t.free = 0)) :
    (a.fedTcp i h data t).Streams := by
  have hfuture : ∀ j, a.nextFlow ≤ j →
      Function.update a.handled i (a.handled i ++ data) j = [] := by
    intro j hj
    have hne : j ≠ i := Nat.ne_of_gt (Nat.lt_of_lt_of_le hl.1.1 hj)
    rw [Function.update_of_ne hne]
    exact hs.future j hj
  -- an open socket of flow `i` is the one at `h`, and it may send
  have hother : ∀ h' t', a.sockets h' = some (.tcp t') → t'.owner = i →
      t'.state ≠ .closed → h' = h ∧ t'.maySend = true := by
    intro h' t' ht' howner hopen
    obtain ⟨key, hkey⟩ := hinv.wellFormed.owned (slot_tcp.mpr ⟨t', ht', howner⟩)
    refine ⟨hl.1.2 key h' hkey, ?_⟩
    have hopened := hl.2 h' t' ht' howner
    unfold TcpSocket.maySend
    cases hstate : t'.state <;> simp_all [TcpState.opened]
  unfold Actor.fedTcp
  split
  · rename_i hsend
    refine ⟨?_, hfuture⟩
    intro h' t' ht' hopen
    obtain ⟨hfit, hfull⟩ := hfits hsend
    have hstate : t.state ≠ .closed := by
      intro hclosed
      simp [TcpSocket.maySend, hclosed] at hsend
    rcases tcp_of_put ht' with ⟨rfl, heq⟩ | ⟨hne, hold⟩
    · obtain rfl := Socket.tcp.inj heq
      have howner := hl.owner_iff hinv ht
      show t.sent ++ data.take (min data.length t.free) =
        Function.update a.handled i (a.handled i ++ data) t.owner
      by_cases hp : a.TcpPresent i
      · rw [howner.mpr hp, Function.update_self, Nat.min_eq_left (hfit hp), List.take_length,
          hs.sent _ t ht hstate, howner.mpr hp]
      · rw [hfull hp, Nat.min_zero, List.take_zero, List.append_nil]
        exact hs.record_sent data ht hstate fun hi => hp (howner.mp hi)
    · exact hs.record_sent data hold hopen fun howner =>
        hne (hother h' t' hold howner hopen).1
  · rename_i hsend
    refine ⟨?_, hfuture⟩
    intro h' t' ht' hopen
    have ht' : a.sockets h' = some (.tcp t') := ht'
    by_cases howner : t'.owner = i
    · obtain ⟨rfl, hmay⟩ := hother h' t' ht' howner hopen
      rw [ht, Option.some.injEq, Socket.tcp.injEq] at ht'
      exact absurd (ht' ▸ hmay) hsend
    · exact hs.record_sent data ht' hopen howner

theorem Streams.fedUdp (hs : a.Streams) (room : Bool) (i : FlowId) (h : Handle)
    (peerEp : SocketAddr) (data : Bytes) (t : UdpSocket) :
    (a.fedUdp room i h peerEp data t).Streams := by
  unfold Actor.fedUdp
  split
  · refine ⟨?_, hs.future⟩
    intro h' t' ht' hopen
    rcases tcp_of_put ht' with ⟨-, heq⟩ | ⟨-, hold⟩
    · simp at heq
    · exact hs.sent h' t' hold hopen
  · exact hs

end Actor

namespace System

/-- The invariant of runs whose chunks fit. -/
structure StreamInv (s : System) : Prop where
  inv : s.Inv
  streams : s.actor.Streams

theorem streamInv_step : Preserves step ChunkFits StreamInv := by
  rintro s e s' ⟨hinv, hs⟩ hok h
  refine ⟨step_inv hinv trivial h, ?_⟩
  rcases step_cases hinv h with ⟨env, m, inbox, rfl, -, hinbox, hhandled⟩ | ⟨-, helse⟩
  · have hm := hinv.inbox m (by rw [hinbox]; exact List.mem_cons_self ..)
    cases hhandled with
    | quiet _ hkeeps => exact hs.calm hkeeps.2
    | @tcp i hd data t ht =>
      simp only [ChunkFits, hinbox, ht] at hok
      have hfed := hs.fedTcp hinv.actor hm.1 ht hok
      obtain ⟨htcp, hudp⟩ := s.actor.fedTcp_relays i hd data t
      have hinv' := hinv.actor.steady_of_eq (Actor.fedTcp_steady i data ht) htcp hudp
      exact hfed.calm (Actor.poll_keeps hinv' env.effects).2
    | panic _ => exact hs
    | @udp i hd data key f t _ _ ht _ =>
      obtain ⟨htcp, hudp⟩ := s.actor.fedUdp_relays env.room i hd key.src data t
      have hsteady := Actor.fedUdp_steady env.room i key.src data ht
      have hinv' := hinv.actor.steady_of_eq hsteady htcp hudp
      exact (hs.fedUdp env.room i hd key.src data t).calm
        (Actor.poll_keeps hinv' env.effects).2
    | noFlow _ => exact hs.calm (Actor.poll_keeps hinv.actor env.effects).2
  · exact hs.calm helse.calm

theorem StreamInv.lossless {s : System} (h : s.StreamInv) : s.Lossless := by
  intro key f t hf ht hsend
  obtain ⟨t', ht', howner⟩ := h.inv.actor.tcpSocket hf
  rw [ht, Option.some.injEq, Socket.tcp.injEq] at ht'
  rw [← howner, ← ht']
  refine h.streams.sent _ t ht ?_
  intro hclosed
  simp [TcpSocket.maySend, hclosed] at hsend

/-- **TCP downlink.**  In every state of every run in which each chunk fits when it is
handled, every flow whose socket may send has sent exactly what its relay read. -/
theorem lossless_of_chunkFits {s : System} (h : ReachableBy step ChunkFits init s) :
    s.Lossless := by
  have hinit : init.StreamInv :=
    ⟨inv_init, fun h t ht => by simp [init, Actor.init] at ht, fun _ _ => rfl⟩
  exact (h.invariant streamInv_step hinit).lossless

end System

/-! ## Instances -/

/-- A short text of the server, handled while it fits, is what the socket has sent. -/
theorem lossless_of_chunkFits_greeting :
    ∃ s, run System.step .init (greetingRun ++
      [.remoteData 0 [104, 105], .handle (sampleEnv 1 .established [])]) = some s ∧
      s.Lossless := by
  have hsome : (run System.step .init (greetingRun ++ [.remoteData 0 [104, 105],
      .handle (sampleEnv 1 .established [])])).isSome = true := by decide +kernel
  obtain ⟨s, hrun⟩ := Option.isSome_iff_exists.mp hsome
  exact ⟨s, hrun, System.lossless_of_chunkFits ⟨_, by decide +kernel, hrun⟩⟩

/-- The key of that connection. -/
def greetingKey : FlowKey :=
  ⟨6, ⟨.v4 (.new 10 0 0 2), 200⟩, ⟨.v4 (.new 192 0 2 1), 80⟩⟩

/-- A full read of the relay of flow 0. -/
def fullChunk : Bytes := List.replicate relayChunk 0

/-- The relay reads a full chunk and the actor handles it; the peer acknowledges
nothing. -/
def floodStep : List Event :=
  [.remoteData 0 fullChunk, .handle (sampleEnv 1 .established [])]

/-- The relay of flow 0 has sent `n` full chunks that were handled one by one. -/
structure Flooded (s : System) (n : Nat) : Prop where
  running : s.crashed = false ∧ s.todo = [] ∧ s.inbox = [] ∧ s.actor.sockets 1 = none
  relay : ∃ r, s.actor.tcpRelays 0 = some r ∧ r.handle = 0 ∧ r.connection = .open true
  flow : ∃ key f, s.actor.tcpFlows.lookup key = some f ∧ f.id = 0 ∧ f.handle = 0
  socket : ∃ t, s.actor.sockets 0 = some (.tcp t) ∧ t.state = .established ∧ t.una = 0 ∧
    t.sent.length = min (n * relayChunk) tcpTxBuf
  handled : (s.actor.handled 0).length = n * relayChunk

theorem flooded_succ {s : System} {n : Nat} (h : Flooded s n) :
    ∃ s', run System.step s floodStep = some s' ∧ Flooded s' (n + 1) := by
  obtain ⟨hcrashed, htodo, hinbox, hslot⟩ := h.running
  obtain ⟨r, hr, hhandle, hconn⟩ := h.relay
  obtain ⟨key, f, hf, hid, hfh⟩ := h.flow
  obtain ⟨t, ht, hstate, huna, hlen⟩ := h.socket
  have hchunk : fullChunk.length = relayChunk := List.length_replicate
  have hread : s.step (.remoteData 0 fullChunk) =
      some { s with inbox := [.tcpData 0 0 fullChunk] } := by
    have hguard : r.connection = .open true ∧ 0 < fullChunk.length ∧
        fullChunk.length ≤ relayChunk := ⟨hconn, by rw [hchunk]; decide, Nat.le_of_eq hchunk⟩
    simp only [System.step, hr, hguard, and_self, if_true, System.send, hinbox, hhandle]
    rfl
  have hsend : t.maySend = true := by simp [TcpSocket.maySend, hstate]
  generalize henv : sampleEnv 1 .established [] = env
  have hhandled : System.step { s with inbox := [.tcpData 0 0 fullChunk] } (.handle env) =
      some { s with
        actor := (s.actor.fedTcp 0 0 fullChunk t).poll env.effects, inbox := [] } := by
    have hfree : s.actor.sockets env.slot = none := by
      rw [← henv]
      exact hslot
    simp [System.step, System.handle, hcrashed, htodo, hfree, Actor.handle_tcpData,
      SocketSet.getTcp_eq_some.mpr ht, Msg.tasks]
  refine ⟨{ s with
    actor := (s.actor.fedTcp 0 0 fullChunk t).poll env.effects, inbox := [] }, ?_, ?_⟩
  · rw [floodStep, henv, run_cons, hread]
    exact run_cons_eq_some.mpr ⟨_, hhandled, rfl⟩
  · have hne : (1 : Handle) ≠ 0 := by decide
    refine ⟨⟨hcrashed, htodo, rfl, ?_⟩, ⟨r, ?_, hhandle, hconn⟩, ⟨key, f, ?_, hid, hfh⟩, ?_, ?_⟩
    · simp [Actor.poll, SocketSet.poll, Actor.fedTcp_sockets_of_ne _ _ _ _ hne, hslot]
    · simp only [Actor.poll, (s.actor.fedTcp_relays 0 0 fullChunk t).1, hr]
    · simp only [Actor.poll, Actor.fedTcp_tcpFlows, hf]
    · refine ⟨_, by
        simp only [Actor.poll, SocketSet.poll, Actor.fedTcp_sockets_self hsend]; rfl, ?_, ?_, ?_⟩
      · simp [TcpSocket.polled, ← henv, sampleEnv, TcpState.canBecome, hstate]
      · simp [TcpSocket.polled, ← henv, sampleEnv, huna]
      · have hfree : t.free = tcpTxBuf - t.sent.length := by simp [TcpSocket.free, huna]
        show (t.sent ++ fullChunk.take (min fullChunk.length t.free)).length = _
        rw [List.length_append, List.length_take, hchunk, hfree, Nat.add_mul]
        omega
    · simp only [Actor.poll, Actor.fedTcp_handled, Function.update_self, List.length_append,
        h.handled, hchunk, Nat.add_mul, Nat.one_mul]

/-- The relay can send any number of chunks to a peer that acknowledges nothing. -/
theorem exists_flooded (n : Nat) :
    ∃ es s, run System.step .init es = some s ∧ Flooded s n := by
  induction n with
  | zero =>
    have hend : (run System.step .init greetingRun).map (fun s =>
        (s.crashed, s.todo, s.inbox, s.actor.sockets 1)) = some (false, [], [], none) := by
      decide +kernel
    have hflow : (run System.step .init greetingRun).map (fun s =>
        (s.actor.tcpFlows.lookup greetingKey, s.actor.tcpRelays 0, s.actor.sockets 0,
          s.actor.handled 0)) =
        some (some ⟨0, 0, true, 0⟩, some ⟨0, greetingKey.dst, .open true, .receiving, []⟩,
          some (.tcp ⟨0, greetingKey.dst, .established, [], [], 0⟩), []) := by
      decide +kernel
    obtain ⟨s, hs, heq⟩ := Option.map_eq_some_iff.mp hend
    rw [hs, Option.map_some, Option.some.injEq] at hflow
    simp only [Prod.mk.injEq] at heq hflow
    obtain ⟨hcrashed, htodo, hinbox, hslot⟩ := heq
    obtain ⟨hlookup, hrelay, hsocket, hhandled⟩ := hflow
    exact ⟨greetingRun, s, hs, ⟨hcrashed, htodo, hinbox, hslot⟩, ⟨_, hrelay, rfl, rfl⟩,
      ⟨_, _, hlookup, rfl, rfl⟩, ⟨_, hsocket, rfl, rfl, by simp⟩, by rw [hhandled]; simp⟩
  | succ n ih =>
    obtain ⟨es, s, hrun, hs⟩ := ih
    obtain ⟨s', hstep, hs'⟩ := flooded_succ hs
    exact ⟨es ++ floodStep, s', by rw [run_append, hrun]; exact hstep, hs'⟩

/-- Nine full chunks do not fit into 128 KiB: the ninth is dropped. -/
theorem not_lossless_flood :
    ¬ ∀ es s, run System.step .init es = some s → s.Lossless := by
  intro hall
  obtain ⟨es, s, hrun, hs⟩ := exists_flooded 9
  obtain ⟨key, f, hf, hid, hfh⟩ := hs.flow
  obtain ⟨t, ht, hstate, -, hlen⟩ := hs.socket
  have hsent := hall es s hrun key f t hf (by rw [hfh]; exact ht)
    (by simp [TcpSocket.maySend, hstate])
  rw [hid] at hsent
  have hhandled := hs.handled
  rw [← hsent, hlen] at hhandled
  exact absurd hhandled (by decide)

end Ruproxy.Wireguard
