/-
  Tunnel/Relay.lean --- the loops that carry bytes between a client and a target.

  `relay` of `vless/listener.rs`, `trojan/mod.rs` and `socks/mod.rs` joins two calls of
  `tokio::io::copy`, each with a shutdown behind it.  `handle_tcp_stream` of
  `hysteria2/proxy.rs` joins two tasks with loops of its own, which write what they read
  before they read again.  Both kinds of loop are pumps, so both relays are two joined legs.

  A loop knows all the bytes its reader will ever give.  A read or a write of it may fail at
  any time; that ends the loop.
-/
import Ruproxy.Foundation.Duplex
import Ruproxy.Tunnel.Copy

set_option autoImplicit false

namespace Ruproxy.Tunnel

open Ruproxy.Foundation Ruproxy.Foundation.Transition Ruproxy.Foundation.Duplex

/-! ## `tokio::io::copy` -/

/-- `tokio::io::copy`. -/
def copyPump (sent : Bytes) : Pump CopyEvent sent where
  State := CopyLoop sent
  start := .start sent
  step := copyStep
  written := CopyLoop.written
  finished l := decide l.Finished
  rank := copyRank
  written_start := rfl
  written_prefix := CopyLoop.written_prefix
  written_mono := copyStep_written_mono
  written_of_finished l h := l.written_eq_iff.mpr (of_decide_eq_true h).drained
  progress l h := copyStep_progress l (of_decide_eq_false h)

/-! ## Loops that write before they read again -/

/-- A loop of `handle_tcp_stream` between a reader that gives `sent` and then its end, and a
writer. -/
structure ForwardLoop (sent : Bytes) where
  written : Bytes
  /-- the part of `buf` that `write_all` has still to write -/
  buf : Bytes
  /-- what the reader has still to give -/
  unread : Bytes
  /-- a read gave the end, and the loop breaks -/
  ended : Bool
  whole : written ++ buf ++ unread = sent
  drained_of_ended : ended = true → buf = [] ∧ unread = []

namespace ForwardLoop

variable {sent : Bytes} {size : Nat}

theorem drained_start {sent : Bytes} (h : false = true) : ([] : Bytes) = [] ∧ sent = [] :=
  absurd h Bool.false_ne_true

/-- Before the first read. -/
def start (sent : Bytes) : ForwardLoop sent where
  written := []
  buf := []
  unread := sent
  ended := false
  whole := List.nil_append sent
  drained_of_ended := drained_start

theorem whole_read (l : ForwardLoop sent) (hbuf : l.buf = []) (n : Nat) :
    l.written ++ l.unread.take n ++ l.unread.drop n = sent := by
  have hwhole := l.whole
  rw [hbuf, List.append_nil] at hwhole
  rwa [List.append_assoc, List.take_append_drop]

theorem drained_read (l : ForwardLoop sent) {n : Nat} (hpos : 0 < n)
    (hlen : n ≤ l.unread.length) (hend : l.ended = true) :
    l.unread.take n = [] ∧ l.unread.drop n = [] := by
  rw [(l.drained_of_ended hend).2] at hlen
  exact absurd hpos (Nat.not_lt.mpr hlen)

theorem whole_write (l : ForwardLoop sent) (n : Nat) :
    l.written ++ l.buf.take n ++ l.buf.drop n ++ l.unread = sent := by
  rw [List.append_assoc l.written, List.take_append_drop]
  exact l.whole

theorem drained_write (l : ForwardLoop sent) (n : Nat) (hend : l.ended = true) :
    l.buf.drop n = [] ∧ l.unread = [] := by
  obtain ⟨hbuf, hunread⟩ := l.drained_of_ended hend
  rw [hbuf, List.drop_nil]
  exact ⟨rfl, hunread⟩

/-- One step of the loop, with a buffer of `size` bytes. -/
def step (size : Nat) (l : ForwardLoop sent) : CopyEvent → Option (ForwardLoop sent)
  | .read n =>
      if h : l.buf = [] ∧ 0 < n ∧ n ≤ l.unread.length ∧ n ≤ size then
        some {
          written := l.written
          buf := l.unread.take n
          unread := l.unread.drop n
          ended := l.ended
          whole := l.whole_read h.1 n
          drained_of_ended := l.drained_read h.2.1 h.2.2.1 }
      else none
  | .eof =>
      if h : l.buf = [] ∧ l.unread = [] then
        some { l with ended := true, drained_of_ended := fun _ => h }
      else none
  | .write n =>
      if 0 < n ∧ n ≤ l.buf.length then
        some {
          written := l.written ++ l.buf.take n
          buf := l.buf.drop n
          unread := l.unread
          ended := l.ended
          whole := l.whole_write n
          drained_of_ended := l.drained_write n }
      else none

/-- How much the loop has still to do. -/
def rank (l : ForwardLoop sent) : Nat :=
  2 * l.unread.length + l.buf.length + if l.ended then 0 else 1

theorem written_prefix (l : ForwardLoop sent) : l.written <+: sent :=
  ⟨l.buf ++ l.unread, by rw [← List.append_assoc, l.whole]⟩

theorem written_of_ended {l : ForwardLoop sent} (h : l.ended = true) : l.written = sent := by
  obtain ⟨hbuf, hunread⟩ := l.drained_of_ended h
  have hwhole := l.whole
  rwa [hbuf, hunread, List.append_nil, List.append_nil] at hwhole

theorem step_written_mono {l l' : ForwardLoop sent} {e : CopyEvent}
    (h : l.step size e = some l') : l.written <+: l'.written := by
  cases e with
  | read n =>
    obtain ⟨_, heq⟩ := Option.dite_none_right_eq_some.mp h
    cases heq
    exact List.prefix_rfl
  | eof =>
    obtain ⟨_, heq⟩ := Option.dite_none_right_eq_some.mp h
    cases heq
    exact List.prefix_rfl
  | write n =>
    obtain ⟨-, heq⟩ := Option.ite_none_right_eq_some.mp h
    cases heq
    exact List.prefix_append _ _

theorem step_progress (hsize : 0 < size) (l : ForwardLoop sent) (h : l.ended = false) :
    ∃ e l', l.step size e = some l' ∧ l'.rank < l.rank := by
  by_cases hbuf : l.buf = []
  · by_cases hunread : l.unread = []
    · refine ⟨.eof, _, dif_pos ⟨hbuf, hunread⟩, ?_⟩
      simp [rank, h]
    · have hpos : 0 < l.unread.length := List.length_pos_iff.mpr hunread
      refine ⟨.read 1, _, dif_pos ⟨hbuf, Nat.one_pos, hpos, hsize⟩, ?_⟩
      simp only [rank, hbuf, List.length_take, List.length_drop, List.length_nil]
      omega
  · have hpos : 0 < l.buf.length := List.length_pos_iff.mpr hbuf
    refine ⟨.write l.buf.length, _, if_pos ⟨hpos, Nat.le_refl _⟩, ?_⟩
    simp only [rank, List.length_drop]
    omega

end ForwardLoop

/-- A loop of `handle_tcp_stream` with a buffer that has room for a byte. -/
def forwardPump (size : Nat) (hsize : 0 < size) (sent : Bytes) : Pump CopyEvent sent where
  State := ForwardLoop sent
  start := .start sent
  step := ForwardLoop.step size
  written := ForwardLoop.written
  finished := ForwardLoop.ended
  rank := ForwardLoop.rank
  written_start := rfl
  written_prefix := ForwardLoop.written_prefix
  written_mono := ForwardLoop.step_written_mono
  written_of_finished _ h := ForwardLoop.written_of_ended h
  progress := ForwardLoop.step_progress hsize

end Ruproxy.Tunnel
