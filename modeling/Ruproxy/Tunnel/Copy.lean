/-
  Tunnel/Copy.lean --- `tokio::io::copy`.

  The loop reads into a buffer and writes out of it until its reader is at its end.  A
  `CopyLoop` carries the account of where each byte of the reader is, so that a loop that
  returns without an error has written all of them.
-/
import Ruproxy.Foundation.Bytes

set_option autoImplicit false

namespace Ruproxy.Tunnel

open Ruproxy.Foundation

/-! ## One copy loop -/

/-- The buffer of a `tokio::io::copy`. -/
def copyBufferSize : Nat := 8192

/-- A `tokio::io::copy` between a reader that gives `sent` and then its end, and a
writer. -/
structure CopyLoop (sent : Bytes) where
  /-- what the writer took -/
  written : Bytes
  /-- read and not yet written -/
  buf : Bytes
  /-- what the reader has still to give -/
  unread : Bytes
  readDone : Bool
  whole : written ++ buf ++ unread = sent
  unread_of_readDone : readDone = true → unread = []

namespace CopyLoop

variable {sent : Bytes}

/-- Before the first poll. -/
def start (sent : Bytes) : CopyLoop sent where
  written := []
  buf := []
  unread := sent
  readDone := false
  whole := rfl
  unread_of_readDone := fun h => nomatch h

/-- `poll_read` gives `n` bytes, which fit into the buffer. -/
def read (l : CopyLoop sent) (n : Nat) : Option (CopyLoop sent) :=
  if 0 < n ∧ n ≤ l.unread.length ∧ l.buf.length + n ≤ copyBufferSize then
    some {
      written := l.written
      buf := l.buf ++ l.unread.take n
      unread := l.unread.drop n
      readDone := l.readDone
      whole := by
        rw [← List.append_assoc, List.append_assoc _ (l.unread.take n), List.take_append_drop]
        exact l.whole
      unread_of_readDone := fun h => by rw [l.unread_of_readDone h, List.drop_nil] }
  else
    none

/-- `poll_read` gives no byte: the reader is at its end. -/
def readEof (l : CopyLoop sent) : Option (CopyLoop sent) :=
  if hend : l.unread = [] then
    some { l with readDone := true, unread_of_readDone := fun _ => hend }
  else
    none

/-- `poll_write` takes `n` bytes of the buffer. -/
def write (l : CopyLoop sent) (n : Nat) : Option (CopyLoop sent) :=
  if 0 < n ∧ n ≤ l.buf.length then
    some {
      written := l.written ++ l.buf.take n
      buf := l.buf.drop n
      unread := l.unread
      readDone := l.readDone
      whole := by
        rw [List.append_assoc l.written, List.take_append_drop]
        exact l.whole
      unread_of_readDone := l.unread_of_readDone }
  else
    none

/-- The loop returns `Ok`: the reader is at its end and the buffer is empty. -/
def Finished (l : CopyLoop sent) : Prop := l.readDone = true ∧ l.buf = []

/-- Nothing is left to read or to write. -/
def Drained (l : CopyLoop sent) : Prop := l.unread = [] ∧ l.buf = []

instance (l : CopyLoop sent) : Decidable l.Finished := inferInstanceAs (Decidable (_ ∧ _))

instance (l : CopyLoop sent) : Decidable l.Drained := inferInstanceAs (Decidable (_ ∧ _))

theorem Finished.drained {l : CopyLoop sent} (h : l.Finished) : l.Drained :=
  ⟨l.unread_of_readDone h.1, h.2⟩

/-- All bytes were written exactly if none is left. -/
theorem written_eq_iff (l : CopyLoop sent) : l.written = sent ↔ l.Drained := by
  have hwhole : sent = l.written ++ (l.buf ++ l.unread) := by
    rw [← List.append_assoc, l.whole]
  constructor
  · intro h
    have hrest : l.buf ++ l.unread = [] := by
      rw [h] at hwhole
      exact List.self_eq_append_right.mp hwhole
    obtain ⟨hbuf, hunread⟩ := List.append_eq_nil_iff.mp hrest
    exact ⟨hunread, hbuf⟩
  · rintro ⟨hunread, hbuf⟩
    rw [hunread, hbuf, List.append_nil, List.append_nil] at hwhole
    exact hwhole.symm

theorem written_prefix (l : CopyLoop sent) : l.written <+: sent :=
  ⟨l.buf ++ l.unread, by rw [← List.append_assoc, l.whole]⟩

/-- The reader, which has not given its end, gives more. -/
def extend (l : CopyLoop sent) (hopen : l.readDone = false) (bs : Bytes) :
    CopyLoop (sent ++ bs) where
  written := l.written
  buf := l.buf
  unread := l.unread ++ bs
  readDone := l.readDone
  whole := by rw [← List.append_assoc, l.whole]
  unread_of_readDone := fun h => absurd h (by rw [hopen]; exact Bool.false_ne_true)

end CopyLoop

/-! ## What one step does -/

/-- A step of `tokio::io::copy`. -/
inductive CopyEvent where
  | read (n : Nat)
  | eof
  | write (n : Nat)
  deriving DecidableEq

section Step

variable {sent : Bytes}

/-- One step of a copy loop. -/
def copyStep (l : CopyLoop sent) : CopyEvent → Option (CopyLoop sent)
  | .read n => l.read n
  | .eof => l.readEof
  | .write n => l.write n

/-- How much a copy loop has still to do. -/
def copyRank (l : CopyLoop sent) : Nat :=
  2 * l.unread.length + l.buf.length + if l.readDone then 0 else 1

theorem copyStep_written_mono {l l' : CopyLoop sent} {e : CopyEvent}
    (h : copyStep l e = some l') : l.written <+: l'.written := by
  cases e with
  | read n =>
    obtain ⟨-, heq⟩ := Option.ite_none_right_eq_some.mp h
    cases heq
    exact List.prefix_rfl
  | eof =>
    obtain ⟨_, heq⟩ := Option.dite_none_right_eq_some.mp h
    cases heq
    exact List.prefix_rfl
  | write n =>
    obtain ⟨-, heq⟩ := Option.ite_none_right_eq_some.mp h
    cases heq
    exact List.prefix_append _ _

/-- A loop has read the end from a step on that reads it. -/
theorem copyStep_readDone {l l' : CopyLoop sent} {e : CopyEvent} (h : copyStep l e = some l')
    (hdone : l'.readDone = true) : e = .eof ∨ l.readDone = true := by
  cases e with
  | read n =>
    obtain ⟨-, heq⟩ := Option.ite_none_right_eq_some.mp h
    cases heq
    exact .inr hdone
  | eof => exact .inl rfl
  | write n =>
    obtain ⟨-, heq⟩ := Option.ite_none_right_eq_some.mp h
    cases heq
    exact .inr hdone

theorem copyStep_progress (l : CopyLoop sent) (h : ¬ l.Finished) :
    ∃ e l', copyStep l e = some l' ∧ copyRank l' < copyRank l := by
  by_cases hbuf : l.buf = []
  · by_cases hunread : l.unread = []
    · have hdone : l.readDone = false := Bool.eq_false_iff.mpr fun hdone => h ⟨hdone, hbuf⟩
      refine ⟨.eof, _, dif_pos hunread, ?_⟩
      simp [copyRank, hdone]
    · have hpos : 0 < l.unread.length := List.length_pos_iff.mpr hunread
      have hguard : 0 < 1 ∧ 1 ≤ l.unread.length ∧ l.buf.length + 1 ≤ copyBufferSize := by
        rw [hbuf]
        exact ⟨Nat.one_pos, hpos, by decide⟩
      refine ⟨.read 1, _, if_pos hguard, ?_⟩
      simp only [copyRank, List.length_append, List.length_take, List.length_drop]
      omega
  · have hpos : 0 < l.buf.length := List.length_pos_iff.mpr hbuf
    refine ⟨.write l.buf.length, _, if_pos ⟨hpos, Nat.le_refl _⟩, ?_⟩
    simp only [copyRank, List.length_drop]
    omega

end Step

end Ruproxy.Tunnel
