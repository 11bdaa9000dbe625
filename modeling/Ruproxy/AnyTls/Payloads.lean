/-
  AnyTls/Payloads.lean --- what a stream should get, read off the frames alone.

  An instance of a stream is a SYN in a list of frames; what is for it are the PSH frames
  with its id behind the SYN, up to the next FIN or SYN with this id.
-/
import Ruproxy.AnyTls.Session

set_option autoImplicit false

namespace Ruproxy.AnyTls

open Ruproxy.Foundation

/-! ## Frames and payloads -/

/-- FIN or SYN with the id: no later frame is for an earlier stream of that id. -/
def Frame.Ends (f : Frame) (sid : UInt32) : Prop :=
  f.streamId = sid ∧ (f.cmd = cmdFin ∨ f.cmd = cmdSyn)

/-- PSH with the id. -/
def Frame.Carries (f : Frame) (sid : UInt32) : Prop :=
  f.streamId = sid ∧ f.cmd = cmdPsh

instance (f : Frame) (sid : UInt32) : Decidable (f.Ends sid) :=
  inferInstanceAs (Decidable (_ ∧ _))

instance (f : Frame) (sid : UInt32) : Decidable (f.Carries sid) :=
  inferInstanceAs (Decidable (_ ∧ _))

theorem Frame.Carries.not_ends {f : Frame} {sid : UInt32} (h : f.Carries sid)
    (sid' : UInt32) : ¬ f.Ends sid' := by
  rintro ⟨-, hcmd | hcmd⟩
  · exact absurd (h.2.symm.trans hcmd) (by decide)
  · exact absurd (h.2.symm.trans hcmd) (by decide)

/-- The chunks that are not the end mark of a stream. -/
def nonEmpty (chunks : List Bytes) : List Bytes :=
  chunks.filter fun c => c ≠ []

@[simp] theorem nonEmpty_append (c d : List Bytes) :
    nonEmpty (c ++ d) = nonEmpty c ++ nonEmpty d :=
  List.filter_append ..

@[simp] theorem nonEmpty_endMark : nonEmpty [[]] = [] := rfl

/-- The non-empty payloads for the id, up to the first frame that ends it. -/
def payloads (sid : UInt32) (fs : List Frame) : List Bytes :=
  nonEmpty
    (((fs.takeWhile fun f => ¬ f.Ends sid).filter fun f => f.Carries sid).map Frame.data)

@[simp] theorem payloads_nil (sid : UInt32) : payloads sid [] = [] := rfl

/-- Nothing is added after the end. -/
theorem payloads_append_of_ended {sid : UInt32} {fs gs : List Frame}
    (h : ∃ g ∈ fs, g.Ends sid) : payloads sid (fs ++ gs) = payloads sid fs := by
  obtain ⟨g, hg, hends⟩ := h
  have hshort : (fs.takeWhile fun f => ¬ f.Ends sid).length ≠ fs.length := by
    intro hlen
    have hall := List.takeWhile_eq_self_iff.mp ((List.takeWhile_prefix _).eq_of_length hlen)
    exact absurd hends (by simpa using hall g hg)
  rw [payloads, List.takeWhile_append, if_neg hshort, ← payloads]

theorem payloads_append_of_open {sid : UInt32} {fs gs : List Frame}
    (h : ∀ g ∈ fs, ¬ g.Ends sid) :
    payloads sid (fs ++ gs) = payloads sid fs ++ payloads sid gs := by
  have hall : fs.takeWhile (fun f => ¬ f.Ends sid) = fs :=
    List.takeWhile_eq_self_iff.mpr fun g hg => by simpa using h g hg
  simp only [payloads]
  rw [List.takeWhile_append, if_pos (congrArg _ hall), hall, List.filter_append,
    List.map_append, nonEmpty_append]

theorem payloads_singleton_of_carries {sid : UInt32} {f : Frame} (h : f.Carries sid) :
    payloads sid [f] = nonEmpty [f.data] := by
  simp [payloads, h, h.not_ends]

theorem payloads_singleton_of_not_carries {sid : UInt32} {f : Frame}
    (h : ¬ f.Carries sid) : payloads sid [f] = [] := by
  by_cases hends : f.Ends sid
  · simp [payloads, hends, nonEmpty]
  · simp [payloads, hends, h, nonEmpty]

/-! ## Instances -/

/-- The frame at the position is a SYN with a SETTINGS frame before it. -/
def OpenedAt (handled : List Frame) (p : Nat) : Prop :=
  ∃ f, handled[p]? = some f ∧ f.cmd = cmdSyn ∧ ∃ g ∈ handled.take p, g.cmd = cmdSettings

/-- The frame at the position has the id, and no later one ends it. -/
def Live (handled : List Frame) (p : Nat) (sid : UInt32) : Prop :=
  ∃ f, handled[p]? = some f ∧ f.streamId = sid ∧ ∀ g ∈ handled.drop (p + 1), ¬ g.Ends sid

instance (handled : List Frame) (p : Nat) (sid : UInt32) : Decidable (Live handled p sid) :=
  inferInstanceAs (Decidable (∃ f, f ∈ handled[p]? ∧ _))

theorem Live.lt {handled : List Frame} {p : Nat} {sid : UInt32} (h : Live handled p sid) :
    p < handled.length := by
  obtain ⟨f, hf, -⟩ := h
  exact (List.getElem?_eq_some_iff.mp hf).1

theorem Live.id_eq {handled : List Frame} {p : Nat} {sid sid' : UInt32}
    (h : Live handled p sid) (h' : Live handled p sid') : sid = sid' := by
  obtain ⟨f, hf, rfl, -⟩ := h
  obtain ⟨f', hf', rfl, -⟩ := h'
  rw [hf] at hf'
  cases hf'
  rfl

theorem live_snoc_iff {handled : List Frame} {p : Nat} {sid : UInt32} {f : Frame}
    (hp : p < handled.length) :
    Live (handled ++ [f]) p sid ↔ Live handled p sid ∧ ¬ f.Ends sid := by
  have hdrop : (handled ++ [f]).drop (p + 1) = handled.drop (p + 1) ++ [f] :=
    List.drop_append_of_le_length hp
  simp only [Live, List.getElem?_append_left hp, hdrop, List.mem_append, List.mem_singleton,
    or_imp, forall_and, forall_eq]
  constructor
  · rintro ⟨g, hg, hid, hno, hf⟩
    exact ⟨⟨g, hg, hid, hno⟩, hf⟩
  · rintro ⟨⟨g, hg, hid, hno⟩, hf⟩
    exact ⟨g, hg, hid, hno, hf⟩

theorem live_length_iff {handled : List Frame} {sid : UInt32} {f : Frame} :
    Live (handled ++ [f]) handled.length sid ↔ f.streamId = sid := by
  simp [Live]

theorem openedAt_snoc_iff {handled : List Frame} {p : Nat} {f : Frame}
    (hp : p < handled.length) : OpenedAt (handled ++ [f]) p ↔ OpenedAt handled p := by
  simp only [OpenedAt, List.getElem?_append_left hp,
    List.take_append_of_le_length (Nat.le_of_lt hp)]

theorem openedAt_length_iff {handled : List Frame} {f : Frame} :
    OpenedAt (handled ++ [f]) handled.length ↔
      f.cmd = cmdSyn ∧ ∃ g ∈ handled, g.cmd = cmdSettings := by
  simp [OpenedAt]

theorem not_openedAt_of_le {handled : List Frame} {p : Nat} (h : handled.length ≤ p) :
    ¬ OpenedAt handled p := by
  rintro ⟨f, hf, -⟩
  rw [List.getElem?_eq_none h] at hf
  cases hf

end Ruproxy.AnyTls
