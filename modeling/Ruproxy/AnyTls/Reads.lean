/-
  AnyTls/Reads.lean --- calls of `StreamConn::read`, one after another.

  What the calls give is what the chunks hold, in order.  An empty chunk gives nothing
  and is given as nothing, so the calls that return it cannot be told from those at the
  end of the stream.
-/
import Ruproxy.AnyTls.Stream

set_option autoImplicit false

namespace Ruproxy.AnyTls

open Ruproxy.Foundation

namespace StreamConn

/-- The bytes that were sent into a stream and not read. -/
def held (s : StreamConn) : Bytes := s.buf ++ s.rx.flatten

/-- What a `read` returns is the front of `buf`, the front of the next chunk, or
nothing once the sender is gone. -/
theorem read_cases {s s' : StreamConn} {len : Nat} {out : Bytes}
    (h : s.read len = some (out, s')) :
    (s.buf ≠ [] ∧ out = s.buf.take len ∧ s' = { s with buf := s.buf.drop len }) ∨
      (∃ data rx, s.buf = [] ∧ s.rx = data :: rx ∧ out = data.take len ∧
        s' = { s with rx := rx, buf := data.drop len }) ∨
      (s.buf = [] ∧ s.rx = [] ∧ s.rxOpen = false ∧ out = [] ∧ s' = s) := by
  unfold read at h
  split at h
  · rename_i hbuf
    cases h
    exact .inl ⟨hbuf, rfl, rfl⟩
  · rename_i hbuf
    have hnil : s.buf = [] := not_not.mp hbuf
    split at h
    · rename_i hrx
      split at h
      · cases h
      · rename_i hopen
        cases h
        exact .inr (.inr ⟨hnil, hrx, Bool.eq_false_iff.mpr hopen, rfl, rfl⟩)
    · rename_i rx hrx
      cases h
      refine .inr (.inl ⟨[], rx, hnil, hrx, List.take_nil.symm, ?_⟩)
      rw [List.drop_nil, ← hnil]
    · rename_i data rx _ hrx
      cases h
      exact .inr (.inl ⟨data, rx, hnil, hrx, rfl, rfl⟩)

/-- A `read` with a non-empty buffer that returns 0 has taken an empty chunk, or the
sender is gone. -/
theorem read_zero_cases {s s' : StreamConn} {len : Nat} (hlen : 0 < len)
    (h : s.read len = some ([], s')) :
    s.buf = [] ∧ ((∃ rx, s.rx = [] :: rx) ∨ (s.rx = [] ∧ s.rxOpen = false)) := by
  rcases read_cases h with ⟨hbuf, htake, -⟩ | ⟨data, rx, hbuf, hrx, htake, -⟩ |
    ⟨hbuf, hrx, hopen, -, -⟩
  · rw [eq_comm, List.take_eq_nil_iff] at htake
    exact absurd (htake.resolve_left (Nat.ne_of_gt hlen)) hbuf
  · rw [eq_comm, List.take_eq_nil_iff] at htake
    obtain rfl := htake.resolve_left (Nat.ne_of_gt hlen)
    exact ⟨hbuf, .inl ⟨rx, hrx⟩⟩
  · exact ⟨hbuf, .inr ⟨hrx, hopen⟩⟩

/-- A `read` takes what it returns from the front, and no more than one chunk. -/
theorem read_takes {s s' : StreamConn} {len : Nat} {out : Bytes}
    (h : s.read len = some (out, s')) :
    out ++ s'.held = s.held ∧ s'.rx <:+ s.rx ∧ s'.rxOpen = s.rxOpen := by
  rcases read_cases h with ⟨-, rfl, rfl⟩ | ⟨data, rx, hbuf, hrx, rfl, rfl⟩ | ⟨-, -, -, rfl, rfl⟩
  · refine ⟨?_, List.suffix_rfl, rfl⟩
    rw [held, held, ← List.append_assoc, List.take_append_drop]
  · refine ⟨?_, hrx ▸ List.suffix_cons data rx, rfl⟩
    rw [held, held, hbuf, hrx, ← List.append_assoc, List.take_append_drop]
    rfl
  · exact ⟨rfl, List.suffix_rfl, rfl⟩

/-- The end mark behind chunks that are not empty is the only empty chunk. -/
theorem eq_nil_of_endMark {chunks front rest : List Bytes} (h : [] ∉ chunks)
    (heq : chunks ++ [[]] = front ++ [] :: rest) : rest = [] := by
  rcases List.eq_nil_or_concat rest with rfl | ⟨l, x, rfl⟩
  · rfl
  · have hsplit : chunks ++ [[]] = (front ++ [] :: l) ++ [x] := by
      rw [heq]
      simp
    have hfront := List.append_inj_left' hsplit rfl
    exact absurd (hfront ▸ List.mem_append_right front List.mem_cons_self) h

/-! ## Many calls -/

/-- `read` into buffers of these sizes: what each call returns, and the stream after
them; `none` where one of them waits. -/
def reads : StreamConn → List Nat → Option (List Bytes × StreamConn)
  | s, [] => some ([], s)
  | s, len :: lens =>
      (s.read len).bind fun r => (reads r.2 lens).map fun rs => (r.1 :: rs.1, rs.2)

theorem reads_cons_eq_some {s t : StreamConn} {len : Nat} {lens : List Nat} {outs : List Bytes} :
    s.reads (len :: lens) = some (outs, t) ↔
      ∃ out s' outs', s.read len = some (out, s') ∧ s'.reads lens = some (outs', t) ∧
        outs = out :: outs' := by
  simp only [reads, Option.bind_eq_some_iff, Option.map_eq_some_iff, Prod.exists, Prod.mk.injEq]
  constructor
  · rintro ⟨out, s', hread, outs', t', hreads, rfl, rfl⟩
    exact ⟨out, s', outs', hread, hreads, rfl⟩
  · rintro ⟨out, s', outs', hread, hreads, rfl⟩
    exact ⟨out, s', hread, outs', t, hreads, rfl, rfl⟩

/-- Many calls take what they return from the front. -/
theorem reads_take {s t : StreamConn} {lens : List Nat} {outs : List Bytes}
    (h : s.reads lens = some (outs, t)) :
    outs.flatten ++ t.held = s.held ∧ t.rx <:+ s.rx ∧ t.rxOpen = s.rxOpen := by
  induction lens generalizing s outs with
  | nil =>
    cases h
    exact ⟨rfl, List.suffix_rfl, rfl⟩
  | cons len lens ih =>
    obtain ⟨out, s', outs', hread, hreads, rfl⟩ := reads_cons_eq_some.mp h
    obtain ⟨hheld, hrx, hopen⟩ := read_takes hread
    obtain ⟨hheld', hrx', hopen'⟩ := ih hreads
    refine ⟨?_, hrx'.trans hrx, hopen'.trans hopen⟩
    rw [List.flatten_cons, List.append_assoc, hheld', hheld]

theorem reads_append {s t u : StreamConn} {lens lens' : List Nat} {outs outs' : List Bytes}
    (h : s.reads lens = some (outs, t)) (h' : t.reads lens' = some (outs', u)) :
    s.reads (lens ++ lens') = some (outs ++ outs', u) := by
  induction lens generalizing s outs with
  | nil =>
    cases h
    exact h'
  | cons len lens ih =>
    obtain ⟨out, s', outs'', hread, hreads, rfl⟩ := reads_cons_eq_some.mp h
    exact reads_cons_eq_some.mpr ⟨out, s', outs'' ++ outs', hread, ih hreads, rfl⟩

/-- A large enough `read` empties `buf`. -/
theorem exists_reads_buf (s : StreamConn) :
    ∃ lens outs, s.reads lens = some (outs, { s with buf := [] }) := by
  obtain ⟨rx, rxOpen, buf⟩ := s
  rcases eq_or_ne buf [] with rfl | hbuf
  · exact ⟨[], [], rfl⟩
  · refine ⟨[buf.length], [buf], ?_⟩
    simp [reads, read, hbuf]

/-- One such `read` more for each chunk empties the stream as far as one likes. -/
theorem exists_reads_drain {s : StreamConn} {front rest : List Bytes}
    (hrx : s.rx = front ++ rest) :
    ∃ lens outs, s.reads lens = some (outs, ⟨rest, s.rxOpen, []⟩) := by
  induction front generalizing s with
  | nil =>
    obtain ⟨lens, outs, hreads⟩ := s.exists_reads_buf
    refine ⟨lens, outs, ?_⟩
    rw [hreads, hrx]
    rfl
  | cons data front ih =>
    obtain ⟨lens, outs, hreads⟩ := s.exists_reads_buf
    have hchunk : StreamConn.reads { s with buf := [] } [data.length + 1] =
        some ([data], ⟨front ++ rest, s.rxOpen, []⟩) := by
      rw [hrx]
      cases data <;> simp [reads, read]
    obtain ⟨lens', outs', hreads'⟩ := ih (s := ⟨front ++ rest, s.rxOpen, []⟩) rfl
    exact ⟨lens ++ ([data.length + 1] ++ lens'), outs ++ ([data] ++ outs'),
      reads_append hreads (reads_append hchunk hreads')⟩

end StreamConn

end Ruproxy.AnyTls
