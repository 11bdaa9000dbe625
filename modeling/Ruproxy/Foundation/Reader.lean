/-
  Foundation/Reader.lean --- parsers over a reader.

  A reader holds the bytes that are still to come in a form of its own: a cursor into a
  buffer, the chunks that a stream delivers.  A parser over it is compared with an
  abstract parser on the bytes: `Follows` says that it gives the value of the abstract
  parser and stops at the same place, fails where that fails, and never panics.  The
  rules take a parser apart read by read.
-/
import Ruproxy.Foundation.Outcome

set_option autoImplicit false

namespace Ruproxy.Foundation

open Outcome

/-! ## Readers -/

/-- A source of bytes with a `read_exact` that takes them from the front, or fails if there
are too few. -/
class Reader (σ : Type) where
  /-- the bytes to come -/
  rest : σ → Bytes
  readExact (n : Nat) : σ → Option (Vector UInt8 n × σ)
  readExact_rest : ∀ n s,
    (readExact n s).map (fun r => (r.1.toList, rest r.2)) = Foundation.readExact n (rest s)

/-- `std::io::Cursor` over the bytes `data`. -/
structure Cursor (data : Bytes) where
  pos : Nat
  pos_le : pos ≤ data.length

namespace Cursor

variable {data : Bytes}

/-- `Cursor::new`. -/
def new (data : Bytes) : Cursor data := ⟨0, Nat.zero_le _⟩

/-- The bytes behind the position. -/
def rest (c : Cursor data) : Bytes := data.drop c.pos

/-- `read_exact` of a cursor. -/
def readExact (n : Nat) (c : Cursor data) : Option (Vector UInt8 n × Cursor data) :=
  if h : c.pos + n ≤ data.length then
    some (⟨((data.drop c.pos).take n).toArray, by
      rw [List.size_toArray, List.length_take, List.length_drop]; omega⟩, ⟨c.pos + n, h⟩)
  else none

instance : Reader (Cursor data) where
  rest := rest
  readExact := readExact
  readExact_rest n c := by
    unfold Cursor.readExact Foundation.readExact rest
    have hle := c.pos_le
    by_cases h : c.pos + n ≤ data.length
    · rw [dif_pos h, if_pos (by rw [List.length_drop]; omega), Option.map_some, List.drop_drop]
      rfl
    · rw [dif_neg h, if_neg (by rw [List.length_drop]; omega), Option.map_none]

/-- The position tells how many bytes are left. -/
theorem pos_add_length_rest (c : Cursor data) : c.pos + c.rest.length = data.length := by
  have hle := c.pos_le
  rw [rest, List.length_drop]
  omega

end Cursor

/-- The receiving half of a stream, by the chunks that it is going to deliver. -/
structure RecvStream where
  chunks : List Bytes

/-- `read` until `n` bytes are there: a call takes what the chunk in front has, at most as
many bytes as are missing. -/
def readChunks : Nat → List Bytes → Option (Bytes × List Bytes)
  | n, [] => if n = 0 then some ([], []) else none
  | n, c :: cs =>
      if n ≤ c.length then some (c.take n, c.drop n :: cs)
      else (readChunks (n - c.length) cs).map fun r => (c ++ r.1, r.2)

/-- The chunks do not show in what is read. -/
theorem readChunks_flatten (n : Nat) (cs : List Bytes) :
    (readChunks n cs).map (fun r => (r.1, r.2.flatten)) = readExact n cs.flatten := by
  induction cs generalizing n with
  | nil =>
    unfold readChunks
    rcases Nat.eq_zero_or_pos n with rfl | hn
    · rfl
    · rw [if_neg (Nat.ne_of_gt hn), readExact, List.flatten_nil, List.length_nil,
        if_neg (Nat.not_le.mpr hn)]
      rfl
  | cons c cs ih =>
    unfold readChunks
    rw [List.flatten_cons]
    by_cases hn : n ≤ c.length
    · rw [if_pos hn, readExact, if_pos (by rw [List.length_append]; omega),
        List.take_append_of_le_length hn, List.drop_append_of_le_length hn]
      rfl
    · have hc : c.length ≤ n := Nat.le_of_not_le hn
      have hrest := ih (n - c.length)
      rw [if_neg hn, Option.map_map]
      unfold readExact at hrest ⊢
      rw [List.length_append]
      by_cases hlen : n - c.length ≤ cs.flatten.length
      · rw [if_pos hlen] at hrest
        obtain ⟨r, hr, hsplit⟩ := Option.map_eq_some_iff.mp hrest
        rw [if_pos (by omega), hr, Option.map_some, Function.comp_apply,
          (Prod.mk.inj hsplit).1, (Prod.mk.inj hsplit).2, List.take_append, List.drop_append,
          List.take_of_length_le hc, List.drop_of_length_le hc, List.nil_append]
      · rw [if_neg hlen] at hrest
        rw [if_neg (by omega), Option.map_eq_none_iff.mp hrest]
        rfl

/-- The bytes of the chunks. -/
def RecvStream.rest (s : RecvStream) : Bytes := s.chunks.flatten

/-- `read_exact` of a stream. -/
def RecvStream.readExact (n : Nat) (s : RecvStream) : Option (Vector UInt8 n × RecvStream) :=
  (readChunks n s.chunks).bind fun r => (tryInto n r.1).map fun v => (v, ⟨r.2⟩)

instance : Reader RecvStream where
  rest := RecvStream.rest
  readExact := RecvStream.readExact
  readExact_rest n s := by
    unfold RecvStream.rest
    rw [← readChunks_flatten, RecvStream.readExact]
    cases hread : readChunks n s.chunks with
    | none => rfl
    | some r =>
      have hlen : r.1.length = n := by
        have hsplit := readChunks_flatten n s.chunks
        rw [hread] at hsplit
        exact (readExact_eq_some.mp hsplit.symm).2
      obtain ⟨v, hv⟩ := exists_toList_eq hlen
      rw [Option.bind_some, tryInto_eq_some.mpr hv, Option.map_some, Option.map_some,
        Option.map_some, hv]

/-! ## Parsers -/

section Follows

variable {σ ε α β : Type} [Reader σ]

open Reader (rest)

/-- A parser over a reader does what an abstract parser does with the bytes to come. -/
def Follows (x : Outcome ε (α × σ)) (y : Option (α × Bytes)) : Prop :=
  match y with
  | some (a, r) => ∃ s, x = ok (a, s) ∧ rest s = r
  | none => ∃ e, x = err e

theorem follows_ok (a : α) (s : σ) : Follows (ok (a, s) : Outcome ε (α × σ)) (some (a, rest s)) :=
  ⟨s, rfl, rfl⟩

theorem follows_err (e : ε) : Follows (err e : Outcome ε (α × σ)) none := ⟨e, rfl⟩

/-- One parser behind another. -/
theorem Follows.bind {x : Outcome ε (α × σ)} {y : Option (α × Bytes)}
    {f : α × σ → Outcome ε (β × σ)} {g : α × Bytes → Option (β × Bytes)} (h : Follows x y)
    (hfg : ∀ a s, Follows (f (a, s)) (g (a, rest s))) : Follows (x >>= f) (y.bind g) := by
  cases y with
  | none =>
    obtain ⟨e, rfl⟩ := h
    exact ⟨e, rfl⟩
  | some r =>
    obtain ⟨a, b⟩ := r
    obtain ⟨s, rfl, rfl⟩ := h
    exact hfg a s

/-- A change of the error does not matter. -/
theorem Follows.mapErr {δ : Type} {x : Outcome ε (α × σ)} {y : Option (α × Bytes)}
    (h : Follows x y) (f : ε → δ) : Follows (x.mapErr f) y := by
  cases y with
  | none =>
    obtain ⟨e, rfl⟩ := h
    exact ⟨f e, rfl⟩
  | some r =>
    obtain ⟨s, rfl, hs⟩ := h
    exact ⟨s, rfl, hs⟩

/-- `read_exact` of an array, with the error for an early end. -/
def readArray (eof : ε) (n : Nat) (s : σ) : Outcome ε (Vector UInt8 n × σ) :=
  orErr eof (Reader.readExact n s)

/-- **Reads.**  A parser that reads an array goes on with the bytes that an abstract read
takes. -/
theorem follows_readArray_bind {eof : ε} {n : Nat} {s : σ}
    {f : Vector UInt8 n × σ → Outcome ε (β × σ)} {g : Bytes × Bytes → Option (β × Bytes)}
    (hfg : ∀ v s, Follows (f (v, s)) (g (v.toList, rest s))) :
    Follows (readArray eof n s >>= f) ((readExact n (rest s)).bind g) := by
  have hrest := Reader.readExact_rest n s
  unfold readArray
  cases hread : Reader.readExact n s with
  | none =>
    rw [hread] at hrest
    rw [← hrest]
    exact ⟨eof, rfl⟩
  | some r =>
    obtain ⟨v, s'⟩ := r
    rw [hread] at hrest
    rw [← hrest]
    exact hfg v s'

end Follows

end Ruproxy.Foundation
