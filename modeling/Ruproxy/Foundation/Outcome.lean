/-
  Foundation/Outcome.lean --- fallible computations that can panic.

  A function of the source ends in one of three ways: it returns a value, it
  returns an error, or an index or an `unwrap` goes wrong and the task panics.
  `Outcome` keeps the three apart, so that "never panics" is a statement about
  the value of a function, and `bind_eq_panic` says where in a sequence of steps
  a panic can come from.
-/
import Ruproxy.Foundation.Bytes

set_option autoImplicit false

namespace Ruproxy.Foundation

/-- How a call ends. -/
inductive Outcome (ε α : Type) where
  | ok (value : α)
  | err (error : ε)
  | panic
  deriving DecidableEq

namespace Outcome

variable {ε α β : Type}

/-- One step after another: an error and a panic both end the sequence. -/
def andThen (x : Outcome ε α) (f : α → Outcome ε β) : Outcome ε β :=
  match x with
  | ok a => f a
  | err e => err e
  | panic => panic

instance : Monad (Outcome ε) where
  pure := ok
  bind := andThen

@[simp] theorem pure_eq_ok (a : α) : (pure a : Outcome ε α) = ok a := rfl

@[simp] theorem ok_bind (a : α) (f : α → Outcome ε β) : ok a >>= f = f a := rfl

@[simp] theorem err_bind (e : ε) (f : α → Outcome ε β) : err e >>= f = err e := rfl

@[simp] theorem panic_bind (f : α → Outcome ε β) : (panic : Outcome ε α) >>= f = panic := rfl

/-- A sequence panics in its first step or, on the value of that, in the rest. -/
theorem bind_eq_panic {x : Outcome ε α} {f : α → Outcome ε β} :
    x >>= f = panic ↔ x = panic ∨ ∃ a, x = ok a ∧ f a = panic := by
  cases x with
  | ok a => simp
  | err e => simp
  | panic => simp

/-- A sequence returns what the rest makes of the value of the first step. -/
theorem bind_eq_ok {x : Outcome ε α} {f : α → Outcome ε β} {b : β} :
    x >>= f = ok b ↔ ∃ a, x = ok a ∧ f a = ok b := by
  cases x with
  | ok a => simp
  | err e => simp
  | panic => simp

/-- A check in front of a computation. -/
theorem guard_eq_ok {c : Prop} [Decidable c] {e : ε} {x : Outcome ε α} {a : α} :
    (if c then err e else x) = ok a ↔ ¬ c ∧ x = ok a := by
  split
  · rename_i hc
    simp [hc]
  · rename_i hc
    simp [hc]

/-- When the rest never panics, only the first step can. -/
theorem bind_ne_panic_iff {x : Outcome ε α} {f : α → Outcome ε β}
    (hf : ∀ a, f a ≠ panic) : x >>= f ≠ panic ↔ x ≠ panic := by
  cases x with
  | ok a => simpa using hf a
  | err e => simp
  | panic => simp

/-- When neither the first step nor the rest panics, the sequence does not. -/
theorem bind_ne_panic {x : Outcome ε α} {f : α → Outcome ε β} (hx : x ≠ panic)
    (hf : ∀ a, x = ok a → f a ≠ panic) : x >>= f ≠ panic := by
  intro h
  rcases bind_eq_panic.mp h with h | ⟨a, ha, h⟩
  · exact hx h
  · exact hf a ha h

/-- The same outcome with the error in a context. -/
def mapErr {δ : Type} (f : ε → δ) : Outcome ε α → Outcome δ α
  | ok a => ok a
  | err e => err (f e)
  | panic => panic

theorem mapErr_eq_ok {δ : Type} {f : ε → δ} {x : Outcome ε α} {a : α} :
    x.mapErr f = ok a ↔ x = ok a := by
  cases x with
  | ok b => simp [mapErr]
  | err e => simp [mapErr]
  | panic => simp [mapErr]

theorem mapErr_ne_panic {δ : Type} {f : ε → δ} {x : Outcome ε α} (h : x ≠ panic) :
    x.mapErr f ≠ panic := by
  cases x with
  | ok b => simp [mapErr]
  | err e => simp [mapErr]
  | panic => exact absurd rfl h

/-! ## Results on less and on more input -/

/-- Where the first computation returns a value, so does the second one. -/
def Below (x y : Outcome ε α) : Prop := ∀ a, x = ok a → y = ok a

theorem Below.refl (x : Outcome ε α) : x.Below x := fun _ h => h

theorem below_err (e : ε) (y : Outcome ε α) : (err e).Below y := fun _ h => by cases h

theorem Below.bind {x y : Outcome ε α} {f g : α → Outcome ε β} (h : x.Below y)
    (hfg : ∀ a, (f a).Below (g a)) : (x >>= f).Below (y >>= g) := by
  intro b hb
  obtain ⟨a, ha, hfa⟩ := bind_eq_ok.mp hb
  rw [h a ha, ok_bind]
  exact hfg a b hfa

/-- A check that the second computation fails only if the first one does. -/
theorem below_guard {c d : Prop} [Decidable c] [Decidable d] (hcd : d → c) {e : ε}
    {x y : Outcome ε α} (h : x.Below y) :
    (if c then err e else x).Below (if d then err e else y) := by
  split
  · exact below_err _ _
  · rename_i hc
    rw [if_neg fun hd => hc (hcd hd)]
    exact h

/-! ## Options and results -/

/-- `?` on an error that carries `e`. -/
def orErr (e : ε) : Option α → Outcome ε α
  | some a => ok a
  | none => err e

/-- `unwrap`. -/
def unwrap : Option α → Outcome ε α
  | some a => ok a
  | none => panic

@[simp] theorem orErr_some (e : ε) (a : α) : orErr e (some a) = ok a := rfl

@[simp] theorem orErr_none (e : ε) : orErr e (none : Option α) = err e := rfl

@[simp] theorem unwrap_some (a : α) : (unwrap (some a) : Outcome ε α) = ok a := rfl

@[simp] theorem unwrap_none : (unwrap (none : Option α) : Outcome ε α) = panic := rfl

@[simp] theorem orErr_ne_panic (e : ε) (o : Option α) : orErr e o ≠ panic := by
  cases o with
  | none => simp
  | some a => simp

theorem unwrap_eq_ok {o : Option α} {a : α} : (unwrap o : Outcome ε α) = ok a ↔ o = some a := by
  cases o with
  | none => simp
  | some b => simp

theorem orErr_eq_ok {e : ε} {o : Option α} {a : α} : orErr e o = ok a ↔ o = some a := by
  cases o with
  | none => simp
  | some b => simp

/-! ## Indices and slices -/

/-- `b[i]`. -/
def index (b : Bytes) (i : Nat) : Outcome ε UInt8 := unwrap b[i]?

/-- `b[i..j]`. -/
def slice (b : Bytes) (i j : Nat) : Outcome ε Bytes :=
  if i ≤ j ∧ j ≤ b.length then ok ((b.drop i).take (j - i)) else panic

/-- `<[u8; n]>::try_from(b)`. -/
def tryInto (n : Nat) (b : Bytes) : Option (Vector UInt8 n) :=
  if h : b.length = n then some ⟨b.toArray, h⟩ else none

theorem index_of_lt {b : Bytes} {i : Nat} (h : i < b.length) :
    (index b i : Outcome ε UInt8) = ok b[i] := by
  rw [index, List.getElem?_eq_getElem h, unwrap_some]

theorem slice_of_le {b : Bytes} {i j : Nat} (hij : i ≤ j) (hj : j ≤ b.length) :
    (slice b i j : Outcome ε Bytes) = ok ((b.drop i).take (j - i)) := by
  rw [slice, if_pos ⟨hij, hj⟩]

theorem slice_of_lt {b : Bytes} {i j : Nat} (hj : b.length < j) :
    (slice b i j : Outcome ε Bytes) = panic := by
  rw [slice, if_neg fun h => Nat.not_lt_of_le h.2 hj]

theorem index_eq_ok {b : Bytes} {i : Nat} {x : UInt8} :
    (index b i : Outcome ε UInt8) = ok x ↔ b[i]? = some x := by
  cases h : b[i]? with
  | none => simp [index, h]
  | some y => simp [index, h]

theorem index_ne_panic {b : Bytes} {i : Nat} (h : i < b.length) :
    (index b i : Outcome ε UInt8) ≠ panic := by
  rw [index_of_lt h]
  simp

theorem slice_eq_ok {b c : Bytes} {i j : Nat} :
    (slice b i j : Outcome ε Bytes) = ok c ↔
      (i ≤ j ∧ j ≤ b.length) ∧ (b.drop i).take (j - i) = c := by
  unfold slice
  split
  · rename_i h
    simp [h]
  · rename_i h
    simp [h]

theorem slice_ne_panic {b : Bytes} {i j : Nat} (hij : i ≤ j) (hj : j ≤ b.length) :
    (slice b i j : Outcome ε Bytes) ≠ panic := by
  rw [slice_of_le hij hj]
  simp

/-- A byte of a prefix. -/
theorem index_below {a b : Bytes} (h : a <+: b) (i : Nat) :
    (index a i : Outcome ε UInt8).Below (index b i) := by
  intro x hx
  obtain ⟨t, rfl⟩ := h
  obtain ⟨hlt, -⟩ := List.getElem?_eq_some_iff.mp (index_eq_ok.mp hx)
  rw [index_eq_ok, List.getElem?_append_left hlt]
  exact index_eq_ok.mp hx

/-- A slice of a prefix. -/
theorem slice_below {a b : Bytes} (h : a <+: b) (i j : Nat) :
    (slice a i j : Outcome ε Bytes).Below (slice b i j) := by
  intro c hc
  obtain ⟨⟨hij, hj⟩, rfl⟩ := slice_eq_ok.mp hc
  exact slice_eq_ok.mpr ⟨⟨hij, hj.trans h.length_le⟩, take_drop_of_prefix h (by omega)⟩

theorem length_slice {b : Bytes} {i j : Nat} (hij : i ≤ j) (hj : j ≤ b.length) :
    ((b.drop i).take (j - i)).length = j - i := by
  rw [List.length_take, List.length_drop]
  omega

theorem tryInto_of_length {n : Nat} {b : Bytes} (h : b.length = n) :
    tryInto n b = some ⟨b.toArray, h⟩ := dif_pos h

theorem tryInto_eq_some {n : Nat} {b : Bytes} {v : Vector UInt8 n} :
    tryInto n b = some v ↔ v.toList = b := by
  unfold tryInto
  split
  · rename_i h
    rw [Option.some.injEq]
    constructor
    · rintro rfl
      rfl
    · rintro rfl
      apply Vector.toList_inj.mp
      rfl
  · rename_i h
    refine iff_of_false (by simp) ?_
    rintro rfl
    exact h v.length_toList

/-- A slice as long as the array it is read into. -/
theorem unwrap_tryInto_ne_panic {δ : Type} {b c : Bytes} {i n : Nat}
    (h : (slice b i (i + n) : Outcome δ Bytes) = ok c) :
    (unwrap (tryInto n c) : Outcome ε (Vector UInt8 n)) ≠ panic := by
  obtain ⟨⟨hij, hj⟩, rfl⟩ := slice_eq_ok.mp h
  have hlen : ((b.drop i).take (i + n - i)).length = n := by
    rw [length_slice hij hj, Nat.add_sub_cancel_left]
  rw [tryInto_of_length hlen]
  simp

end Outcome

/-! ## `Except`, where nothing panics -/

section Except

variable {δ ε α β : Type}

/-- A sequence returns what the rest makes of the value of the first step. -/
theorem Except.bind_eq_ok {x : Except ε α} {f : α → Except ε β} {b : β} :
    x >>= f = .ok b ↔ ∃ a, x = .ok a ∧ f a = .ok b := by
  cases x with
  | error e => simp [bind, Except.bind]
  | ok a => simp [bind, Except.bind]

theorem Except.map_eq_ok {f : α → β} {x : Except ε α} {b : β} :
    x.map f = .ok b ↔ ∃ a, x = .ok a ∧ f a = b := by
  cases x with
  | error e => simp [Except.map]
  | ok a => simp [Except.map]

theorem Except.mapError_eq_ok {f : ε → δ} {x : Except ε α} {a : α} :
    x.mapError f = .ok a ↔ x = .ok a := by
  cases x with
  | error e => simp [Except.mapError]
  | ok b => simp [Except.mapError]

theorem Except.toOption_eq_some {x : Except ε α} {a : α} : x.toOption = some a ↔ x = .ok a := by
  cases x with
  | error e => simp [Except.toOption]
  | ok b => simp [Except.toOption]

/-- Forgetting which error it is goes through a sequence. -/
theorem Except.toOption_bind (x : Except ε α) (f : α → Except ε β) :
    (x >>= f).toOption = x.toOption.bind fun a => (f a).toOption := by
  cases x with
  | error e => rfl
  | ok a => rfl

theorem Except.toOption_mapError (x : Except ε α) (f : ε → δ) :
    (x.mapError f).toOption = x.toOption := by
  cases x with
  | error e => rfl
  | ok a => rfl

end Except

end Ruproxy.Foundation
