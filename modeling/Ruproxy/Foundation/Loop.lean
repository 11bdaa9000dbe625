/-
  Foundation/Loop.lean --- `while` loops turn by turn.

  A loop of the source is a body on the state of its variables: a turn goes on with
  another state or leaves the loop.  `loop` runs a number of turns and says so when they
  are not enough.  A recursive function that unrolls the same body is what the loop
  computes, in as many turns as a measure of the state allows.
-/
import Ruproxy.Foundation.Outcome

set_option autoImplicit false

namespace Ruproxy.Foundation

open Outcome

variable {σ ε α : Type}

/-- How a turn of a loop ends. -/
inductive Turn (σ α : Type) where
  | next (s : σ)
  | exit (a : α)

/-- What `f` makes of the rest of a loop. -/
def Turn.continue (f : σ → Outcome ε α) : Turn σ α → Outcome ε α
  | .next s => f s
  | .exit a => ok a

/-- A loop that takes at most `turns` turns; `none` if it has not ended by then. -/
def loop (body : σ → Outcome ε (Turn σ α)) : Nat → σ → Option (Outcome ε α)
  | 0, _ => none
  | turns + 1, s =>
      match body s with
      | ok (.next s) => loop body turns s
      | ok (.exit a) => some (ok a)
      | err e => some (err e)
      | .panic => some .panic

/-- A step of a body that is unrolled. -/
theorem bind_continue {β : Type} {x : Outcome ε β} {g : β → Outcome ε α}
    {body : β → Outcome ε (Turn σ α)} {f : σ → Outcome ε α}
    (h : ∀ b, g b = body b >>= Turn.continue f) : x >>= g = (x >>= body) >>= Turn.continue f := by
  cases x with
  | ok b => exact h b
  | err e => rfl
  | panic => rfl

/-- **Loops.**  If every turn that goes on lowers a measure, then the loop ends within as
many turns as the measure says, with the value of the function that unrolls it. -/
theorem loop_eq_of_measure {body : σ → Outcome ε (Turn σ α)} (f : σ → Outcome ε α)
    (μ : σ → Nat) (hunroll : ∀ s, f s = body s >>= Turn.continue f)
    (hdec : ∀ s s', body s = ok (.next s') → μ s' < μ s) (turns : Nat) (s : σ)
    (hturns : μ s < turns) : loop body turns s = some (f s) := by
  induction turns generalizing s with
  | zero => exact absurd hturns (Nat.not_lt_zero _)
  | succ turns ih =>
    rw [loop, hunroll s]
    cases hbody : body s with
    | ok t =>
      cases t with
      | next s' => exact ih s' (Nat.lt_of_lt_of_le (hdec s s' hbody) (Nat.le_of_lt_succ hturns))
      | exit a => rfl
    | err e => rfl
    | panic => rfl

end Ruproxy.Foundation
