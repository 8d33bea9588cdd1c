/-
This file says that a recursion comes to its end. A recursion is given by the step that it makes,
a function of what it calls itself for. Making the step a number of times, one inside the other,
leaves open only what calls deeper than that would give; where the result does not depend on it,
no such call is made, and the recursion has ended by then. It does end where every call is for a
smaller input, and a function that counts its calls down gives the same result wherever it is
given enough of them.
-/

import Mathlib.Logic.Function.Iterate

namespace MatFormat

variable {Input Output : Type} {step : (Input → Output) → Input → Output}

/-- A recursion gives an output after making at most a number of calls inside each other. -/
def EndsWithin (step : (Input → Output) → Input → Output) (calls : Nat) (input : Input)
    (output : Output) : Prop :=
  ∀ beyond : Input → Output, step^[calls] beyond input = output

/-- Every call that a step makes is for an input that is smaller by a width at least. -/
def Descends (step : (Input → Output) → Input → Output) (size : Input → Nat) (width : Nat) : Prop :=
  ∀ (input : Input) (first second : Input → Output),
    (∀ smaller, size smaller + width ≤ size input → first smaller = second smaller) →
    step first input = step second input

namespace EndsWithin

variable {calls more : Nat} {input : Input} {output other : Output}

/-- A recursion that has ended does not go on. -/
theorem mono (ends : EndsWithin step calls input output) (enough : calls ≤ more) :
    EndsWithin step more input output := by
  intro beyond
  obtain ⟨spare, rfl⟩ := Nat.exists_eq_add_of_le enough
  rw [Function.iterate_add_apply]
  exact ends _

/-- A recursion gives one output only. -/
theorem unique (first : EndsWithin step calls input output)
    (second : EndsWithin step more input other) : output = other :=
  ((first.mono (Nat.le_max_left calls more)) fun _ => output).symm.trans
    ((second.mono (Nat.le_max_right calls more)) fun _ => output)

end EndsWithin

namespace Descends

variable {size : Input → Nat} {width : Nat}

/-- Calls for inputs of falling sizes cannot go on for longer than the size allows. -/
theorem iterate_congr (descends : Descends step size width) {calls : Nat} {input : Input}
    (enough : size input < width * calls) (first second : Input → Output) :
    step^[calls] first input = step^[calls] second input := by
  induction calls generalizing input with
  | zero => exact absurd enough (Nat.not_lt_zero _)
  | succ calls inductionHypothesis =>
    rw [Function.iterate_succ_apply', Function.iterate_succ_apply']
    refine descends input _ _ fun smaller below => inductionHypothesis ?_
    rw [Nat.mul_succ] at enough
    omega

/-- A recursion that ends at all ends as soon as the size of the input allows. -/
theorem endsWithin (descends : Descends step size width) {calls deep : Nat} {input : Input}
    {output : Output} (ends : EndsWithin step deep input output)
    (enough : size input < width * calls) : EndsWithin step calls input output := by
  have early : EndsWithin step calls input (step^[calls] (fun _ => output) input) :=
    fun beyond => descends.iterate_congr enough beyond _
  rwa [ends.unique early]

/-- A function that counts the calls down gives what the recursion ends with, if it does so where
no calls are left. -/
theorem endsWithin_counted (descends : Descends step size width) (positive : 0 < width)
    {counted : Nat → Input → Output} (next : ∀ count, counted (count + 1) = step (counted count))
    {slack spare : Nat}
    (last : ∀ input, size input ≤ slack → EndsWithin step spare input (counted 0 input))
    {count : Nat} {input : Input} (enough : size input ≤ count + slack) :
    EndsWithin step (count + spare) input (counted count input) := by
  induction count generalizing input with
  | zero =>
    rw [Nat.zero_add] at enough ⊢
    exact last input enough
  | succ count inductionHypothesis =>
    intro beyond
    rw [Nat.succ_add, Function.iterate_succ_apply', next]
    refine descends input _ _ fun smaller below => inductionHypothesis ?_ beyond
    omega

end Descends

end MatFormat
