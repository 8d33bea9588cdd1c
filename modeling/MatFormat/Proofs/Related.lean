/-
This file compares two outcomes step by step. They are related if both fail with faults that
go together or both have values that do. Sequences are related if their first steps are and
the rests are for all values that go together, so two readers that are built alike are
compared along their definitions.
-/

import MatFormat.Proofs.Outcome

namespace MatFormat

/-- Two outcomes fail with faults that go together, or have values that do. -/
inductive Related {FirstFault SecondFault First Second : Type}
    (faults : FirstFault → SecondFault → Prop) (values : First → Second → Prop) :
    Except FirstFault First → Except SecondFault Second → Prop where
  | error {first : FirstFault} {second : SecondFault} (together : faults first second) :
    Related faults values (.error first) (.error second)
  | ok {first : First} {second : Second} (together : values first second) :
    Related faults values (.ok first) (.ok second)

namespace Related

variable {FirstFault SecondFault First Second FirstNext SecondNext : Type}
  {faults : FirstFault → SecondFault → Prop} {values : First → Second → Prop}
  {nextValues : FirstNext → SecondNext → Prop}

/-- Sequences are related step by step. -/
theorem bind {first : Except FirstFault First} {second : Except SecondFault Second}
    {firstRest : First → Except FirstFault FirstNext}
    {secondRest : Second → Except SecondFault SecondNext}
    (steps : Related faults values first second)
    (rests : ∀ firstValue secondValue, values firstValue secondValue →
      Related faults nextValues (firstRest firstValue) (secondRest secondValue)) :
    Related faults nextValues (first >>= firstRest) (second >>= secondRest) := by
  cases steps with
  | error together => exact .error together
  | ok together => exact rests _ _ together

/-- Choices on conditions that agree are related if the outcomes on both sides are. -/
theorem ite {condition other : Prop} [Decidable condition] [Decidable other]
    {firstThen firstElse : Except FirstFault First}
    {secondThen secondElse : Except SecondFault Second} (same : condition ↔ other)
    (yes : condition → Related faults values firstThen secondThen)
    (no : ¬ condition → Related faults values firstElse secondElse) :
    Related faults values (if condition then firstThen else firstElse)
      (if other then secondThen else secondElse) := by
  by_cases holds : condition
  · rw [if_pos holds, if_pos (same.mp holds)]
    exact yes holds
  · rw [if_neg holds, if_neg fun otherHolds => holds (same.mpr otherHolds)]
    exact no holds

/-- The values that go together are those of the outcomes. -/
theorem known {first : Except FirstFault First} {second : Except SecondFault Second}
    (related : Related faults values first second) :
    Related faults (fun firstValue secondValue => values firstValue secondValue ∧
      first = .ok firstValue ∧ second = .ok secondValue) first second := by
  cases related with
  | error together => exact .error together
  | ok together => exact .ok ⟨together, rfl, rfl⟩

end Related

end MatFormat
