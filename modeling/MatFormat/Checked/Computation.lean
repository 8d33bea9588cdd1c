/-
This file says what stops a computation. An error is a value that the caller gets. A trap is not:
an operation has no result, and the computation ends there. One trap is a vector that would take
more bytes than any vector has; how much memory there is, and how deep a stack may grow, is left
out.
-/

import MatFormat.Error

namespace MatFormat

namespace Checked

/-- Why a computation cannot go on. -/
inductive Trap where
  | overflow
  | underflow
  | zeroDivisor
  | zeroWidth
  | outside
  | capacity
  | unfinished
deriving DecidableEq, Repr

/-- What stops a computation: an error that the caller gets, or a trap. -/
inductive Stop where
  | error (error : Error)
  | trap (trap : Trap)
deriving DecidableEq, Repr

/-- A computation that may stop. -/
abbrev Computation (Value : Type) : Type := Except Stop Value

variable {Value : Type}

/-- Stop with an error. -/
def fail (error : Error) : Computation Value := .error (.error error)

/-- Stop with a trap. -/
def stuck (trap : Trap) : Computation Value := .error (.trap trap)

/-- An outcome in which nothing is computed. -/
def lift : Except Error Value → Computation Value
  | .ok value => .ok value
  | .error error => fail error

/-- The number of bytes that no vector reaches. -/
def allocationLimit : Nat := 2 ^ 63

/-- Make room for a number of items of a size. -/
def reserve (count size : Nat) : Computation Unit :=
  if count * size < allocationLimit then pure () else stuck .capacity

end Checked

end MatFormat
