/-
This file computes with machine numbers. A count is an unsigned 64-bit number and a vector
holds less than 2^63 bytes. An operation that has no result there stops the computation with
a trap: a sum or a product that is too large, a difference below zero, a division by zero, an
item or a slice outside of a run.
-/

import MatFormat.Checked.Computation
import MatFormat.Run
import MatFormat.Shape

namespace MatFormat

namespace Checked

variable {Item : Type}

/-- No slot of an array takes more bytes in memory. -/
def slotLimit : Nat := 2 ^ 31

/-- Bytes in memory. -/
structure Buffer where
  bytes : List UInt8
  fits : bytes.length < allocationLimit

/-! ### Numbers -/

/-- The sum of two counts. -/
def sum (first second : Nat) : Computation Nat :=
  if first + second < countLimit then pure (first + second) else stuck .overflow

/-- The difference of two counts. -/
def difference (first second : Nat) : Computation Nat :=
  if second ≤ first then pure (first - second) else stuck .underflow

/-- The product of two counts. -/
def product (first second : Nat) : Computation Nat :=
  if first * second < countLimit then pure (first * second) else stuck .overflow

/-- The quotient of two counts. -/
def quotient (first second : Nat) : Computation Nat :=
  if second = 0 then stuck .zeroDivisor else pure (first / second)

/-- The remainder of two counts. -/
def remainder (first second : Nat) : Computation Nat :=
  if second = 0 then stuck .zeroDivisor else pure (first % second)

/-- The product of a count with all counts of a list, one after the other. -/
def runningProduct (start : Nat) : List Nat → Computation Nat
  | [] => pure start
  | first :: rest => do
    let next ← product start first
    runningProduct next rest

/-! ### Runs -/

/-- The item at a place of a run. -/
def item (items : List Item) (place : Nat) : Computation Item :=
  match items[place]? with
  | some found => pure found
  | none => stuck .outside

/-- The items of a run from a place up to another. -/
def slice (items : List Item) (start stop : Nat) : Computation (List Item) :=
  if start ≤ stop ∧ stop ≤ items.length then pure ((items.drop start).take (stop - start))
  else stuck .outside

/-- The items of a run before the first that passes a test. -/
def before (test : Item → Bool) (items : List Item) : Computation (List Item) :=
  slice items 0 (items.findIdx test)

/-- The pieces of one width that a run is cut into. -/
def chunks (width : Nat) (items : List Item) : Computation (List (List Item)) :=
  if width = 0 then stuck .zeroWidth else pure (pieces width (items.length / width) items)

end Checked

end MatFormat
