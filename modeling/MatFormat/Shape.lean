/-
This file describes the shapes of arrays. A shape has at least two dimensions, and every
running product of its dimensions, and of those after the first, fits in 64 bits, so no
count or index that is computed from it can overflow. Elements lie in column-major order:
the first dimension varies fastest.
-/

import MatFormat.Error

namespace MatFormat

/-- The number of values a 64-bit count can take. -/
def countLimit : Nat := 2 ^ 64

/-- The product of a list of numbers. -/
def product : List Nat → Nat
  | [] => 1
  | first :: rest => first * product rest

/-- Whether `start` and its running products with the numbers of a list stay below the
limit. -/
def productsFit (start : Nat) : List Nat → Bool
  | [] => decide (start < countLimit)
  | first :: rest => decide (start < countLimit) && productsFit (start * first) rest

/-- The dimensions of an array. -/
structure Shape where
  dimensions : List Nat
  rank_ge_two : 2 ≤ dimensions.length
  counts_fit : productsFit 1 dimensions = true
  columns_fit : productsFit 1 dimensions.tail = true
deriving DecidableEq, Repr

namespace Shape

/-- The shape with the given dimensions, or the reason why there is none. -/
def ofDimensions (dimensions : List Nat) : Except Invalidity Shape :=
  if rank : 2 ≤ dimensions.length then
    if counts : productsFit 1 dimensions = true then
      if columns : productsFit 1 dimensions.tail = true then
        .ok ⟨dimensions, rank, counts, columns⟩
      else .error (.elementCount dimensions)
    else .error (.elementCount dimensions)
  else .error (.rank dimensions)

/-- The number of rows. -/
def rows (shape : Shape) : Nat := shape.dimensions.headD 0

/-- The number of columns, where every dimension after the first counts into it. -/
def columns (shape : Shape) : Nat := product shape.dimensions.tail

/-- The number of elements. -/
def count (shape : Shape) : Nat := product shape.dimensions

/-- The place of the element in a row and a column. -/
def index? (shape : Shape) (row column : Nat) : Option Nat :=
  if row < shape.rows ∧ column < shape.columns then some (row + column * shape.rows) else none

/-- The place of a position in column-major order, one coordinate to a dimension. -/
def placeOf? : (dimensions position : List Nat) → Option Nat
  | [], [] => some 0
  | dimension :: dimensions, coordinate :: position =>
    if coordinate < dimension then
      (placeOf? dimensions position).map fun place => coordinate + dimension * place
    else none
  | _, _ => none

/-- The place of the element at a position with one coordinate to a dimension. -/
def linearIndex? (shape : Shape) (position : List Nat) : Option Nat :=
  placeOf? shape.dimensions position

theorem ofDimensions_dimensions (shape : Shape) : ofDimensions shape.dimensions = .ok shape := by
  simp [ofDimensions, shape.rank_ge_two, shape.counts_fit, shape.columns_fit]

theorem dimensions_of_ofDimensions {dimensions : List Nat} {shape : Shape}
    (built : ofDimensions dimensions = .ok shape) : shape.dimensions = dimensions := by
  unfold ofDimensions at built
  split at built <;> try contradiction
  split at built <;> try contradiction
  split at built <;> try contradiction
  cases built
  rfl

theorem count_eq (shape : Shape) : shape.count = shape.rows * shape.columns := by
  have rank := shape.rank_ge_two
  unfold count rows columns
  match shape.dimensions, rank with
  | first :: rest, _ => rfl

end Shape

/-- The dimensions as a text, with a cross between them. -/
def crossed (dimensions : List Nat) : String :=
  String.intercalate "x" (dimensions.map toString)

end MatFormat
