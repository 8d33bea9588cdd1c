/-
This file describes grids of values over a shape of any rank, and how they become numeric
arrays and come back. A grid gives a value at every position of its shape, whatever the
order in which the values were laid down. A numeric array lists the values with the first
coordinate varying fastest, and has at least two dimensions, so a grid of lower rank gains
dimensions of length one at the end.
-/

import MatFormat.Array.Basic

namespace MatFormat

/-- A value at every position of a shape, with one coordinate to a dimension. What the
function gives elsewhere is of no account. -/
structure Grid (Item : Type) where
  shape : List Nat
  value : (position : List Nat) → Item

/-! ### Positions -/

/-- The position at a place in row-major order, where the last coordinate varies fastest. -/
def positionOf : (shape : List Nat) → (place : Nat) → List Nat
  | [], _ => []
  | _ :: rest, place =>
    place / product rest :: positionOf rest (place % product rest)

/-- The place of a position in row-major order. -/
def rowMajorPlace : (shape position : List Nat) → Nat
  | _ :: rest, coordinate :: position =>
    coordinate * product rest + rowMajorPlace rest position
  | _, _ => 0

/-- Every position of a shape in row-major order. -/
def positions (shape : List Nat) : List (List Nat) :=
  (List.range (product shape)).map (positionOf shape)

namespace Grid

variable {Item : Type}

/-! ### Construction -/

/-- The grid with its values in row-major order. -/
def ofRowMajor [Inhabited Item] (shape : List Nat) (values : List Item) : Grid Item :=
  let values := values.toArray
  ⟨shape, fun position => values[rowMajorPlace shape position]?.getD default⟩

/-- The grid with its axes in opposite order. -/
def transpose (grid : Grid Item) : Grid Item :=
  ⟨grid.shape.reverse, fun position => grid.value position.reverse⟩

/-- The grid with its values in column-major order. -/
def ofColumnMajor [Inhabited Item] (shape : List Nat) (values : List Item) : Grid Item :=
  (ofRowMajor shape.reverse values).transpose

/-- The grid with one axis turned round. -/
def flip (grid : Grid Item) (axis : Nat) : Grid Item :=
  let length := grid.shape.getD axis 0
  ⟨grid.shape, fun position =>
    grid.value (position.modify axis fun coordinate => length - 1 - coordinate)⟩

/-! ### Listing -/

/-- The values in row-major order. -/
def rowMajor (grid : Grid Item) : List Item := (positions grid.shape).map grid.value

/-- The values in column-major order. -/
def columnMajor (grid : Grid Item) : List Item := grid.transpose.rowMajor

end Grid

/-! ### Numeric arrays -/

/-- Why a numeric array and a grid cannot be made of one another. -/
inductive GridError where
  | classMismatch (expected : NumericClass) (actual : ArrayClass)
  | overflow
  | outOfBounds
  | incompatibleShape
  | invalid (error : Error)
deriving DecidableEq, Repr

/-- The text of what went wrong. -/
def GridError.message : GridError → String
  | classMismatch expected actual =>
    s!"class mismatch: expected {(ArrayClass.numeric expected).name}, got {actual.name}"
  | overflow => "shape error: ShapeError/Overflow: arithmetic overflow"
  | outOfBounds => "shape error: ShapeError/OutOfBounds: out of bounds indexing"
  | incompatibleShape => "shape error: ShapeError/IncompatibleShape: incompatible shapes"
  | invalid error => error.message

/-- The dimensions of an array for a grid: those of the grid, filled up with ones to a rank
of two. -/
def Grid.arrayDimensions (shape : List Nat) : List Nat :=
  shape ++ List.replicate (2 - shape.length) 1

/-- The number of values of a signed 64-bit count that are not negative. -/
def gridLimit : Nat := 2 ^ 63

/-- Whether a grid can have this shape: its axes that are not of length zero must not span
too many positions. -/
def fitsGrid (shape : List Nat) : Bool :=
  decide (product (shape.filter fun length => length != 0) < gridLimit)

/-- Accept a shape that a grid can have with exactly one value for each position. -/
def Grid.checkRun (shape : List Nat) (count : Nat) : Except GridError Unit :=
  if fitsGrid shape then
    if count < product shape then .error .outOfBounds
    else if product shape < count then .error .incompatibleShape
    else .ok ()
  else .error .overflow

namespace NumericArray

variable {numericClass : NumericClass}

/-- The real array with the values of a grid. -/
def ofGrid (name : String) (grid : Grid numericClass.Value) :
    Except Error (NumericArray numericClass) :=
  ofList name (Grid.arrayDimensions grid.shape) grid.columnMajor

/-- The complex array with the values of two grids. Only the counts are compared. -/
def ofGrids (name : String) (real imag : Grid numericClass.Value) :
    Except Error (NumericArray numericClass) :=
  ofParts name (Grid.arrayDimensions real.shape) real.columnMajor imag.columnMajor

/-- The grid of a run of values of the array. -/
def gridOf (array : NumericArray numericClass) (values : List numericClass.Value) :
    Except GridError (Grid numericClass.Value) := do
  let shape := array.info.shape.dimensions
  Grid.checkRun shape values.length
  pure (.ofColumnMajor shape values)

/-- The grid of the real parts. -/
def grid (array : NumericArray numericClass) : Except GridError (Grid numericClass.Value) :=
  array.gridOf array.real

/-- The grid of the imaginary parts, if there are any. -/
def imagGrid (array : NumericArray numericClass) :
    Except GridError (Option (Grid numericClass.Value)) :=
  match array.imag with
  | none => .ok none
  | some imag => (array.gridOf imag).map some

end NumericArray

/-- The grid of the real parts of an array, which must be numeric of the given class. -/
def MatArray.grid (array : MatArray) (wanted : NumericClass) :
    Except GridError (Grid wanted.Value) :=
  match array.asNumeric? wanted with
  | some found => found.grid
  | none => .error (.classMismatch wanted array.arrayClass)

end MatFormat
