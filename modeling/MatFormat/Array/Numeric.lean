/-
This file describes dense arrays of numbers. The values lie in column-major order, in one
run of real parts and, for a complex array, one run of imaginary parts.
-/

import MatFormat.Array.Info
import MatFormat.Checked.Computation
import MatFormat.Interleave

namespace MatFormat

/-- A dense array of one numeric class. -/
structure NumericArray (numericClass : NumericClass) where
  info : ArrayInfo
  real : List numericClass.Value
  imag : Option (List numericClass.Value) := none
deriving DecidableEq, Repr

namespace NumericArray

variable {numericClass : NumericClass}

/-! ### Construction -/

/-- A real array with its values in column-major order. -/
def ofList (name : String) (dimensions : List Nat) (real : List numericClass.Value) :
    Except Error (NumericArray numericClass) := do
  let info ← ArrayInfo.create name dimensions
  info.checkCount real.length
  pure { info, real }

/-- A complex array with both parts in column-major order. -/
def ofParts (name : String) (dimensions : List Nat) (real imag : List numericClass.Value) :
    Except Error (NumericArray numericClass) := do
  let info ← ArrayInfo.create name dimensions
  info.checkCount real.length
  info.checkCount imag.length
  pure { info := info.setComplex true, real, imag := some imag }

/-- A real array of zeros. -/
def zeros (name : String) (dimensions : List Nat) :
    Checked.Computation (NumericArray numericClass) := do
  let info ← Checked.lift (ArrayInfo.create name dimensions)
  Checked.reserve info.shape.count numericClass.size
  pure { info, real := List.replicate info.shape.count 0 }

/-- A matrix with a given number of rows from its values in column-major order. -/
def ofColumns (name : String) (values : List numericClass.Value) (rows : Nat) :
    Except Error (NumericArray numericClass) :=
  if rows = 0 ∨ values.length % rows ≠ 0 then
    .error (.invalidArray name (.rowCount values.length rows))
  else ofList name [rows, values.length / rows] values

/-- A matrix from its rows, which must be of one length. -/
def ofRows (name : String) (rows : List (List numericClass.Value)) :
    Except Error (NumericArray numericClass) :=
  let width := (rows.headD []).length
  match rows.find? fun row => row.length != width with
  | some odd => .error (.dimensionMismatch name width odd.length)
  | none => ofList name [rows.length, width] (interleave width rows)

/-! ### Access -/

/-- Whether the array has imaginary parts. -/
def isComplex (array : NumericArray numericClass) : Bool := array.imag.isSome

/-- The real part in a row and a column. -/
def get? (array : NumericArray numericClass) (row column : Nat) : Option numericClass.Value := do
  let index ← array.info.shape.index? row column
  array.real[index]?

/-- The imaginary part in a row and a column. -/
def getImag? (array : NumericArray numericClass) (row column : Nat) :
    Option numericClass.Value := do
  let index ← array.info.shape.index? row column
  (← array.imag)[index]?

/-- Replace the real part at a place in column-major order. -/
def putReal? (array : NumericArray numericClass) (index : Nat) (value : numericClass.Value) :
    Option (NumericArray numericClass) :=
  if index < array.real.length then some { array with real := array.real.set index value }
  else none

/-- Replace the imaginary part at a place in column-major order. -/
def putImag? (array : NumericArray numericClass) (index : Nat) (value : numericClass.Value) :
    Option (NumericArray numericClass) := do
  let imag ← array.imag
  if index < imag.length then some { array with imag := some (imag.set index value) } else none

/-- Replace the real part in a row and a column. -/
def set? (array : NumericArray numericClass) (row column : Nat) (value : numericClass.Value) :
    Option (NumericArray numericClass) := do
  array.putReal? (← array.info.shape.index? row column) value

/-- Replace the imaginary part in a row and a column. -/
def setImag? (array : NumericArray numericClass) (row column : Nat)
    (value : numericClass.Value) : Option (NumericArray numericClass) := do
  array.putImag? (← array.info.shape.index? row column) value

/-- The array with the flag of logical arrays. -/
def markLogical (array : NumericArray numericClass) : NumericArray numericClass :=
  { array with info := array.info.setLogical true }

/-! ### Comparison and text -/

/-- Two arrays are the same when they agree in everything, where values that are not
numbers count as one value. -/
def same (first second : NumericArray numericClass) : Bool :=
  first.info == second.info && numericClass.sameRun first.real second.real
    && numericClass.sameRun? first.imag second.imag

/-- The texts of all values in column-major order, each with its imaginary part behind a
plus sign if there is one. -/
def valueTexts (array : NumericArray numericClass) : List String :=
  match array.imag with
  | none => array.real.map numericClass.text
  | some imag =>
    List.zipWith (fun real imag => s!"{numericClass.text real}+{numericClass.text imag}i")
      array.real imag

/-- The text of an array: a headline, then a line for each row. -/
def text (array : NumericArray numericClass) : String :=
  let texts := array.valueTexts.toArray
  let rows := array.info.shape.rows
  let line (row : Nat) : String :=
    "\t" ++ String.join ((List.range array.info.shape.columns).map fun column =>
      texts[row + column * rows]?.getD "" ++ "\t") ++ "\n"
  array.info.headline (.numeric numericClass) ++ String.join ((List.range rows).map line)

end NumericArray

end MatFormat
