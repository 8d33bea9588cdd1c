/-
This file describes arrays of characters. They hold UTF-16 code units in column-major
order, so the two halves of a surrogate pair lie in neighbouring columns of one row.
-/

import MatFormat.Array.Info
import MatFormat.Interleave
import MatFormat.Text.Utf16

namespace MatFormat

/-- An array of code units. -/
structure CharArray where
  info : ArrayInfo
  units : List CodeUnit
deriving DecidableEq, Repr

namespace CharArray

/-! ### Construction -/

/-- An array with its code units in column-major order. -/
def ofUnits (name : String) (dimensions : List Nat) (units : List CodeUnit) :
    Except Error CharArray := do
  let info ← ArrayInfo.create name dimensions
  info.checkCount units.length
  pure { info, units }

/-- One row with the code units of a text. -/
def ofText (name : String) (text : String) : Except Error CharArray :=
  let units := Utf16.encode text
  ofUnits name [1, units.length] units

/-- A matrix with one text to a row; all must have the same number of code units. -/
def ofRows (name : String) (texts : List String) : Except Error CharArray :=
  let rows := texts.map Utf16.encode
  let width := (rows.headD []).length
  match rows.find? fun row => row.length != width with
  | some odd => .error (.dimensionMismatch name width odd.length)
  | none => ofUnits name [rows.length, width] (interleave width rows)

/-! ### Access -/

/-- The code unit in a row and a column. -/
def get? (array : CharArray) (row column : Nat) : Option CodeUnit := do
  array.units[← array.info.shape.index? row column]?

/-- Replace the code unit in a row and a column. -/
def set? (array : CharArray) (row column : Nat) (unit : CodeUnit) : Option CharArray := do
  let index ← array.info.shape.index? row column
  if index < array.units.length then some { array with units := array.units.set index unit }
  else none

/-- The code units of a row. -/
def rowUnits (array : CharArray) (row : Nat) : List CodeUnit :=
  let units := array.units.toArray
  (List.range array.info.shape.columns).map fun column =>
    units[row + column * array.info.shape.rows]?.getD 0

/-- The text of a row. -/
def row? (array : CharArray) (row : Nat) : Option String :=
  if row < array.info.shape.rows then some (Utf16.decodeLossy (array.rowUnits row)) else none

/-- The texts of all rows. -/
def rows (array : CharArray) : List String :=
  (List.range array.info.shape.rows).filterMap array.row?

/-- The text of an array: a headline, then each row in quotes. -/
def text (array : CharArray) : String :=
  array.info.headline .char ++ String.join (array.rows.map fun row => s!"\t'{row}'\n")

end CharArray

end MatFormat
