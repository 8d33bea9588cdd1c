/-
This file describes arrays of cells, each of which holds an item or is unset. The cells lie
in column-major order.
-/

import MatFormat.Array.Info
import MatFormat.Checked.Computation

namespace MatFormat

/-- An array of cells. -/
structure CellArray (Item : Type) where
  info : ArrayInfo
  cells : List (Option Item)
deriving DecidableEq, Repr

namespace CellArray

variable {Item : Type}

/-- An array with all cells unset, where a cell takes `slotSize` bytes in memory. -/
def unset (slotSize : Nat) (name : String) (dimensions : List Nat) :
    Checked.Computation (CellArray Item) := do
  let info ← Checked.lift (ArrayInfo.create name dimensions)
  Checked.reserve info.shape.count slotSize
  pure { info, cells := List.replicate info.shape.count none }

/-- An array with the given cells in column-major order. -/
def ofList (name : String) (dimensions : List Nat) (cells : List (Option Item)) :
    Except Error (CellArray Item) := do
  let info ← ArrayInfo.create name dimensions
  info.checkCount cells.length
  pure { info, cells }

/-- The item at a place in column-major order. -/
def get? (array : CellArray Item) (index : Nat) : Option Item :=
  (array.cells[index]?).join

/-- The item in a row and a column. -/
def at? (array : CellArray Item) (row column : Nat) : Option Item := do
  array.get? (← array.info.shape.index? row column)

/-- Replace a cell, and give back what it held. -/
def set (array : CellArray Item) (index : Nat) (cell : Option Item) :
    Except Error (Option Item × CellArray Item) :=
  if index < array.cells.length then
    .ok (array.get? index, { array with cells := array.cells.set index cell })
  else .error (.invalidArray array.info.name (.cellIndex index array.cells.length))

/-- Unset a cell, and give back what it held. A place outside the array holds nothing. -/
def take (array : CellArray Item) (index : Nat) : Option Item × CellArray Item :=
  (array.get? index, { array with cells := array.cells.set index none })

/-- Change the item in a cell, if there is one. -/
def modify? (array : CellArray Item) (index : Nat) (change : Item → Item) :
    Option (CellArray Item) := do
  let item ← array.get? index
  pure { array with cells := array.cells.set index (some (change item)) }

end CellArray

end MatFormat
