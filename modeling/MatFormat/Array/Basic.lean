/-
This file joins the kinds of arrays into one type, the arrays of a file. Cells and the slots
of fields hold arrays in turn. An unnamed double array of no rows and no columns without
flags is what an unset slot is written as, so storing that array leaves the slot unset.
-/

import MatFormat.Array.Cell
import MatFormat.Array.Char
import MatFormat.Array.Numeric
import MatFormat.Array.Sparse
import MatFormat.Array.Struct

namespace MatFormat

/-- An array of any class. -/
inductive MatArray where
  | numeric (numericClass : NumericClass) (array : NumericArray numericClass)
  | char (array : CharArray)
  | cell (array : CellArray MatArray)
  | struct (array : StructArray MatArray)
  | sparse (array : SparseArray)

namespace MatArray

/-- The name, the shape and the flags of the array. -/
def info : MatArray → ArrayInfo
  | numeric _ array => array.info
  | char array => array.info
  | cell array => array.info
  | struct array => array.info
  | sparse array => array.info

/-- Change the name, the shape or the flags of the array. -/
def modifyInfo (change : ArrayInfo → ArrayInfo) : MatArray → MatArray
  | numeric numericClass array => numeric numericClass { array with info := change array.info }
  | char array => char { array with info := change array.info }
  | cell array => cell { array with info := change array.info }
  | struct array => struct { array with info := change array.info }
  | sparse array => sparse { array with info := change array.info }

theorem info_modifyInfo (change : ArrayInfo → ArrayInfo) (array : MatArray) :
    (array.modifyInfo change).info = change array.info := by
  cases array <;> rfl

/-- The name of the array. -/
def name (array : MatArray) : String := array.info.name

/-- The dimensions of the array. -/
def dimensions (array : MatArray) : List Nat := array.info.shape.dimensions

/-- The same array under another name. -/
def rename (array : MatArray) (name : String) : MatArray :=
  array.modifyInfo fun info => info.rename name

/-- Set or clear the flag of global arrays. -/
def setGlobal (array : MatArray) (global : Bool) : MatArray :=
  array.modifyInfo fun info => info.setGlobal global

/-- Set or clear the flag of logical arrays. -/
def setLogical (array : MatArray) (logical : Bool) : MatArray :=
  array.modifyInfo fun info => info.setLogical logical

/-- The class of the array. -/
def arrayClass : MatArray → ArrayClass
  | numeric numericClass _ => .numeric numericClass
  | char _ => .char
  | cell _ => .cell
  | struct array => array.arrayClass
  | sparse _ => .sparse

/-! ### Views of one kind -/

/-- The numeric array of a class, if the array is one. -/
def asNumeric? (wanted : NumericClass) : MatArray → Option (NumericArray wanted)
  | numeric numericClass array =>
    if same : numericClass = wanted then some (same ▸ array) else none
  | _ => none

/-- The array of characters, if the array is one. -/
def asChar? : MatArray → Option CharArray
  | char array => some array
  | _ => none

/-- The array of cells, if the array is one. -/
def asCell? : MatArray → Option (CellArray MatArray)
  | cell array => some array
  | _ => none

/-- The struct array, if the array is one. -/
def asStruct? : MatArray → Option (StructArray MatArray)
  | struct array => some array
  | _ => none

/-- The sparse matrix, if the array is one. -/
def asSparse? : MatArray → Option SparseArray
  | sparse array => some array
  | _ => none

/-! ### Slots -/

/-- Whether the array is the one that an unset slot is written as. -/
def isPlaceholder : MatArray → Bool
  | numeric .double array =>
    array.info.name == "" && array.info.shape.dimensions == [0, 0] && array.info.flags == {}
  | _ => false

/-- A slot with the array stored in it. -/
def toSlot (array : MatArray) : Option MatArray :=
  if array.isPlaceholder then none else some array

end MatArray

/-- An array of cells that hold the given arrays in column-major order. -/
def CellArray.ofArrays (name : String) (dimensions : List Nat) (cells : List (Option MatArray)) :
    Except Error (CellArray MatArray) :=
  CellArray.ofList name dimensions (cells.map fun cell => cell.bind MatArray.toSlot)

/-- Store an array in a cell, and give back what the cell held. -/
def CellArray.store (cells : CellArray MatArray) (index : Nat) (array : MatArray) :
    Except Error (Option MatArray × CellArray MatArray) :=
  cells.set index array.toSlot

/-- Store an array in the slot of a field at an element, and give back what the slot held. -/
def StructArray.store (struct : StructArray MatArray) (slotSize : Nat) (field : String)
    (index : Nat) (array : MatArray) :
    Checked.Computation (Option MatArray × StructArray MatArray) :=
  struct.set slotSize field index array.toSlot

end MatFormat
