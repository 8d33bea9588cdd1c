/-
This file shows arrays of any class as text. Cells are listed from place zero with the
dimensions and the class of what they hold.
-/

import MatFormat.Array.Basic

namespace MatFormat

/-- One line for a cell. -/
def CellArray.line (cell : Option MatArray × Nat) : String :=
  match cell with
  | (some array, index) =>
    s!"\t\x7b{index}\x7d: [{crossed array.dimensions} {array.arrayClass.name}]\n"
  | (none, index) => s!"\t\x7b{index}\x7d: []\n"

/-- The text of an array of cells: a headline, then a line for each cell. -/
def CellArray.text (array : CellArray MatArray) : String :=
  array.info.headline .cell ++ String.join (array.cells.zipIdx.map CellArray.line)

/-- The text of an array. -/
def MatArray.text : MatArray → String
  | numeric _ array => array.text
  | char array => array.text
  | cell array => array.text
  | struct array => array.text
  | sparse array => array.text

end MatFormat
