/-
This file reads matrices with machine numbers. Column pointers, rows of a shape and windows
of two pointers are items of runs, field names are pieces of a run, and room for slots is made
before they are read. Nested matrices are read no deeper than a bound, and going on where the
bound is used up is a trap.
-/

import MatFormat.Checked.Element
import MatFormat.Matrix.Reader

namespace MatFormat

namespace Checked

/-! ### The head -/

/-- Read the head of a matrix. -/
def Window.matrixHead (payload : Window) : Computation (MatrixHead × Window) := do
  let start ← payload.offset
  let (part, window) ← payload.element
  let words ← part.values .uint32
  match words with
  | [attributes, capacity] =>
    let dimensionsOffset ← window.offset
    let (dimensions, window) ← window.indices
    if dimensions.length < 2 then
      fail (.malformed dimensionsOffset (.rank dimensions.length))
    else
      let (part, window) ← window.element
      let name ← part.name
      pure (⟨attributes.toNat % 256, Flags.ofWord attributes.toNat, capacity.toNat, dimensions,
        name, start⟩, window)
  | _ => fail (.malformed start (.flagWords words.length))

/-- What is known of an array before its body: with its shape the number of its elements and
that of its columns. -/
structure Metadata where
  info : ArrayInfo
  length : Nat
  columns : Nat

/-- The shape that the head of a matrix tells, with its counts. -/
def metadata (head : MatrixHead) : Computation Metadata :=
  match Shape.ofDimensions head.dimensions with
  | .error reason => fail (.malformed head.offset (.invalidArray head.name reason))
  | .ok shape => do
    let trailing ← slice head.dimensions 1 head.dimensions.length
    let length ← runningProduct 1 head.dimensions
    let columns ← runningProduct 1 trailing
    pure ⟨⟨head.name, shape, head.flags⟩, length, columns⟩

/-- The number of rows. -/
def Metadata.rows (metadata : Metadata) : Computation Nat :=
  item metadata.info.shape.dimensions 0

namespace Window

/-! ### Numbers and characters -/

/-- Read the values of a numeric array. -/
def numericBody (window : Window) (numericClass : NumericClass) (metadata : Metadata) :
    Computation (NumericArray numericClass × Window) := do
  let (part, window) ← window.element
  let real ← part.exactly numericClass metadata.length
  if metadata.info.flags.complex then
    let (part, window) ← window.element
    let imag ← part.exactly numericClass metadata.length
    pure ({ info := metadata.info, real, imag := some imag }, window)
  else pure ({ info := metadata.info, real }, window)

/-- Read the code units of an array of characters. -/
def charBody (window : Window) (metadata : Metadata) : Computation (CharArray × Window) := do
  let (part, window) ← window.element
  let units ← part.codeUnits metadata.length
  pure ({ info := metadata.info, units }, window)

/-! ### Nested arrays -/

/-- Read an element that must be a matrix, with the given reader for its payload. -/
def slot (window : Window) (nested : Window → Computation (Option MatArray)) :
    Computation (Option MatArray × Window) := do
  let offset ← window.offset
  let (part, window) ← window.element
  if part.tag.type ≠ .matrix then fail (.malformed offset (.nestedType part.tag.type))
  else
    let array ← nested part.payload
    pure (array, window)

/-- Read a number of slots, one after the other. -/
def slots (nested : Window → Computation (Option MatArray)) :
    (count : Nat) → (window : Window) → Computation (List (Option MatArray) × Window)
  | 0, window => pure ([], window)
  | count + 1, window => do
    let (first, window) ← window.slot nested
    let (rest, window) ← slots nested count window
    pure (first :: rest, window)

/-- Fail early where a number of slots cannot fit into the bytes that are left. -/
def checkSlots (window : Window) (count : Nat) : Computation Unit := do
  let needed := Cursor.saturatingProduct count tagSize
  let left ← window.remaining
  if left < needed then
    let offset ← window.offset
    let left ← window.remaining
    fail (.truncated offset needed left)
  else pure ()

/-- Read the cells of an array of cells into a vector with room for all of them, where one
slot takes `slotSize` bytes. -/
def cellBody (window : Window) (slotSize : Nat) (nested : Window → Computation (Option MatArray))
    (metadata : Metadata) : Computation (CellArray MatArray × Window) := do
  window.checkSlots metadata.length
  reserve metadata.length slotSize
  let (cells, window) ← slots nested metadata.length window
  pure ({ info := metadata.info, cells }, window)

/-- Read the names of the fields of a struct array. -/
def fieldNames (window : Window) : Computation (List String × Window) := do
  let offset ← window.offset
  let (part, window) ← window.element
  let lengths ← part.integers
  match lengths with
  | [length] =>
    if 0 < length then
      let (part, window) ← window.element
      let names ← part.fieldNames length.toNat
      pure (names, window)
    else fail (.malformed offset (.fieldNameLength lengths))
  | _ => fail (.malformed offset (.fieldNameLength lengths))

/-- Read one slot for every field, each into the vector of its field. -/
def round (nested : Window → Computation (Option MatArray)) :
    (fields : List (Field MatArray)) → (window : Window) →
      Computation (List (Field MatArray) × Window)
  | [], window => pure ([], window)
  | field :: rest, window => do
    let (first, window) ← window.slot nested
    let (rest, window) ← round nested rest window
    pure ({ field with slots := field.slots ++ [first] } :: rest, window)

/-- Read one slot for every field, a number of times. -/
def rounds (nested : Window → Computation (Option MatArray)) :
    (count : Nat) → (fields : List (Field MatArray)) → (window : Window) →
      Computation (List (Field MatArray) × Window)
  | 0, fields, window => pure (fields, window)
  | count + 1, fields, window => do
    let (fields, window) ← round nested fields window
    rounds nested count fields window

/-- A field without slots and with room for a number of them. -/
def emptyField (slotSize count : Nat) (name : String) : Computation (Field MatArray) := do
  reserve count slotSize
  pure ⟨name, []⟩

/-- Read the fields of a struct array. -/
def structBody (window : Window) (slotSize : Nat)
    (nested : Window → Computation (Option MatArray)) (metadata : Metadata)
    (className : Option String) : Computation (StructArray MatArray × Window) := do
  let (names, window) ← window.fieldNames
  let count := if names.isEmpty then 0 else metadata.length
  window.checkSlots (Cursor.saturatingProduct count names.length)
  let fields ← names.mapM (emptyField slotSize count)
  let (fields, window) ← rounds nested count fields window
  pure ({ info := metadata.info, className, fields }, window)

/-- Read the name of the class of an object, then its fields. -/
def objectBody (window : Window) (slotSize : Nat)
    (nested : Window → Computation (Option MatArray)) (metadata : Metadata) :
    Computation (StructArray MatArray × Window) := do
  let (part, window) ← window.element
  let className ← part.name
  window.structBody slotSize nested metadata (some className)

/-! ### Sparse matrices -/

/-- Read the first `count` values of a run of doubles, which may go on with padding. -/
def sparseValues (window : Window) (count : Nat) : Computation (List Double × Window) := do
  let (part, window) ← window.element
  let values ← part.atLeast .double count
  pure (values, window)

end Window

/-- The runs of two neighbours in a run. -/
def neighbours : List Nat → List (List Nat)
  | first :: second :: rest => [first, second] :: neighbours (second :: rest)
  | _ => []

/-- Whether in one of some runs of two the second is below the first. -/
def anyDescends : List (List Nat) → Computation Bool
  | [] => pure false
  | pair :: rest => do
    let second ← item pair 1
    let first ← item pair 0
    if second < first then pure true else anyDescends rest

/-- Whether column pointers do not start with zero or descend. -/
def disordered (columnPointers : List Nat) : Computation Bool := do
  let first ← item columnPointers 0
  if first ≠ 0 then pure true else anyDescends (neighbours columnPointers)

namespace Window

/-- Read the rows, the column pointers and the values of a sparse matrix. -/
def sparseBody (window : Window) (metadata : Metadata) (capacity : Nat) :
    Computation (SparseArray × Window) := do
  let rows ← metadata.rows
  let rowsOffset ← window.offset
  let (rowIndices, window) ← window.indices
  let pointersOffset ← window.offset
  let (columnPointers, window) ← window.indices
  if (if 1 ≤ columnPointers.length then some (columnPointers.length - 1) else none)
      ≠ some metadata.columns then
    fail (.malformed pointersOffset
      (.columnPointerCount columnPointers.length metadata.columns))
  else if ← disordered columnPointers then
    fail (.malformed pointersOffset .columnPointerOrder)
  else
    let stored ← item columnPointers metadata.columns
    if rowIndices.length < stored then fail (.truncated rowsOffset stored rowIndices.length)
    else
      let rowIndices := rowIndices.take stored
      match rowIndices.find? fun row => decide (rows ≤ row) with
      | some row => fail (.malformed rowsOffset (.rowIndex row rows))
      | none =>
        let (real, window) ← window.sparseValues stored
        if metadata.info.flags.complex then
          let (imag, window) ← window.sparseValues stored
          pure ({ info := metadata.info, capacity, columnPointers, rowIndices, real,
                  imag := some imag }, window)
        else
          pure ({ info := metadata.info, capacity, columnPointers, rowIndices, real }, window)

/-! ### Matrices -/

/-- Read what follows the head of a matrix of a class. -/
def classBody (window : Window) (slotSize : Nat)
    (nested : Window → Computation (Option MatArray)) (arrayClass : ArrayClass)
    (metadata : Metadata) (capacity : Nat) : Computation (MatArray × Window) :=
  match arrayClass with
  | .numeric numericClass => do
    let (array, window) ← window.numericBody numericClass metadata
    pure (.numeric numericClass array, window)
  | .char => do
    let (array, window) ← window.charBody metadata
    pure (.char array, window)
  | .cell => do
    let (array, window) ← window.cellBody slotSize nested metadata
    pure (.cell array, window)
  | .struct => do
    let (array, window) ← window.structBody slotSize nested metadata none
    pure (.struct array, window)
  | .object => do
    let (array, window) ← window.objectBody slotSize nested metadata
    pure (.struct array, window)
  | .sparse => do
    let (array, window) ← window.sparseBody metadata capacity
    pure (.sparse array, window)

/-- Read what follows the head of a matrix. Bytes that are left behind it are counted for a
remark. -/
def matrixBody (window : Window) (slotSize : Nat)
    (nested : Window → Computation (Option MatArray)) (head : MatrixHead) :
    Computation MatArray :=
  match ArrayClass.ofCode? head.classCode with
  | none => fail (.unsupportedClass head.classCode)
  | some arrayClass => do
    let metadata ← metadata head
    let (array, window) ← window.classBody slotSize nested arrayClass metadata head.capacity
    if window.atEnd then pure array
    else
      let _ ← window.remaining
      pure array

/-- Read a matrix nested in a cell or a field, no deeper than a bound. -/
def nestedMatrix (slotSize : Nat) : (depth : Nat) → (payload : Window) →
    Computation (Option MatArray)
  | 0, payload => if payload.atEnd then pure none else stuck .unfinished
  | depth + 1, payload =>
    if payload.atEnd then pure none
    else do
      let (head, window) ← payload.matrixHead
      let array ← window.matrixBody slotSize (nestedMatrix slotSize depth) head
      pure array.toSlot

/-- Read a matrix that stands for itself. -/
def matrix (payload : Window) (slotSize : Nat) (wanted : String → Bool) :
    Computation (Option MatArray) :=
  if payload.atEnd then do
    let _ ← payload.offset
    pure none
  else do
    let (head, window) ← payload.matrixHead
    if wanted head.name then
      let depth ← window.remaining
      let array ← window.matrixBody slotSize (nestedMatrix slotSize depth) head
      pure (some array)
    else pure none

end Window

end Checked

end MatFormat
