/-
This file reads arrays from the payloads of matrix elements. A payload starts with a head:
the class and the flags, the dimensions, and the name. The rest depends on the class, and
for cells and structs holds matrices again. An empty payload, and the array that an unset
slot is written as, read as an unset slot.

The payload of a nested matrix is always shorter than the bytes it is read from, so the
reader of nested matrices may be given the length of the whole payload as a bound on its
depth: where the bound reaches zero the payload is empty, and an empty payload is an unset
slot.
-/

import MatFormat.Run

namespace MatFormat

/-! ### The head -/

/-- What a matrix tells before the part that depends on its class, and where its payload
starts. -/
structure MatrixHead where
  classCode : Nat
  flags : Flags
  capacity : Nat
  dimensions : List Nat
  name : String
  offset : Nat
deriving DecidableEq, Repr

namespace Cursor

/-- Read the head of a matrix. -/
def matrixHead (payload : Cursor) : Reading (MatrixHead × Cursor) := do
  let (element, cursor) ← payload.element
  let words ← element.values .uint32
  let (attributes, capacity) ←
    match words with
    | [attributes, capacity] => pure (attributes.toNat, capacity.toNat)
    | _ => throw (.malformed payload.offset (.flagWords words.length))
  let dimensionsOffset := cursor.offset
  let (dimensions, cursor) ← cursor.indices
  if dimensions.length < 2 then
    throw (.malformed dimensionsOffset (.rank dimensions.length))
  let (element, cursor) ← cursor.element
  let name ← element.name
  pure (⟨attributes % 256, Flags.ofWord attributes, capacity, dimensions, name, payload.offset⟩,
    cursor)

/-! ### Numbers and characters -/

/-- Read the values of a numeric array. -/
def numericBody (cursor : Cursor) (numericClass : NumericClass) (info : ArrayInfo) :
    Reading (NumericArray numericClass × Cursor) := do
  let count := info.shape.count
  let (element, cursor) ← cursor.element
  let real ← element.exactly numericClass count
  if info.flags.complex then
    let (element, cursor) ← cursor.element
    let imag ← element.exactly numericClass count
    pure ({ info, real, imag := some imag }, cursor)
  else pure ({ info, real }, cursor)

/-- Read the code units of an array of characters. -/
def charBody (cursor : Cursor) (info : ArrayInfo) : Reading (CharArray × Cursor) := do
  let (element, cursor) ← cursor.element
  let units ← element.codeUnits info.shape.count
  pure ({ info, units }, cursor)

/-! ### Nested arrays -/

/-- Read an element that must be a matrix, with the given reader for its payload. -/
def slot (cursor : Cursor) (nested : Cursor → Reading (Option MatArray)) :
    Reading (Option MatArray × Cursor) := do
  let offset := cursor.offset
  let (element, cursor) ← cursor.element
  if element.tag.type ≠ .matrix then throw (.malformed offset (.nestedType element.tag.type))
  let array ← nested element.payload
  pure (array, cursor)

/-- Read a number of slots, one after the other. -/
def slots (nested : Cursor → Reading (Option MatArray)) :
    (count : Nat) → (cursor : Cursor) → Reading (List (Option MatArray) × Cursor)
  | 0, cursor => pure ([], cursor)
  | count + 1, cursor => do
    let (first, cursor) ← cursor.slot nested
    let (rest, cursor) ← slots nested count cursor
    pure (first :: rest, cursor)

/-- A product held at the largest 64-bit count. -/
def saturatingProduct (first second : Nat) : Nat := min (first * second) (countLimit - 1)

/-- Fail early where a number of slots cannot fit into the bytes that are left. The shortest
matrix is a tag alone. -/
def checkSlots (cursor : Cursor) (count : Nat) : Except Error Unit :=
  let needed := saturatingProduct count tagSize
  if cursor.remaining < needed then .error (.truncated cursor.offset needed cursor.remaining)
  else .ok ()

/-- Read the cells of an array of cells. -/
def cells (cursor : Cursor) (nested : Cursor → Reading (Option MatArray)) (info : ArrayInfo) :
    Reading (CellArray MatArray × Cursor) := do
  let (cells, cursor) ← slots nested info.shape.count cursor
  pure ({ info, cells }, cursor)

/-- Read the cells of an array of cells, unless there cannot be as many. -/
def cellBody (cursor : Cursor) (nested : Cursor → Reading (Option MatArray))
    (info : ArrayInfo) : Reading (CellArray MatArray × Cursor) := do
  cursor.checkSlots info.shape.count
  cursor.cells nested info

end Cursor

/-- The names in a payload that holds them in slots of one length, each ending before its
first NUL. -/
def Element.fieldNames (element : Element) (length : Nat) : Reading (List String) := do
  let size := element.tag.size
  if size % length ≠ 0 then Reading.note (.partialFieldName size length)
  pure ((pieces length (size / length) element.bytes).map fun slot =>
    Utf8.decodeLossy (Element.beforeNul slot))

namespace Cursor

/-- Read the names of the fields of a struct array. -/
def fieldNames (cursor : Cursor) : Reading (List String × Cursor) := do
  let offset := cursor.offset
  let (element, cursor) ← cursor.element
  let lengths ← element.integers
  let length ←
    match lengths with
    | [length] =>
      if 0 < length then pure length.toNat
      else throw (.malformed offset (.fieldNameLength lengths))
    | _ => throw (.malformed offset (.fieldNameLength lengths))
  let (element, cursor) ← cursor.element
  let names ← element.fieldNames length
  pure (names, cursor)

/-- The number of elements that a struct array has slots for; without fields it has none. -/
def slotRounds (info : ArrayInfo) (names : List String) : Nat :=
  if names.isEmpty then 0 else info.shape.count

/-- Read the slots of a struct array, which are those of the first element for all fields,
then those of the second, and so on. -/
def fields (cursor : Cursor) (nested : Cursor → Reading (Option MatArray)) (info : ArrayInfo)
    (className : Option String) (names : List String) :
    Reading (StructArray MatArray × Cursor) := do
  let rounds := slotRounds info names
  let (slots, cursor) ← slots nested (rounds * names.length) cursor
  let fields := List.zipWith Field.mk names (deal names.length rounds slots)
  pure ({ info, className, fields }, cursor)

/-- Read the fields of a struct array, unless there cannot be as many slots. -/
def structBody (cursor : Cursor) (nested : Cursor → Reading (Option MatArray))
    (info : ArrayInfo) (className : Option String) : Reading (StructArray MatArray × Cursor) := do
  let (names, cursor) ← cursor.fieldNames
  cursor.checkSlots (saturatingProduct (slotRounds info names) names.length)
  cursor.fields nested info className names

/-- Read the name of the class of an object, then its fields. -/
def objectBody (cursor : Cursor) (nested : Cursor → Reading (Option MatArray))
    (info : ArrayInfo) : Reading (StructArray MatArray × Cursor) := do
  let (element, cursor) ← cursor.element
  let className ← element.name
  cursor.structBody nested info (some className)

/-! ### Sparse matrices -/

/-- Read the first `count` values of a run of doubles, which may go on with padding. -/
def sparseValues (cursor : Cursor) (count : Nat) : Reading (List Double × Cursor) := do
  let (element, cursor) ← cursor.element
  let values ← element.atLeast .double count
  pure (values, cursor)

/-- Read the rows, the column pointers and the values of a sparse matrix. Rows and values
beyond the last column pointer are padding. -/
def sparseBody (cursor : Cursor) (info : ArrayInfo) (capacity : Nat) :
    Reading (SparseArray × Cursor) := do
  let rows := info.shape.rows
  let columns := info.shape.columns
  let rowsOffset := cursor.offset
  let (rowIndices, cursor) ← cursor.indices
  let pointersOffset := cursor.offset
  let (columnPointers, cursor) ← cursor.indices
  if columnPointers.length ≠ columns + 1 then
    throw (.malformed pointersOffset (.columnPointerCount columnPointers.length columns))
  if columnPointers.headD 0 ≠ 0 ∨ (SparseArray.firstDescent? columnPointers).isSome then
    throw (.malformed pointersOffset .columnPointerOrder)
  let stored := columnPointers.getLastD 0
  if rowIndices.length < stored then
    throw (.truncated rowsOffset stored rowIndices.length)
  let rowIndices := rowIndices.take stored
  match rowIndices.find? fun row => decide (rows ≤ row) with
  | some row => throw (.malformed rowsOffset (.rowIndex row rows))
  | none => pure ()
  if capacity < stored then Reading.note (.smallCapacity info.name capacity stored)
  let (real, cursor) ← cursor.sparseValues stored
  if info.flags.complex then
    let (imag, cursor) ← cursor.sparseValues stored
    pure ({ info, capacity, columnPointers, rowIndices, real, imag := some imag }, cursor)
  else pure ({ info, capacity, columnPointers, rowIndices, real }, cursor)

/-! ### Matrices -/

/-- Read what follows the head of a matrix of a class, with the given reader for nested
matrices. -/
def classBody (cursor : Cursor) (nested : Cursor → Reading (Option MatArray))
    (arrayClass : ArrayClass) (info : ArrayInfo) (capacity : Nat) :
    Reading (MatArray × Cursor) :=
  match arrayClass with
  | .numeric numericClass => do
    let (array, cursor) ← cursor.numericBody numericClass info
    pure (.numeric numericClass array, cursor)
  | .char => do
    let (array, cursor) ← cursor.charBody info
    pure (.char array, cursor)
  | .cell => do
    let (array, cursor) ← cursor.cellBody nested info
    pure (.cell array, cursor)
  | .struct => do
    let (array, cursor) ← cursor.structBody nested info none
    pure (.struct array, cursor)
  | .object => do
    let (array, cursor) ← cursor.objectBody nested info
    pure (.struct array, cursor)
  | .sparse => do
    let (array, cursor) ← cursor.sparseBody info capacity
    pure (.sparse array, cursor)

/-- Read what follows the head of a matrix. -/
def matrixBody (cursor : Cursor) (nested : Cursor → Reading (Option MatArray))
    (head : MatrixHead) : Reading (MatArray × Cursor) :=
  match ArrayClass.ofCode? head.classCode with
  | none => throw (.unsupportedClass head.classCode)
  | some arrayClass =>
    match Shape.ofDimensions head.dimensions with
    | .error reason => throw (.malformed head.offset (.invalidArray head.name reason))
    | .ok shape =>
      cursor.classBody nested arrayClass ⟨head.name, shape, head.flags⟩ head.capacity

/-- Read a matrix nested in a cell or a field, no deeper than a bound. -/
def nestedMatrix : (depth : Nat) → (payload : Cursor) → Reading (Option MatArray)
  | 0, _ => pure none
  | depth + 1, payload =>
    if payload.atEnd then pure none
    else do
      let (head, cursor) ← payload.matrixHead
      let (array, _) ← cursor.matrixBody (nestedMatrix depth) head
      pure array.toSlot

/-- Read a matrix that stands for itself. Its name decides whether it is wanted; the rest of
a matrix that is not is never looked at. -/
def matrix (payload : Cursor) (wanted : String → Bool) : Reading (Option MatArray) :=
  if payload.atEnd then do
    Reading.note (.emptyMatrix payload.offset)
    pure none
  else do
    let (head, cursor) ← payload.matrixHead
    if wanted head.name then
      let (array, _) ← cursor.matrixBody (nestedMatrix cursor.remaining) head
      Reading.note (.decoded array.name array.arrayClass array.dimensions)
      pure (some array)
    else
      Reading.note (.filtered head.name)
      pure none

end Cursor

end MatFormat
