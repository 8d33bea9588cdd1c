/-
This file writes arrays as matrix elements. A slot that is unset is written as an unnamed
double array of no rows and no columns. The names of the fields of a struct array stand in
slots of one length, that of the longest name and one NUL more.
-/

import MatFormat.Run

namespace MatFormat

/-! ### Parts of a payload -/

/-- The flags that are written for an array: numbers are complex exactly when they have
imaginary parts, and nothing else is complex. -/
def MatArray.writtenFlags (array : MatArray) : Flags :=
  { array.info.flags with
    complex :=
      match array with
      | .numeric _ array => array.isComplex
      | .sparse array => array.isComplex
      | _ => false }

/-- The room for entries that is written for an array. -/
def MatArray.writtenCapacity : MatArray → Nat
  | .sparse array => array.room
  | _ => 0

/-- The head of a matrix: the class and the flags, the dimensions, and the name. -/
def encodeHead (order : ByteOrder) (array : MatArray) : Except Error (List UInt8) := do
  let name := array.name
  if wordLimit ≤ array.writtenCapacity then throw (.invalidArray name .wideCapacity)
  let flags ← encodeElement order .uint32
    (order.encode 4 (array.arrayClass.code + array.writtenFlags.word)
      ++ order.encode 4 array.writtenCapacity)
  let dimensions ← encodeIndices order name array.dimensions
  let name ← encodeName order name
  pure (flags ++ dimensions ++ name)

/-- A run of values, and a second one if there are imaginary parts. -/
def encodeParts (order : ByteOrder) (numericClass : NumericClass)
    (real : List numericClass.Value) (imag : Option (List numericClass.Value)) :
    Except Error (List UInt8) := do
  let real ← encodeValues order numericClass real
  match imag with
  | none => pure real
  | some imag => do
    let imag ← encodeValues order numericClass imag
    pure (real ++ imag)

/-- The rows, the column pointers and the values of a sparse matrix. -/
def encodeSparse (order : ByteOrder) (array : SparseArray) : Except Error (List UInt8) := do
  let rows ← encodeIndices order array.info.name array.rowIndices
  let pointers ← encodeIndices order array.info.name array.columnPointers
  let values ← encodeParts order .double array.real array.imag
  pure (rows ++ pointers ++ values)

/-- The length of the longest of some names. -/
def longestName (names : List String) : Nat :=
  names.foldl (fun longest name => max longest (nameLength name)) 0

/-- A name filled up with NUL to a length. -/
def paddedName (length : Nat) (name : String) : List UInt8 :=
  let bytes := Utf8.encode name
  bytes ++ List.replicate (length - bytes.length) 0

/-- The class name of an object and the names of the fields. -/
def encodeFieldNames (order : ByteOrder) (name : String) (className : Option String)
    (fieldNames : List String) : Except Error (List UInt8) := do
  let className ←
    match className with
    | none => pure []
    | some className => encodeName order className
  match fieldNames.find? fun fieldName => decide (fieldNameLimit < nameLength fieldName) with
  | some fieldName => throw (.invalidArray name (.longFieldName fieldName fieldNameLimit))
  | none => pure ()
  let length := longestName fieldNames + 1
  let lengths ← encodeValues order .int32 [BitVec.ofNat _ length]
  let names ← encodeElement order .int8 (fieldNames.flatMap (paddedName length))
  pure (className ++ lengths ++ names)

/-- Parts one after the other, or the first fault among them. -/
def joinParts : List (Except Error (List UInt8)) → Except Error (List UInt8)
  | [] => .ok []
  | part :: rest => do
    let part ← part
    let rest ← joinParts rest
    pure (part ++ rest)

/-- The matrix element with a payload. -/
def encodeMatrixElement (order : ByteOrder) (payload : List UInt8) :
    Except Error (List UInt8) := do
  let tag ← encodeTag order .matrix payload.length
  pure (tag ++ payload ++ List.replicate (paddingTo8 payload.length) 0)

/-- The payload of a numeric array. -/
def encodeNumeric (order : ByteOrder) (numericClass : NumericClass)
    (array : NumericArray numericClass) : Except Error (List UInt8) := do
  let head ← encodeHead order (.numeric numericClass array)
  let values ← encodeParts order numericClass array.real array.imag
  pure (head ++ values)

/-- The array that an unset slot is written as. -/
def unsetArray : NumericArray .double where
  info := ⟨"", ⟨[0, 0], by decide, by decide, by decide⟩, {}⟩
  real := []

/-- The matrix element of an unset slot. -/
def encodeUnset (order : ByteOrder) : Except Error (List UInt8) := do
  let payload ← encodeNumeric order .double unsetArray
  encodeMatrixElement order payload

/-! ### Whole arrays -/

mutual

/-- The payload of the matrix element of an array. -/
def MatArray.encode (order : ByteOrder) : MatArray → Except Error (List UInt8)
  | .numeric numericClass array => encodeNumeric order numericClass array
  | .char array => do
    let head ← encodeHead order (.char array)
    let units ← encodeValues order .uint16 array.units
    pure (head ++ units)
  | .cell ⟨info, cells⟩ => do
    let head ← encodeHead order (.cell ⟨info, cells⟩)
    let cells ← joinParts (encodeSlots order cells)
    pure (head ++ cells)
  | .struct ⟨info, className, fields⟩ => do
    let head ← encodeHead order (.struct ⟨info, className, fields⟩)
    let names ← encodeFieldNames order info.name className (fields.map Field.name)
    let rounds := if fields.isEmpty then 0 else info.shape.count
    let slots ← joinParts (interleave rounds (encodeFields order fields))
    pure (head ++ names ++ slots)
  | .sparse array => do
    let head ← encodeHead order (.sparse array)
    let body ← encodeSparse order array
    pure (head ++ body)

/-- The matrix elements of slots. -/
def encodeSlots (order : ByteOrder) : List (Option MatArray) → List (Except Error (List UInt8))
  | [] => []
  | slot :: rest => encodeSlot order slot :: encodeSlots order rest

/-- The matrix element of a slot. -/
def encodeSlot (order : ByteOrder) : Option MatArray → Except Error (List UInt8)
  | none => encodeUnset order
  | some array => do
    let payload ← array.encode order
    encodeMatrixElement order payload

/-- The matrix elements of the slots of fields. -/
def encodeFields (order : ByteOrder) :
    List (Field MatArray) → List (List (Except Error (List UInt8)))
  | [] => []
  | ⟨_, slots⟩ :: rest => encodeSlots order slots :: encodeFields order rest

end

/-- The matrix element of an array. -/
def MatArray.element (order : ByteOrder) (array : MatArray) : Except Error (List UInt8) :=
  encodeSlot order (some array)

end MatFormat
