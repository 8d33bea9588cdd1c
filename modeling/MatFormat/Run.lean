/-
This file reads and writes the payloads of elements that are not matrices: runs of numbers,
of characters and of indices, and names. A run of numbers may be stored in any number type;
each value is brought into the class that is asked for. Writing always uses the type of the
class itself.
-/

import MatFormat.Element
import MatFormat.Text.Utf16

namespace MatFormat

/-! ### Reading numbers -/

/-- Cut a run into `count` pieces of `width` items, latest first, in front of those known. -/
def piecesOnto {Item : Type} (width : Nat) :
    (count : Nat) → (known : List (List Item)) → List Item → List (List Item)
  | 0, known, _ => known
  | count + 1, known, items =>
    let (piece, rest) := items.splitAt width
    piecesOnto width count (piece :: known) rest

/-- Cut a run into `count` pieces of `width` items; what is left over is dropped. -/
def pieces {Item : Type} (width count : Nat) (items : List Item) : List (List Item) :=
  (piecesOnto width count [] items).reverse

/-- The value of a class that the bytes of one stored number give. A number stored in the
type of the class is taken as it is, any other is widened and brought into the class. -/
def NumericClass.load (wanted stored : NumericClass) (order : ByteOrder) (bytes : List UInt8) :
    wanted.Value :=
  if wanted = stored then wanted.read order bytes
  else wanted.narrow (stored.widen (stored.read order bytes))

namespace Element

/-- The offset of the payload. -/
def offset (element : Element) : Nat := element.payload.offset

/-- The bytes of the payload. -/
def bytes (element : Element) : List UInt8 := element.payload.bytes

/-- Fail at the start of the payload. -/
def malformed {Value : Type} (element : Element) (reason : Malformation) : Except Error Value :=
  .error (.malformed element.offset reason)

/-- The numbers of the payload as values of a class. -/
def values (element : Element) (wanted : NumericClass) : Except Error (List wanted.Value) :=
  let type := element.tag.type
  match type.storedClass? with
  | none => element.malformed (.notNumbers type)
  | some stored =>
    if element.tag.size % type.size ≠ 0 then
      element.malformed (.partialValue element.tag.size type)
    else
      .ok ((pieces type.size element.tag.count element.bytes).map
        (wanted.load stored element.payload.order))

/-- Accept exactly as many values as expected. -/
def checkCount (element : Element) (expected actual : Nat) : Except Error Unit :=
  if actual < expected then .error (.truncated element.offset expected actual)
  else if expected < actual then element.malformed (.surplusValues expected actual)
  else .ok ()

/-- The numbers of a payload that must hold exactly `expected` of them. -/
def exactly (element : Element) (wanted : NumericClass) (expected : Nat) :
    Except Error (List wanted.Value) := do
  let values ← element.values wanted
  element.checkCount expected values.length
  pure values

/-- The first numbers of a payload that must hold at least `expected` of them. -/
def atLeast (element : Element) (wanted : NumericClass) (expected : Nat) :
    Except Error (List wanted.Value) := do
  let values ← element.values wanted
  if values.length < expected then
    throw (.truncated element.offset expected values.length)
  pure (values.take expected)

/-- The signed numbers of the payload. -/
def integers (element : Element) : Except Error (List Int) := do
  let values ← element.values .int64
  pure (values.map fun value => value.toInt)

/-! ### Reading text -/

/-- The code units of a payload that must hold exactly `expected` of them. A payload of the
UTF-8 type is read strictly; the numbers of any other are code units. -/
def codeUnits (element : Element) (expected : Nat) : Except Error (List CodeUnit) := do
  let units ←
    if element.tag.type = .utf8 then
      match Utf8.decode element.bytes with
      | .ok text => pure (Utf16.encodeList text)
      | .error fault => element.malformed (.invalidText fault)
    else element.values .uint16
  element.checkCount expected units.length
  pure units

/-- The bytes of a run before its first NUL. -/
def beforeNul (bytes : List UInt8) : List UInt8 := bytes.takeWhile fun byte => byte != 0

/-- The name that the payload spells before the first NUL. Payloads of single bytes are read
as UTF-8; the numbers of any other are code units. -/
def name (element : Element) : Except Error String :=
  match element.tag.type with
  | .utf8 | .int8 | .uint8 => .ok (Utf8.decodeLossy (beforeNul element.bytes))
  | _ => do
    let units ← element.values .uint16
    pure (Utf16.decodeLossy (units.takeWhile fun unit => unit.toNat != 0))

end Element

/-! ### Reading indices -/

/-- Numbers that are not negative, or the first one that is. -/
def checkIndices (offset : Nat) : List Int → Except Error (List Nat)
  | [] => .ok []
  | .ofNat value :: rest => do
    let rest ← checkIndices offset rest
    pure (value :: rest)
  | .negSucc value :: _ => .error (.malformed offset (.negativeIndex (.negSucc value)))

/-- Read an element that holds dimensions or indices. -/
def Cursor.indices (cursor : Cursor) : Reading (List Nat × Cursor) := do
  let (element, cursor) ← cursor.element
  let values ← element.integers
  let indices ← checkIndices element.offset values
  pure (indices, cursor)

/-! ### Writing -/

/-- An element with the values of a class. -/
def encodeValues (order : ByteOrder) (numericClass : NumericClass)
    (values : List numericClass.Value) : Except Error (List UInt8) :=
  encodeElement order numericClass.dataType (values.flatMap (numericClass.write order))

/-- The number of values of an index as it is written. -/
def indexLimit : Nat := 2 ^ 31

/-- An element with the indices or dimensions of an array, each as a signed 32-bit number. -/
def encodeIndices (order : ByteOrder) (name : String) (indices : List Nat) :
    Except Error (List UInt8) :=
  match indices.find? fun index => decide (indexLimit ≤ index) with
  | some index => .error (.invalidArray name (.wideIndex index))
  | none => encodeValues order .int32 (indices.map fun index => BitVec.ofNat _ index)

/-- An element with a name. -/
def encodeName (order : ByteOrder) (name : String) : Except Error (List UInt8) :=
  encodeElement order .int8 (Utf8.encode name)

end MatFormat
