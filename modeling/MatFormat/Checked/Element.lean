/-
This file reads data elements and the runs of values in them with machine numbers: the
lengths of paddings, the numbers of values, and the pieces that values are read from.
-/

import MatFormat.Checked.Window

namespace MatFormat

namespace Checked

/-! ### Tags -/

/-- The bytes of padding after a payload. -/
def padding (tag : Tag) : Computation Nat :=
  if tag.packed then difference packedLimit tag.size
  else if tag.type = .compressed then pure 0
  else do
    let surplus ← remainder tag.size 8
    let missing ← difference 8 surplus
    remainder missing 8

/-- The number of whole values in a payload. -/
def count (tag : Tag) : Computation Nat := quotient tag.size tag.type.size

/-- An element that was read: its tag and a window over its payload. -/
structure Part where
  tag : Tag
  payload : Window
deriving DecidableEq, Repr

namespace Window

/-- Read a tag. -/
def tag (window : Window) : Computation (Tag × Window) := do
  let offset ← window.offset
  let (word, window) ← window.word
  let packedSize := word / 65536
  if packedSize ≠ 0 then
    if packedLimit < packedSize then fail (.malformed offset (.packedSize packedSize))
    else
      let code := word % 65536
      match DataType.ofCode? code with
      | none => fail (.malformed offset (.unknownType code))
      | some type =>
        if !type.isPrimitive then fail (.malformed offset (.packedType type))
        else pure (⟨type, packedSize, true⟩, window)
  else
    let (size, window) ← window.word
    match DataType.ofCode? word with
    | none => fail (.malformed offset (.unknownType word))
    | some type => pure (⟨type, size, false⟩, window)

/-- Read an element with its padding. The padding that is missing is counted for a remark. -/
def element (window : Window) : Computation (Part × Window) := do
  let (tag, window) ← window.tag
  let (payload, window) ← window.split tag.size
  let padding ← padding tag
  let (skipped, window) ← window.skipAtMost padding
  if skipped < padding then
    let _ ← payload.offset
    let _ ← difference padding skipped
    pure (⟨tag, payload⟩, window)
  else pure (⟨tag, payload⟩, window)

end Window

/-! ### Values -/

/-- Read a value from the first bytes of a piece. -/
def readValue (numericClass : NumericClass) (order : ByteOrder) (piece : List UInt8) :
    Computation numericClass.Value := do
  let bytes ← slice piece 0 numericClass.size
  pure (numericClass.read order bytes)

/-- Read a stored value from a piece and bring it into a class. -/
def convertValue (stored wanted : NumericClass) (order : ByteOrder) (piece : List UInt8) :
    Computation wanted.Value := do
  let value ← readValue stored order piece
  pure (wanted.narrow (stored.widen value))

/-- Accept exactly as many values as expected. -/
def checkCount (offset expected actual : Nat) : Computation Unit :=
  if actual < expected then fail (.truncated offset expected actual)
  else if expected < actual then fail (.malformed offset (.surplusValues expected actual))
  else pure ()

namespace Part

/-- The numbers of the payload as values of a class. Values that are stored as such are read
in pieces of the width of the class, others in pieces of the width of their type. -/
def values (part : Part) (wanted : NumericClass) : Computation (List wanted.Value) := do
  let offset ← part.payload.offset
  match part.tag.type.storedClass? with
  | none => fail (.malformed offset (.notNumbers part.tag.type))
  | some stored =>
    let count ← count part.tag
    let whole ← product count part.tag.type.size
    if whole ≠ part.tag.size then
      fail (.malformed offset (.partialValue part.tag.size part.tag.type))
    else
      let (bytes, _) ← part.payload.take part.tag.size
      reserve count wanted.size
      if part.tag.type = wanted.dataType then
        let pieces ← chunks wanted.size bytes
        pieces.mapM (readValue wanted part.payload.order)
      else
        let pieces ← chunks part.tag.type.size bytes
        pieces.mapM (convertValue stored wanted part.payload.order)

/-- The numbers of a payload that must hold exactly `expected` of them. -/
def exactly (part : Part) (wanted : NumericClass) (expected : Nat) :
    Computation (List wanted.Value) := do
  let values ← part.values wanted
  let offset ← part.payload.offset
  checkCount offset expected values.length
  pure values

/-- The first numbers of a payload that must hold at least `expected` of them. -/
def atLeast (part : Part) (wanted : NumericClass) (expected : Nat) :
    Computation (List wanted.Value) := do
  let values ← part.values wanted
  if values.length < expected then
    let offset ← part.payload.offset
    fail (.truncated offset expected values.length)
  else pure (values.take expected)

/-- The signed numbers of the payload. -/
def integers (part : Part) : Computation (List Int) := do
  let values ← part.values .int64
  pure (values.map fun value => value.toInt)

/-- The code units of a payload that must hold exactly `expected` of them. -/
def codeUnits (part : Part) (expected : Nat) : Computation (List CodeUnit) := do
  let offset ← part.payload.offset
  if part.tag.type = .utf8 then
    let (bytes, _) ← part.payload.take part.tag.size
    match Utf8.decode bytes with
    | .error fault => fail (.malformed offset (.invalidText fault))
    | .ok text =>
      let units := Utf16.encodeList text
      checkCount offset expected units.length
      pure units
  else
    let units ← part.values .uint16
    checkCount offset expected units.length
    pure units

/-- The name that the payload spells before the first NUL. -/
def name (part : Part) : Computation String :=
  match part.tag.type with
  | .utf8 | .int8 | .uint8 => do
    let (bytes, _) ← part.payload.take part.tag.size
    let spelled ← before (fun byte => byte == 0) bytes
    pure (Utf8.decodeLossy spelled)
  | _ => do
    let units ← part.values .uint16
    let spelled ← before (fun unit => unit.toNat == 0) units
    pure (Utf16.decodeLossy spelled)

/-- The names in a payload that holds them in slots of one length. -/
def fieldNames (part : Part) (length : Nat) : Computation (List String) := do
  let (bytes, _) ← part.payload.take part.tag.size
  let count ← quotient part.tag.size length
  let _ ← remainder part.tag.size length
  let slots ← chunks length bytes
  (slots.take count).mapM fun slot => do
    let spelled ← before (fun byte => byte == 0) slot
    pure (Utf8.decodeLossy spelled)

end Part

/-- Read an element that holds dimensions or indices. -/
def Window.indices (window : Window) : Computation (List Nat × Window) := do
  let (part, window) ← window.element
  let values ← part.integers
  let offset ← part.payload.offset
  let indices ← lift (checkIndices offset values)
  pure (indices, window)

end Checked

end MatFormat
