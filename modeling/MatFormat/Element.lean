/-
This file reads and writes data elements. An element is a tag with a type and a size, the
payload, and padding up to a multiple of eight bytes; a compressed element has no padding.
A payload of one to four bytes can stand in the tag itself, in the packed form, where it is
padded to four bytes. The reader tolerates padding that is missing at the very end; the
writer always pads, and packs every run of numbers that is short enough.
-/

import MatFormat.Cursor
import MatFormat.Notice

namespace MatFormat

/-- The most bytes that a packed element holds. -/
def packedLimit : Nat := 4

/-- The bytes of a tag that is not packed. -/
def tagSize : Nat := 8

/-- The bytes from a length to the next multiple of eight. -/
def paddingTo8 (length : Nat) : Nat := (8 - length % 8) % 8

/-- The tag of an element. -/
structure Tag where
  type : DataType
  size : Nat
  packed : Bool
deriving DecidableEq, Repr

namespace Tag

/-- The bytes of padding after the payload. -/
def padding (tag : Tag) : Nat :=
  if tag.packed then packedLimit - tag.size
  else if tag.type = .compressed then 0
  else paddingTo8 tag.size

/-- The number of whole values in the payload. -/
def count (tag : Tag) : Nat := tag.size / tag.type.size

end Tag

/-- An element that was read: its tag and a cursor over its payload. -/
structure Element where
  tag : Tag
  payload : Cursor
deriving DecidableEq, Repr

/-! ### Reading -/

namespace Cursor

/-- Read a tag. The upper half of its first word is the size of a packed element, and zero
for any other, whose size is in a second word. -/
def tag (cursor : Cursor) : Except Error (Tag × Cursor) := do
  let offset := cursor.offset
  let (word, cursor) ← cursor.number 4
  let packedSize := word / 65536
  if packedSize ≠ 0 then
    if packedLimit < packedSize then throw (.malformed offset (.packedSize packedSize))
    let code := word % 65536
    match DataType.ofCode? code with
    | none => throw (.malformed offset (.unknownType code))
    | some type =>
      if !type.isPrimitive then throw (.malformed offset (.packedType type))
      pure (⟨type, packedSize, true⟩, cursor)
  else
    let (size, cursor) ← cursor.number 4
    match DataType.ofCode? word with
    | none => throw (.malformed offset (.unknownType word))
    | some type => pure (⟨type, size, false⟩, cursor)

/-- Read an element with its padding. -/
def element (cursor : Cursor) : Reading (Element × Cursor) := do
  let (tag, cursor) ← cursor.tag
  let (payload, cursor) ← cursor.split tag.size
  let (skipped, cursor) := cursor.skipAtMost tag.padding
  if skipped < tag.padding then
    Reading.note (.missingPadding payload.offset (tag.padding - skipped))
  pure (⟨tag, payload⟩, cursor)

end Cursor

/-! ### Writing -/

/-- The number of values of a 32-bit word. -/
def wordLimit : Nat := 2 ^ 32

/-- The tag of an element that is not packed. The size must fit in a word. -/
def encodeTag (order : ByteOrder) (type : DataType) (size : Nat) : Except Error (List UInt8) :=
  if size < wordLimit then .ok (order.encode 4 type.code ++ order.encode 4 size)
  else .error (.invalidArray "" (.longElement size))

/-- An element with its padding. -/
def encodeElement (order : ByteOrder) (type : DataType) (payload : List UInt8) :
    Except Error (List UInt8) :=
  let size := payload.length
  if 1 ≤ size ∧ size ≤ packedLimit ∧ type.isPrimitive then
    .ok (order.encode 4 (size * 65536 + type.code) ++ payload
      ++ List.replicate (packedLimit - size) 0)
  else do
    let tag ← encodeTag order type size
    pure (tag ++ payload ++ List.replicate (paddingTo8 size) 0)

end MatFormat
