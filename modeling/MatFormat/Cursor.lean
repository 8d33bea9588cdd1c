/-
This file reads bytes from the front. A cursor stands at an offset in a run of bytes and
holds the bytes from there to the end of the part it may read. Splitting gives a cursor over
the next bytes alone, which still counts its offsets in the whole run.
-/

import MatFormat.ByteOrder
import MatFormat.Error

namespace MatFormat

/-- A place in a run of bytes: the bytes that can still be read, the offset of the first of
them, and the byte order of numbers. -/
structure Cursor where
  bytes : List UInt8
  offset : Nat
  order : ByteOrder
deriving DecidableEq, Repr

namespace Cursor

/-- The start of a run of bytes. -/
def ofBytes (bytes : List UInt8) (order : ByteOrder) : Cursor := ⟨bytes, 0, order⟩

/-- The number of bytes that can still be read. -/
def remaining (cursor : Cursor) : Nat := cursor.bytes.length

/-- Whether no byte is left. -/
def atEnd (cursor : Cursor) : Bool := cursor.bytes.isEmpty

/-- Take exactly `count` bytes. -/
def take (cursor : Cursor) (count : Nat) : Except Error (List UInt8 × Cursor) :=
  let (taken, rest) := cursor.bytes.splitAt count
  if taken.length < count then .error (.truncated cursor.offset count taken.length)
  else .ok (taken, { cursor with bytes := rest, offset := cursor.offset + count })

/-- Pass over exactly `count` bytes. -/
def skip (cursor : Cursor) (count : Nat) : Except Error Cursor := do
  let (_, rest) ← cursor.take count
  pure rest

/-- Pass over `count` bytes, or over all that are left if they are fewer, and tell how many
they were. -/
def skipAtMost (cursor : Cursor) (count : Nat) : Nat × Cursor :=
  let (taken, rest) := cursor.bytes.splitAt count
  (taken.length, { cursor with bytes := rest, offset := cursor.offset + taken.length })

/-- Take exactly `count` bytes as a cursor of their own. -/
def split (cursor : Cursor) (count : Nat) : Except Error (Cursor × Cursor) := do
  let (taken, rest) ← cursor.take count
  pure ({ cursor with bytes := taken }, rest)

/-- Take a number of `width` bytes. -/
def number (cursor : Cursor) (width : Nat) : Except Error (Nat × Cursor) := do
  let (taken, rest) ← cursor.take width
  pure (cursor.order.decode taken, rest)

/-- Taking succeeds exactly when there are enough bytes. -/
theorem take_of_le (cursor : Cursor) (count : Nat) (enough : count ≤ cursor.remaining) :
    cursor.take count = .ok (cursor.bytes.take count,
      { cursor with bytes := cursor.bytes.drop count, offset := cursor.offset + count }) := by
  have counted : ¬ (cursor.bytes.take count).length < count := by
    rw [List.length_take]
    unfold remaining at enough
    omega
  simp only [take, List.splitAt_eq, if_neg counted]

theorem take_of_lt (cursor : Cursor) (count : Nat) (short : cursor.remaining < count) :
    cursor.take count = .error (.truncated cursor.offset count cursor.remaining) := by
  unfold remaining at short ⊢
  have counted : (cursor.bytes.take count).length = cursor.bytes.length := by
    rw [List.length_take]
    omega
  simp only [take, List.splitAt_eq, counted, if_pos short]

end Cursor

end MatFormat
