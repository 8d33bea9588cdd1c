/-
This file reads the elements of a file one after the other. At the top level stand matrices
and compressed elements, and each of the latter may spell several matrices. A stream yields
one array at a time: those that are ready, then those of the next element, up to the end of
the bytes or to the first error, which is the last thing that it yields. Fewer than eight
zero bytes at the end are padding. Between two elements a stream can be cancelled; arrays
that are ready by then are still yielded. What a compressed element spells is left to an
inflater, which the reader is given.
-/

import MatFormat.Header
import MatFormat.Matrix.Reader

namespace MatFormat

/-- An inflater gives the bytes that a compressed stream spells, or the text of what is wrong
with the stream. -/
abbrev Inflater : Type := (stream : List UInt8) → Except String (List UInt8)

/-- How a stream goes on after the arrays that are ready. -/
inductive Continuation where
  | reading (cursor : Cursor)
  | failing (error : Error)
  | ended
deriving DecidableEq, Repr

/-- A stream of arrays: those that are decoded but not yet yielded, and how it goes on. -/
structure ArrayStream where
  ready : List MatArray
  continuation : Continuation

namespace Cursor

/-! ### Compressed elements -/

/-- Read the next matrix of an inflated stream. -/
def inflatedMatrix (cursor : Cursor) (wanted : String → Bool) :
    Reading (Option MatArray × Cursor) := do
  let offset := cursor.offset
  let (element, cursor) ← cursor.element
  if element.tag.type ≠ .matrix then throw (.malformed offset (.inflatedType element.tag.type))
  let array ← element.payload.matrix wanted
  pure (array, cursor)

/-- Read an inflated stream: its arrays up to the first error, and that error if there is
one. Every element takes bytes, so no more than `bound` of them can follow in as many bytes. -/
def inflatedMatrices (wanted : String → Bool) :
    (bound : Nat) → (cursor : Cursor) → Reading (List MatArray × Option Error)
  | 0, _ => pure ([], none)
  | bound + 1, cursor =>
    if cursor.atEnd then pure ([], none)
    else do
      match ← (cursor.inflatedMatrix wanted).attempt with
      | .error error => pure ([], some error)
      | .ok (array, cursor) =>
        let (arrays, failure) ← inflatedMatrices wanted bound cursor
        pure (array.toList ++ arrays, failure)

/-- Inflate the payload of a compressed element. -/
def inflate (payload : Cursor) (inflate : Inflater) : Reading (List UInt8) :=
  match inflate payload.bytes with
  | .error reason => throw (.corruptCompressed payload.offset reason)
  | .ok content => do
    Reading.note (.inflated payload.remaining content.length payload.offset)
    pure content

/-! ### Elements at the top level -/

/-- Read the next element of a file. Offsets in what a compressed element spells count from
its own start. -/
def topLevel (cursor : Cursor) (inflate : Inflater) (wanted : String → Bool) :
    Reading ArrayStream := do
  let offset := cursor.offset
  let (element, cursor) ← cursor.element
  match element.tag.type with
  | .matrix => do
    let array ← element.payload.matrix wanted
    pure ⟨array.toList, .reading cursor⟩
  | .compressed => do
    let content ← element.payload.inflate inflate
    let (arrays, failure) ← inflatedMatrices wanted content.length (ofBytes content cursor.order)
    match failure with
    | none => pure ⟨arrays, .reading cursor⟩
    | some error => pure ⟨arrays, .failing error⟩
  | type => throw (.malformed offset (.topLevelType type))

/-- Whether the bytes that are left are padding, too few for a tag and all zero. -/
def atPadding (cursor : Cursor) : Bool :=
  decide (cursor.remaining < tagSize) && cursor.bytes.all fun byte => byte == 0

end Cursor

namespace ArrayStream

/-- A stream that yields nothing more. -/
def ended : ArrayStream := ⟨[], .ended⟩

/-- A stream that yields an error and nothing more. -/
def failing (error : Error) : ArrayStream := ⟨[], .failing error⟩

/-- The stream from a cursor on, with the next element read. The end of the bytes and
padding come before a cancellation, which comes before the element. -/
def advance (inflate : Inflater) (cursor : Cursor) (cancelled : Bool) (wanted : String → Bool) :
    Reading ArrayStream := do
  if cursor.atEnd then pure ended
  else if cursor.atPadding then
    Reading.note (.trailingPadding cursor.remaining)
    pure ended
  else if cancelled then
    Reading.note (.cancelled cursor.offset)
    pure (failing .cancelled)
  else
    match ← (cursor.topLevel inflate wanted).attempt with
    | .error error => pure (failing error)
    | .ok stream => pure stream

/-! ### One array at a time -/

/-- Yield the next item, reading no more than `bound` elements. An element takes bytes, so
the bound may be the number of bytes that are left; where it reaches zero none is left. -/
def nextWithin (inflate : Inflater) (cancelled : Bool) (wanted : String → Bool) :
    (bound : Nat) → ArrayStream → Reading (Option (Except Error MatArray) × ArrayStream)
  | _, ⟨array :: ready, continuation⟩ => pure (some (.ok array), ⟨ready, continuation⟩)
  | _, ⟨[], .failing error⟩ => pure (some (.error error), ended)
  | 0, ⟨[], _⟩ | _, ⟨[], .ended⟩ => pure (none, ended)
  | bound + 1, ⟨[], .reading cursor⟩ => do
    let stream ← advance inflate cursor cancelled wanted
    nextWithin inflate cancelled wanted bound stream

/-- The number of elements that a stream can still read. -/
def bound (stream : ArrayStream) : Nat :=
  match stream.continuation with
  | .reading cursor => cursor.remaining
  | _ => 0

/-- Yield the next item: an array or the error that ends the stream. -/
def next (stream : ArrayStream) (inflate : Inflater) (cancelled : Bool)
    (wanted : String → Bool) : Reading (Option (Except Error MatArray) × ArrayStream) :=
  nextWithin inflate cancelled wanted stream.bound stream

/-! ### All arrays -/

/-- All arrays that the stream yields, or the error that ends it, reading no more than
`bound` elements. -/
def arraysWithin (inflate : Inflater) (wanted : String → Bool) :
    (bound : Nat) → ArrayStream → Reading (List MatArray)
  | _, ⟨_, .failing error⟩ => throw error
  | 0, ⟨ready, _⟩ | _, ⟨ready, .ended⟩ => pure ready
  | bound + 1, ⟨ready, .reading cursor⟩ => do
    let stream ← advance inflate cursor false wanted
    let rest ← arraysWithin inflate wanted bound stream
    pure (ready ++ rest)

/-- All arrays that the stream yields, or the error that ends it. -/
def arrays (stream : ArrayStream) (inflate : Inflater) (wanted : String → Bool) :
    Reading (List MatArray) :=
  arraysWithin inflate wanted stream.bound stream

end ArrayStream

/-- Read the header of a file and give the stream of the arrays after it. -/
def openStream (bytes : List UInt8) : Reading (Header × ArrayStream) := do
  let header ← Header.read bytes
  let (_, cursor) := (Cursor.ofBytes bytes header.order).skipAtMost headerSize
  pure (header, ⟨[], .reading cursor⟩)

end MatFormat
