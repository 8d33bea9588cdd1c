/-
This file reads files with machine numbers. The elements of a file are read one after the
other; what a compressed element spells waits in a queue until it is asked for. Inflating is
left to the platform, which gives bytes that fit in memory or a fault, and so is the size of a
slot in memory. A loop that goes on for more turns than it is given is a trap.
-/

import MatFormat.Checked.Matrix
import MatFormat.File.Basic
import MatFormat.Stream

namespace MatFormat

namespace Checked

/-- What the reader is built on: how many bytes a slot takes, and how a stream is inflated. -/
structure Platform where
  slotSize : Nat
  narrow : slotSize ≤ slotLimit
  inflate : List UInt8 → Except String Buffer

/-- The inflater of a platform, which tells the bytes of the buffers that it gives. -/
def Platform.inflater (platform : Platform) : Inflater := fun stream =>
  match platform.inflate stream with
  | .error reason => .error reason
  | .ok content => .ok content.bytes

/-! ### The header -/

/-- Read the header at the start of a file. -/
def header (bytes : List UInt8) : Computation Header :=
  if bytes.length < headerSize then fail (.truncated 0 headerSize bytes.length)
  else do
    let first ← item bytes markerOffset
    let second ← item bytes (markerOffset + 1)
    match ByteOrder.ofMarker? [first, second] with
    | none => fail (.malformed markerOffset (.marker (Utf8.decodeLossy [first, second])))
    | some order => do
      let first ← item bytes versionOffset
      let second ← item bytes (versionOffset + 1)
      let version := order.decode [first, second]
      if version ≠ formatVersion then fail (.malformed versionOffset (.version version))
      else
        let text ← slice bytes 0 descriptionSize
        let text ← before (fun byte => byte == 0) text
        let description := String.ofList (trimEnd (Utf8.decodeLossy text).toList)
        pure { description, version, order }

/-! ### Compressed elements -/

/-- The items that wait to be yielded. -/
abbrev Queue : Type := List (Except Error MatArray)

/-- Inflate the payload of a compressed element. Room for four times its bytes is made
first. -/
def inflated (platform : Platform) (part : Part) : Computation Buffer := do
  let (compressed, _) ← part.payload.take part.tag.size
  let offset ← part.payload.offset
  reserve (Cursor.saturatingProduct compressed.length 4) 1
  match platform.inflate compressed with
  | .error reason => fail (.corruptCompressed offset reason)
  | .ok content => pure content

/-- Read the next matrix of an inflated stream. -/
def Window.inflatedMatrix (window : Window) (slotSize : Nat) (wanted : String → Bool) :
    Computation (Option MatArray × Window) := do
  let offset ← window.offset
  let (part, window) ← window.element
  if part.tag.type ≠ .matrix then fail (.malformed offset (.inflatedType part.tag.type))
  else
    let array ← part.payload.matrix slotSize wanted
    pure (array, window)

/-- Put the matrices of an inflated stream into a queue, up to the first error and with it. -/
def enqueue (slotSize : Nat) (wanted : String → Bool) :
    (turns : Nat) → (window : Window) → (queue : Queue) → Computation Queue
  | 0, window, queue => if window.atEnd then pure queue else stuck .unfinished
  | turns + 1, window, queue =>
    if window.atEnd then pure queue
    else
      match window.inflatedMatrix slotSize wanted with
      | .ok (array, window) =>
        enqueue slotSize wanted turns window (queue ++ array.toList.map .ok)
      | .error (.error error) => pure (queue ++ [.error error])
      | .error (.trap trap) => stuck trap

/-! ### Elements -/

/-- The elements of a file: where the next one starts, the items that wait, and whether
nothing comes after them. -/
structure Elements where
  window : Window
  pending : Queue
  done : Bool

namespace Elements

variable (platform : Platform) (wanted : String → Bool)

/-- Read the next element, and put what it gives behind the items that wait. -/
def step (elements : Elements) : Computation Elements := do
  let offset ← elements.window.offset
  let (part, window) ← elements.window.element
  match part.tag.type with
  | .matrix => do
    let array ← part.payload.matrix platform.slotSize wanted
    pure { elements with window, pending := elements.pending ++ array.toList.map .ok }
  | .compressed => do
    let content ← inflated platform part
    let pending ← enqueue platform.slotSize wanted content.bytes.length
      (.ofBytes content.bytes window.order) elements.pending
    pure { elements with window, pending }
  | type => fail (.malformed offset (.topLevelType type))

/-- Whether the bytes that are left are padding. -/
def atPadding (elements : Elements) : Computation Bool := do
  let rest ← elements.window.remaining
  if rest < tagSize then
    match elements.window.take rest with
    | .ok (bytes, _) => pure (bytes.all fun byte => byte == 0)
    | .error (.error _) => pure false
    | .error (.trap trap) => stuck trap
  else pure false

/-- Try again after an element that was read, and stop at one that was not. -/
def afterStep (elements : Elements)
    (again : Elements → Computation (Option (Except Error MatArray) × Elements)) :
    Computation Elements → Computation (Option (Except Error MatArray) × Elements)
  | .ok next => again next
  | .error (.error error) => pure (some (.error error), { elements with done := true })
  | .error (.trap trap) => stuck trap

/-- Yield the first item that waits, or read on and try again. After an error nothing is
yielded, and where the next element starts is of no account. -/
def turn (cancelled : Bool)
    (again : Elements → Computation (Option (Except Error MatArray) × Elements))
    (elements : Elements) : Computation (Option (Except Error MatArray) × Elements) :=
  match elements.pending with
  | .ok array :: pending => pure (some (.ok array), { elements with pending })
  | .error error :: _ => pure (some (.error error), { elements with pending := [], done := true })
  | [] =>
    if elements.done || elements.window.atEnd then pure (none, elements)
    else do
      if ← elements.atPadding then
        let _ ← elements.window.remaining
        pure (none, { elements with done := true })
      else if cancelled then
        let _ ← elements.window.offset
        pure (some (.error .cancelled), { elements with done := true })
      else elements.afterStep again (elements.step platform wanted)

/-- Yield the next item, reading no more than a number of elements. -/
def nextWithin (cancelled : Bool) :
    (turns : Nat) → Elements → Computation (Option (Except Error MatArray) × Elements)
  | 0 => turn platform wanted cancelled fun _ => stuck .unfinished
  | turns + 1 => turn platform wanted cancelled (nextWithin cancelled turns)

/-- Yield the next item. Every element takes bytes of the file. -/
def next (elements : Elements) (cancelled : Bool) :
    Computation (Option (Except Error MatArray) × Elements) :=
  nextWithin platform wanted cancelled elements.window.data.length elements

/-- The items for a sequence of requests, each of which comes with or without a
cancellation. -/
def items : (schedule : List Bool) → Elements →
    Computation (List (Option (Except Error MatArray)))
  | [], _ => pure []
  | cancelled :: schedule, elements => do
    let (first, elements) ← elements.next platform wanted cancelled
    let rest ← items schedule elements
    pure (first :: rest)

/-- All arrays, or the first error, with no more than a number of requests. -/
def arrays : (limit : Nat) → Elements → Computation (List MatArray)
  | 0, _ => stuck .unfinished
  | limit + 1, elements => do
    let (first, elements) ← elements.next platform wanted false
    match first with
    | none => pure []
    | some (.error error) => fail error
    | some (.ok array) => do
      let rest ← arrays limit elements
      pure (array :: rest)

end Elements

/-! ### Files -/

/-- Read the header of a file and give its elements. -/
def openElements (file : Buffer) : Computation (Header × Elements) := do
  let header ← header file.bytes
  let (_, window) ← (Window.ofBytes file.bytes header.order).skipAtMost headerSize
  pure (header, ⟨window, [], false⟩)

/-- The items of a file for a sequence of requests. -/
def Platform.items (platform : Platform) (wanted : String → Bool) (schedule : List Bool)
    (file : Buffer) : Computation (List (Option (Except Error MatArray))) := do
  let (_, elements) ← openElements file
  elements.items platform wanted schedule

/-- Read a file with those of its arrays whose names are wanted, with no more than a number of
requests for an array. -/
def Platform.read (platform : Platform) (wanted : String → Bool) (limit : Nat) (file : Buffer) :
    Computation MatFile := do
  let (header, elements) ← openElements file
  let arrays ← elements.arrays platform wanted limit
  pure (MatFile.ofArrays header arrays)

end Checked

end MatFormat
