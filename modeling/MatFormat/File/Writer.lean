/-
This file writes whole files: a header, then one element for each array, which is the matrix
element itself or a compressed element that spells it.
-/

import MatFormat.Header
import MatFormat.Matrix.Writer

namespace MatFormat

/-- Whether and at which level the elements of a file are compressed. -/
inductive Compression where
  | none
  | level (level : Nat)
deriving DecidableEq, Repr

/-- The compression that is used where none is asked for. -/
def Compression.default : Compression := .level 6

/-- How a file is written. -/
structure WriteOptions where
  order : ByteOrder := .native
  compression : Compression := .default
  description : String := Header.defaultDescription
deriving DecidableEq, Repr

/-- A compressor gives the stream that spells a run of bytes, at a level. -/
abbrev Compressor : Type := (level : Nat) → (content : List UInt8) → List UInt8

/-- The highest level of compression; one above it counts as this one. -/
def highestLevel : Nat := 9

/-- A compressed element, which has no padding. -/
def encodeCompressed (compress : Compressor) (order : ByteOrder) (level : Nat)
    (content : List UInt8) : Except Error (List UInt8) := do
  let payload := compress (min level highestLevel) content
  let tag ← encodeTag order .compressed payload.length
  pure (tag ++ payload)

/-- The element of a file that holds an array. -/
def encodeTopLevel (compress : Compressor) (order : ByteOrder) (compression : Compression)
    (array : MatArray) : Except Error (List UInt8) := do
  let element ← array.element order
  match compression with
  | .none => pure element
  | .level level => encodeCompressed compress order level element

/-- The bytes of a file with the given arrays, compressed with the given compressor. -/
def encodeFileWith (compress : Compressor) (arrays : List MatArray) (options : WriteOptions) :
    Except Error (List UInt8) := do
  let elements ←
    joinParts (arrays.map (encodeTopLevel compress options.order options.compression))
  pure (Header.encode options.description options.order ++ elements)

end MatFormat
