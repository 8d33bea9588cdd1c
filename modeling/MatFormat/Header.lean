/-
This file reads and writes the header of a file. A header has 128 bytes: a description that
fills 116 bytes, eight bytes that are not used, the version, and a marker that tells the
byte order of the version and of everything after the header.
-/

import MatFormat.Notice
import MatFormat.Text.Blank

namespace MatFormat

/-- The bytes of a header. -/
def headerSize : Nat := 128

/-- The bytes of the description in a header. -/
def descriptionSize : Nat := 116

/-- The offset of the version. -/
def versionOffset : Nat := 124

/-- The offset of the marker. -/
def markerOffset : Nat := 126

/-- The version of the format. -/
def formatVersion : Nat := 0x0100

/-- The header of a file. -/
structure Header where
  description : String
  version : Nat := formatVersion
  order : ByteOrder
deriving DecidableEq, Repr

namespace Header

/-- The description of a file whose writer gives none. -/
def defaultDescription : String :=
  "MATLAB 5.0 MAT-file, Platform: linux, Created by: mat5 0.1.0"

/-- The header of a file about which nothing else is known. -/
def default : Header where
  description := defaultDescription
  order := .native

/-! ### Reading -/

/-- The text that the bytes of a description spell: it ends before the first NUL and has no
blanks at its end. -/
def readDescription (bytes : List UInt8) : String :=
  String.ofList (trimEnd (Utf8.decodeLossy (bytes.takeWhile fun byte => byte != 0)).toList)

/-- Read the header at the start of a file. The marker is looked at before the version,
because the version needs the byte order. -/
def read (bytes : List UInt8) : Reading Header := do
  if bytes.length < headerSize then throw (.truncated 0 headerSize bytes.length)
  let marker := (bytes.drop markerOffset).take 2
  match ByteOrder.ofMarker? marker with
  | none => throw (.malformed markerOffset (.marker (Utf8.decodeLossy marker)))
  | some order => do
    let version := order.decode ((bytes.drop versionOffset).take 2)
    if version ≠ formatVersion then throw (.malformed versionOffset (.version version))
    let description := readDescription (bytes.take descriptionSize)
    Reading.note (.header description order)
    pure { description, version, order }

/-! ### Writing -/

/-- The longest start of a text that is spelled in no more than `room` bytes. -/
def fitting (room : Nat) : List Char → List Char
  | [] => []
  | char :: rest =>
    let size := (Utf8.encodeChar char).length
    if size ≤ room then char :: fitting (room - size) rest else []

theorem length_fitting_le (room : Nat) (text : List Char) :
    ((fitting room text).flatMap Utf8.encodeChar).length ≤ room := by
  induction text generalizing room with
  | nil => exact Nat.zero_le room
  | cons char rest inductionHypothesis =>
    unfold fitting
    dsimp only
    split
    · rename_i fits
      have tail := inductionHypothesis (room - (Utf8.encodeChar char).length)
      rw [List.flatMap_cons, List.length_append]
      omega
    · exact Nat.zero_le room

/-- The bytes of a description, cut at the end of a character or filled up with spaces. -/
def encodeDescription (description : String) : List UInt8 :=
  let bytes := (fitting descriptionSize description.toList).flatMap Utf8.encodeChar
  bytes ++ List.replicate (descriptionSize - bytes.length) 0x20

/-- The bytes of a header. -/
def encode (description : String) (order : ByteOrder) : List UInt8 :=
  encodeDescription description ++ List.replicate 8 0 ++ order.encode 2 formatVersion
    ++ order.marker

theorem length_encodeDescription (description : String) :
    (encodeDescription description).length = descriptionSize := by
  have bound := length_fitting_le descriptionSize description.toList
  rw [encodeDescription, List.length_append, List.length_replicate]
  omega

theorem length_encode (description : String) (order : ByteOrder) :
    (encode description order).length = headerSize := by
  have marker : order.marker.length = 2 := by cases order <;> rfl
  rw [encode, List.length_append, List.length_append, List.length_append,
    length_encodeDescription, List.length_replicate, order.length_encode, marker]
  rfl

end Header

end MatFormat
