/-
This file lists what can go wrong, by cause. Bytes can break the format at some place, a
run can hold fewer bytes or values than it claims, a compressed stream can be unreadable,
and an array can be one that the format or its own shape does not allow. Each cause has one
text.
-/

import MatFormat.DataType
import MatFormat.Text.Quoted
import MatFormat.Text.Utf8

namespace MatFormat

/-- The texts of a list in brackets. -/
def bracketed (texts : List String) : String :=
  "[" ++ String.intercalate ", " texts ++ "]"

/-- Why an array is not allowed. -/
inductive Invalidity where
  | rank (dimensions : List Nat)
  | elementCount (dimensions : List Nat)
  | rowCount (values rows : Nat)
  | cellIndex (index count : Nat)
  | structIndex (index count : Nat)
  | fieldName (name : String)
  | columnCount (columns : Nat)
  | entry (row column rows columns : Nat)
  | firstColumnPointer
  | decreasingColumnPointers (column : Nat)
  | rowIndex (row rows : Nat)
  | wideIndex (value : Nat)
  | wideCapacity
  | longElement (size : Nat)
  | longFieldName (name : String) (limit : Nat)
deriving DecidableEq, Repr

/-- The text of the reason. -/
def Invalidity.message : Invalidity → String
  | rank dimensions => s!"rank must be at least 2, got {bracketed (dimensions.map toString)}"
  | elementCount dimensions =>
    s!"element count of {bracketed (dimensions.map toString)} overflows usize"
  | rowCount values rows => s!"{values} values cannot be split into {rows} rows"
  | cellIndex index count => s!"cell index {index} out of bounds for {count} cells"
  | structIndex index count => s!"struct index {index} out of bounds for {count} elements"
  | fieldName name => s!"invalid field name {quote name}"
  | columnCount columns => s!"{columns} columns is too many"
  | entry row column rows columns => s!"entry ({row}, {column}) outside {rows}x{columns}"
  | firstColumnPointer => "first column pointer must be 0"
  | decreasingColumnPointers column => s!"column pointers decrease at column {column}"
  | rowIndex row rows => s!"row index {row} outside {rows} rows"
  | wideIndex value => s!"{value} does not fit in 32 bits"
  | wideCapacity => "nzmax does not fit in 32 bits"
  | longElement size => s!"element of {size} bytes exceeds 4 GiB"
  | longFieldName name limit => s!"field name {quote name} is longer than {limit} bytes"

/-- How bytes break the format. -/
inductive Malformation where
  | packedSize (size : Nat)
  | unknownType (code : Nat)
  | packedType (type : DataType)
  | notNumbers (type : DataType)
  | partialValue (size : Nat) (type : DataType)
  | surplusValues (expected found : Nat)
  | invalidText (fault : Utf8.Fault)
  | negativeIndex (value : Int)
  | flagWords (count : Nat)
  | rank (count : Nat)
  | invalidArray (name : String) (reason : Invalidity)
  | nestedType (type : DataType)
  | fieldNameLength (values : List Int)
  | columnPointerCount (count columns : Nat)
  | columnPointerOrder
  | rowIndex (row rows : Nat)
  | topLevelType (type : DataType)
  | inflatedType (type : DataType)
  | marker (text : String)
  | version (number : Nat)
deriving DecidableEq, Repr

/-- The text about an array that is not allowed. -/
def invalidArrayMessage (name : String) (reason : Invalidity) : String :=
  s!"Invalid array '{name}': {reason.message}"

/-- A number in hexadecimal with at least four digits. -/
def fourHexDigits (value : Nat) : String :=
  let digits := hexDigits value
  String.ofList (List.replicate (4 - digits.length) '0' ++ digits)

/-- The text of the breach. -/
def Malformation.message : Malformation → String
  | packedSize size => s!"packed element claims {size} bytes"
  | unknownType code => s!"unknown data type {code}"
  | packedType type => s!"{type.name} element cannot use the packed form"
  | notNumbers type => s!"expected numeric data, found {type.name}"
  | partialValue size type => s!"{size} bytes is not a whole number of {type.name} values"
  | surplusValues expected found => s!"expected {expected} values, found {found}"
  | invalidText fault => s!"invalid UTF-8 text: {fault.message}"
  | negativeIndex value => s!"negative index {value}"
  | flagWords count => s!"array flags hold {count} words, expected 2"
  | rank count => s!"array rank must be at least 2, got {count}"
  | invalidArray name reason => invalidArrayMessage name reason
  | nestedType type => s!"expected nested matrix, found {type.name}"
  | fieldNameLength values => s!"invalid field name length {bracketed (values.map toString)}"
  | columnPointerCount count columns => s!"{count} column pointers for {columns} columns"
  | columnPointerOrder => "column pointers are not non-decreasing from 0"
  | rowIndex row rows => s!"row index {row} outside {rows} rows"
  | topLevelType type => s!"unexpected top-level element {type.name}"
  | inflatedType type => s!"compressed stream holds {type.name}, expected a matrix"
  | marker text => s!"unknown endian marker {quote text}"
  | version number => s!"unsupported version 0x{fourHexDigits number}"

/-- What went wrong. An offset counts from the start of the bytes being read, which for
bytes out of a compressed element is the start of the stream it spells. -/
inductive Error where
  | malformed (offset : Nat) (reason : Malformation)
  | truncated (offset needed available : Nat)
  | corruptCompressed (offset : Nat) (reason : String)
  | unsupportedClass (code : Nat)
  | dimensionMismatch (name : String) (expected actual : Nat)
  | invalidArray (name : String) (reason : Invalidity)
  | cancelled
deriving DecidableEq, Repr

/-- The text of what went wrong. -/
def Error.message : Error → String
  | malformed offset reason => s!"Malformed MAT-file at offset {offset}: {reason.message}"
  | truncated offset needed available =>
    s!"Truncated data at offset {offset}: needed {needed}, only {available} available"
  | corruptCompressed offset reason =>
    s!"Corrupt compressed element at offset {offset}: {reason}"
  | unsupportedClass code => s!"Unsupported array class code {code}"
  | dimensionMismatch name expected actual =>
    s!"Dimension mismatch for '{name}': dimensions hold {expected} elements, data has {actual}"
  | invalidArray name reason => invalidArrayMessage name reason
  | cancelled => "Decoding cancelled"

end MatFormat
