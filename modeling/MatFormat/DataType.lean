/-
This file lists the types of data elements. Every element of a file starts with a tag that
names its type by a code. Thirteen types hold runs of numbers of one width; a matrix holds
further elements and a compressed element holds a compressed stream, so the unit of these
two is the byte.
-/

namespace MatFormat

/-- The type of a data element. -/
inductive DataType where
  | int8
  | uint8
  | int16
  | uint16
  | int32
  | uint32
  | single
  | double
  | int64
  | uint64
  | matrix
  | compressed
  | utf8
  | utf16
  | utf32
deriving DecidableEq, Repr

namespace DataType

/-- The code of the type in a tag. -/
def code : DataType → Nat
  | int8 => 1
  | uint8 => 2
  | int16 => 3
  | uint16 => 4
  | int32 => 5
  | uint32 => 6
  | single => 7
  | double => 9
  | int64 => 12
  | uint64 => 13
  | matrix => 14
  | compressed => 15
  | utf8 => 16
  | utf16 => 17
  | utf32 => 18

/-- The type that a code names, if any. -/
def ofCode? : Nat → Option DataType
  | 1 => some int8
  | 2 => some uint8
  | 3 => some int16
  | 4 => some uint16
  | 5 => some int32
  | 6 => some uint32
  | 7 => some single
  | 9 => some double
  | 12 => some int64
  | 13 => some uint64
  | 14 => some matrix
  | 15 => some compressed
  | 16 => some utf8
  | 17 => some utf16
  | 18 => some utf32
  | _ => none

/-- The bytes of one value of the type. -/
def size : DataType → Nat
  | int8 | uint8 | utf8 | matrix | compressed => 1
  | int16 | uint16 | utf16 => 2
  | int32 | uint32 | single | utf32 => 4
  | double | int64 | uint64 => 8

/-- Whether an element of the type is a run of numbers. -/
def isPrimitive : DataType → Bool
  | matrix | compressed => false
  | _ => true

/-- The name of the type in a message. -/
def name : DataType → String
  | int8 => "Int8"
  | uint8 => "UInt8"
  | int16 => "Int16"
  | uint16 => "UInt16"
  | int32 => "Int32"
  | uint32 => "UInt32"
  | single => "Single"
  | double => "Double"
  | int64 => "Int64"
  | uint64 => "UInt64"
  | matrix => "Matrix"
  | compressed => "Compressed"
  | utf8 => "Utf8"
  | utf16 => "Utf16"
  | utf32 => "Utf32"

theorem ofCode?_code (type : DataType) : ofCode? type.code = some type := by
  cases type <;> rfl

theorem code_of_ofCode? {code : Nat} {type : DataType} (named : ofCode? code = some type) :
    type.code = code := by
  unfold ofCode? at named
  split at named <;> first | cases named; rfl | contradiction

theorem size_pos (type : DataType) : 0 < type.size := by
  cases type <;> decide

theorem code_lt (type : DataType) : type.code < 65536 := by
  cases type <;> decide

end DataType

end MatFormat
