/-
This file lists the classes of arrays and the three flags that an array carries. Both stand
in one word of an encoded array: the class in its lowest byte and each flag in one bit
above.
-/

import MatFormat.NumericClass

namespace MatFormat

/-- The class of an array. -/
inductive ArrayClass where
  | cell
  | struct
  | object
  | char
  | sparse
  | numeric (numericClass : NumericClass)
deriving DecidableEq, Repr

namespace ArrayClass

/-- The code of the class. -/
def code : ArrayClass → Nat
  | cell => 1
  | struct => 2
  | object => 3
  | char => 4
  | sparse => 5
  | numeric .double => 6
  | numeric .single => 7
  | numeric .int8 => 8
  | numeric .uint8 => 9
  | numeric .int16 => 10
  | numeric .uint16 => 11
  | numeric .int32 => 12
  | numeric .uint32 => 13
  | numeric .int64 => 14
  | numeric .uint64 => 15

/-- The class that a code names, if any. -/
def ofCode? : Nat → Option ArrayClass
  | 1 => some cell
  | 2 => some struct
  | 3 => some object
  | 4 => some char
  | 5 => some sparse
  | 6 => some (numeric .double)
  | 7 => some (numeric .single)
  | 8 => some (numeric .int8)
  | 9 => some (numeric .uint8)
  | 10 => some (numeric .int16)
  | 11 => some (numeric .uint16)
  | 12 => some (numeric .int32)
  | 13 => some (numeric .uint32)
  | 14 => some (numeric .int64)
  | 15 => some (numeric .uint64)
  | _ => none

/-- The name of the class. -/
def name : ArrayClass → String
  | cell => "cell"
  | struct => "struct"
  | object => "object"
  | char => "char"
  | sparse => "sparse"
  | numeric .double => "double"
  | numeric .single => "single"
  | numeric .int8 => "int8"
  | numeric .uint8 => "uint8"
  | numeric .int16 => "int16"
  | numeric .uint16 => "uint16"
  | numeric .int32 => "int32"
  | numeric .uint32 => "uint32"
  | numeric .int64 => "int64"
  | numeric .uint64 => "uint64"

theorem ofCode?_code (arrayClass : ArrayClass) : ofCode? arrayClass.code = some arrayClass := by
  rcases arrayClass with _ | _ | _ | _ | _ | numericClass
  case numeric => cases numericClass <;> rfl
  all_goals rfl

theorem code_lt (arrayClass : ArrayClass) : arrayClass.code < 256 := by
  rcases arrayClass with _ | _ | _ | _ | _ | numericClass
  case numeric => cases numericClass <;> decide
  all_goals decide

end ArrayClass

/-- The flags of an array. -/
structure Flags where
  complex : Bool := false
  global : Bool := false
  logical : Bool := false
deriving DecidableEq, Repr

namespace Flags

/-- The flags in a word: bits 11, 10 and 9. -/
def ofWord (word : Nat) : Flags where
  complex := word.testBit 11
  global := word.testBit 10
  logical := word.testBit 9

/-- The word that carries the flags and nothing else. -/
def word (flags : Flags) : Nat :=
  flags.complex.toNat * 2 ^ 11 + flags.global.toNat * 2 ^ 10 + flags.logical.toNat * 2 ^ 9

end Flags

end MatFormat
