/-
This file describes the ten numeric classes. A value of a class is a bit pattern as wide as
the class, and the class says how the pattern is read: as a number in two's complement, as
an unsigned number, or as a floating point number. A value moves from one class to another
through the widest number of its kind. Integers keep their value modulo the width of the
target, floating point numbers drop their fraction and stop at the ends of the target's
range, and an integer becomes the nearest floating point number.
-/

import MatFormat.Binary.Shortest
import MatFormat.ByteOrder
import MatFormat.DataType

namespace MatFormat

/-- A class of numbers that an array can hold. -/
inductive NumericClass where
  | double
  | single
  | int8
  | uint8
  | int16
  | uint16
  | int32
  | uint32
  | int64
  | uint64
deriving DecidableEq, Repr

namespace NumericClass

/-- Every numeric class. -/
def all : List NumericClass :=
  [double, single, int8, uint8, int16, uint16, int32, uint32, int64, uint64]

/-- The bytes of one value of the class. -/
def size : NumericClass → Nat
  | int8 | uint8 => 1
  | int16 | uint16 => 2
  | single | int32 | uint32 => 4
  | double | int64 | uint64 => 8

/-- A value of a class is a bit pattern of its width. -/
abbrev Value (numericClass : NumericClass) : Type := BitVec (8 * numericClass.size)

/-- The element type that holds values of the class as they are. -/
def dataType : NumericClass → DataType
  | double => .double
  | single => .single
  | int8 => .int8
  | uint8 => .uint8
  | int16 => .int16
  | uint16 => .uint16
  | int32 => .int32
  | uint32 => .uint32
  | int64 => .int64
  | uint64 => .uint64

theorem size_dataType (numericClass : NumericClass) :
    numericClass.dataType.size = numericClass.size := by
  cases numericClass <;> rfl

theorem size_pos (numericClass : NumericClass) : 0 < numericClass.size := by
  cases numericClass <;> decide

/-- How the bit patterns of a class are read. -/
inductive Form where
  | float (format : BinaryFormat)
  | signed
  | unsigned
deriving DecidableEq, Repr

/-- How the bit patterns of the class are read. -/
def form : NumericClass → Form
  | double => .float .binary64
  | single => .float .binary32
  | int8 | int16 | int32 | int64 => .signed
  | uint8 | uint16 | uint32 | uint64 => .unsigned

/-! ### Values as bytes -/

/-- The value that the bytes of a file spell. -/
def read (numericClass : NumericClass) (order : ByteOrder) (bytes : List UInt8) :
    numericClass.Value :=
  BitVec.ofNat _ (order.decode bytes)

/-- The bytes of a value in a file. -/
def write (numericClass : NumericClass) (order : ByteOrder) (value : numericClass.Value) :
    List UInt8 :=
  order.encode numericClass.size value.toNat

theorem length_write (numericClass : NumericClass) (order : ByteOrder)
    (value : numericClass.Value) :
    (numericClass.write order value).length = numericClass.size :=
  order.length_encode _ _

theorem read_write (numericClass : NumericClass) (order : ByteOrder)
    (value : numericClass.Value) :
    numericClass.read order (numericClass.write order value) = value := by
  apply BitVec.eq_of_toNat_eq
  have bound := value.isLt
  rw [Nat.pow_mul] at bound
  rw [read, write, order.decode_encode, BitVec.toNat_ofNat, Nat.mod_eq_of_lt bound,
    Nat.mod_eq_of_lt value.isLt]

theorem write_read (numericClass : NumericClass) (order : ByteOrder) (bytes : List UInt8)
    (whole : bytes.length = numericClass.size) :
    numericClass.write order (numericClass.read order bytes) = bytes := by
  have bound := order.decode_lt bytes
  have width : 256 ^ bytes.length = 2 ^ (8 * numericClass.size) := by rw [whole, Nat.pow_mul]
  rw [write, read, BitVec.toNat_ofNat, ← width, Nat.mod_eq_of_lt bound, ← whole,
    order.encode_decode]

/-! ### Widened numbers -/

end NumericClass

/-- A number widened to the widest of its kind: an integer, an unsigned integer, or a
floating point number as its 64-bit pattern. -/
inductive Scalar where
  | int (value : Int)
  | uint (value : Nat)
  | float (pattern : Nat)
deriving DecidableEq, Repr

namespace NumericClass

/-- Widen a value of the class. -/
def widen (numericClass : NumericClass) (value : numericClass.Value) : Scalar :=
  match numericClass.form with
  | .float format => .float (if format = .binary64 then value.toNat
      else format.convert .binary64 value.toNat)
  | .signed => .int value.toInt
  | .unsigned => .uint value.toNat

/-- The ends of the range of an integer class. -/
def bounds (numericClass : NumericClass) : Int × Int :=
  match numericClass.form with
  | .unsigned => (0, 2 ^ (8 * numericClass.size) - 1)
  | _ => (-2 ^ (8 * numericClass.size - 1), 2 ^ (8 * numericClass.size - 1) - 1)

/-- Bring a widened number into the class. -/
def narrow (numericClass : NumericClass) (scalar : Scalar) : numericClass.Value :=
  match numericClass.form, scalar with
  | .float format, .int value => BitVec.ofNat _ (format.ofInt value)
  | .float format, .uint value => BitVec.ofNat _ (format.ofInt value)
  | .float format, .float pattern => BitVec.ofNat _ (if format = .binary64 then pattern
      else BinaryFormat.convert .binary64 format pattern)
  | _, .int value => BitVec.ofInt _ value
  | _, .uint value => BitVec.ofNat _ value
  | _, .float pattern =>
    BitVec.ofInt _ (BinaryFormat.truncate .binary64 numericClass.bounds.1 numericClass.bounds.2
      pattern)

/-- Two values are the same when they have one bit pattern or neither is a number. -/
def same (numericClass : NumericClass) (first second : numericClass.Value) : Bool :=
  match numericClass.form with
  | .float format =>
    first == second || (format.isNotANumber first.toNat && format.isNotANumber second.toNat)
  | _ => first == second

/-- Two runs are the same when they have one length and the same values in order. -/
def sameRun (numericClass : NumericClass) : (first second : List numericClass.Value) → Bool
  | [], [] => true
  | value :: first, other :: second =>
    numericClass.same value other && numericClass.sameRun first second
  | _, _ => false

/-- Two optional runs are the same when both are absent or both are present and the same. -/
def sameRun? (numericClass : NumericClass) :
    (first second : Option (List numericClass.Value)) → Bool
  | none, none => true
  | some first, some second => numericClass.sameRun first second
  | _, _ => false

/-- The text of a value. -/
def text (numericClass : NumericClass) (value : numericClass.Value) : String :=
  match numericClass.form with
  | .float format => format.text value.toNat
  | .signed => toString value.toInt
  | .unsigned => toString value.toNat

end NumericClass

namespace DataType

/-- The class that reads one stored number of the type, absent for a type that holds no
numbers. The text types hold unsigned code units. -/
def storedClass? : DataType → Option NumericClass
  | int8 => some .int8
  | uint8 | utf8 => some .uint8
  | int16 => some .int16
  | uint16 | utf16 => some .uint16
  | int32 => some .int32
  | uint32 | utf32 => some .uint32
  | single => some .single
  | double => some .double
  | int64 => some .int64
  | uint64 => some .uint64
  | matrix | compressed => none

theorem size_of_storedClass? {type : DataType} {stored : NumericClass}
    (holds : type.storedClass? = some stored) : type.size = stored.size := by
  cases type <;> cases holds <;> rfl

theorem isPrimitive_iff_storedClass? (type : DataType) :
    type.isPrimitive = type.storedClass?.isSome := by
  cases type <;> rfl

end DataType

/-- The widened number that the first bytes of a run spell, as many as one stored value of
the type takes. -/
def Scalar.read? (type : DataType) (order : ByteOrder) (bytes : List UInt8) : Option Scalar :=
  type.storedClass?.map fun stored => stored.widen (stored.read order (bytes.take stored.size))

end MatFormat
