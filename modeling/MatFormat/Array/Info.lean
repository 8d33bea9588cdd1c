/-
This file holds what every array has, whatever its class: a name, a shape and the flags.
-/

import MatFormat.ArrayClass
import MatFormat.Shape

namespace MatFormat

/-- The name, the shape and the flags of an array. -/
structure ArrayInfo where
  name : String
  shape : Shape
  flags : Flags := {}
deriving DecidableEq, Repr

namespace ArrayInfo

/-- An array with the given name and dimensions and no flags. -/
def create (name : String) (dimensions : List Nat) : Except Error ArrayInfo :=
  match Shape.ofDimensions dimensions with
  | .ok shape => .ok { name, shape }
  | .error reason => .error (.invalidArray name reason)

/-- Accept exactly as many values as the shape has elements. -/
def checkCount (info : ArrayInfo) (actual : Nat) : Except Error Unit :=
  if info.shape.count = actual then .ok ()
  else .error (.dimensionMismatch info.name info.shape.count actual)

/-- The same array under another name. -/
def rename (info : ArrayInfo) (name : String) : ArrayInfo := { info with name }

/-- Set or clear the flag of global arrays. -/
def setGlobal (info : ArrayInfo) (global : Bool) : ArrayInfo :=
  { info with flags := { info.flags with global } }

/-- Set or clear the flag of logical arrays. -/
def setLogical (info : ArrayInfo) (logical : Bool) : ArrayInfo :=
  { info with flags := { info.flags with logical } }

/-- Set or clear the flag of complex arrays. -/
def setComplex (info : ArrayInfo) (complex : Bool) : ArrayInfo :=
  { info with flags := { info.flags with complex } }

/-- The first line of the text of an array. -/
def headline (info : ArrayInfo) (arrayClass : ArrayClass) : String :=
  s!"{info.name} = [{crossed info.shape.dimensions} {arrayClass.name}"
    ++ (if info.flags.complex then " complex" else "")
    ++ (if info.flags.logical then " logical" else "")
    ++ (if info.flags.global then " global" else "") ++ "]\n"

end ArrayInfo

end MatFormat
