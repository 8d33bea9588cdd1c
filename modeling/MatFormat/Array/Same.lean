/-
This file compares arrays of any class. Two arrays are the same when they are of one kind
and agree in every part at every depth, where values that are not numbers count as one
value and a declared capacity of a sparse matrix counts only above its entries.
-/

import MatFormat.Array.Basic

namespace MatFormat

mutual

/-- Whether two arrays are the same. -/
def MatArray.same : MatArray → MatArray → Bool
  | .numeric numericClass first, .numeric other second =>
    if equal : numericClass = other then (equal ▸ first).same second else false
  | .char first, .char second => first == second
  | .cell ⟨info, cells⟩, .cell ⟨otherInfo, otherCells⟩ =>
    info == otherInfo && sameSlots cells otherCells
  | .struct ⟨info, className, fields⟩, .struct ⟨otherInfo, otherClassName, otherFields⟩ =>
    info == otherInfo && className == otherClassName && sameFields fields otherFields
  | .sparse first, .sparse second => first.same second
  | _, _ => false

/-- Whether two runs of slots are the same. -/
def sameSlots : List (Option MatArray) → List (Option MatArray) → Bool
  | [], [] => true
  | slot :: rest, otherSlot :: otherRest => sameSlot slot otherSlot && sameSlots rest otherRest
  | _, _ => false

/-- Whether two slots are the same. -/
def sameSlot : Option MatArray → Option MatArray → Bool
  | none, none => true
  | some array, some other => array.same other
  | _, _ => false

/-- Whether two runs of fields are the same. -/
def sameFields : List (Field MatArray) → List (Field MatArray) → Bool
  | [], [] => true
  | ⟨name, slots⟩ :: rest, ⟨otherName, otherSlots⟩ :: otherRest =>
    name == otherName && sameSlots slots otherSlots && sameFields rest otherRest
  | _, _ => false

end

instance : BEq MatArray := ⟨MatArray.same⟩

/-- Whether two runs of arrays are the same. -/
def sameArrays : List MatArray → List MatArray → Bool
  | [], [] => true
  | array :: rest, other :: otherRest => array.same other && sameArrays rest otherRest
  | _, _ => false

end MatFormat
