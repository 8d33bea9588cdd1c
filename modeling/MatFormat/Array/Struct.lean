/-
This file describes struct arrays. A struct array has fields, and each field has one slot
for every element of the array, which holds an item or is unset. A struct array with the
name of a class is an object. A field is declared once; its name is not empty, has at most
63 bytes, and has no NUL in it.
-/

import MatFormat.Array.Info
import MatFormat.Checked.Computation

namespace MatFormat

/-- A field: its name and its slots, one to an element. -/
structure Field (Item : Type) where
  name : String
  slots : List (Option Item)
deriving DecidableEq, Repr

/-- A struct array, or an object where a class is named. -/
structure StructArray (Item : Type) where
  info : ArrayInfo
  className : Option String := none
  fields : List (Field Item) := []
deriving DecidableEq, Repr

/-- The most bytes that the name of a field has. -/
def fieldNameLimit : Nat := 63

/-- The bytes of a name. -/
def nameLength (name : String) : Nat := (Utf8.encode name).length

/-- Whether a field can be declared under a name. -/
def isFieldName (name : String) : Bool :=
  decide (name ≠ "") && decide (nameLength name ≤ fieldNameLimit)
    && name.toList.all fun char => char.toNat != 0

/-- Change the first item of a list that passes a test, if one does. -/
def modifyFirst? {Item : Type} (test : Item → Bool) (change : Item → Item) :
    List Item → Option (List Item)
  | [] => none
  | item :: rest =>
    if test item then some (change item :: rest)
    else (modifyFirst? test change rest).map (item :: ·)

namespace StructArray

variable {Item : Type}

/-! ### Construction -/

/-- A struct array without fields. -/
def create (name : String) (dimensions : List Nat) : Except Error (StructArray Item) := do
  let info ← ArrayInfo.create name dimensions
  pure { info }

/-- An object without fields. -/
def createObject (name className : String) (dimensions : List Nat) :
    Except Error (StructArray Item) := do
  let info ← ArrayInfo.create name dimensions
  pure { info, className := some className }

/-- The number of elements. -/
def count (array : StructArray Item) : Nat := array.info.shape.count

/-- The names of the fields in the order of declaration. -/
def fieldNames (array : StructArray Item) : List String := array.fields.map Field.name

/-- The class of the array. -/
def arrayClass (array : StructArray Item) : ArrayClass :=
  if array.className.isSome then .object else .struct

/-! ### Fields -/

/-- The first field under a name. -/
def field? (array : StructArray Item) (name : String) : Option (Field Item) :=
  array.fields.find? fun field => field.name == name

/-- Declare a field with all slots unset; nothing changes where the name is in use. A slot takes
`slotSize` bytes in memory. -/
def addField (array : StructArray Item) (slotSize : Nat) (name : String) :
    Checked.Computation (StructArray Item) :=
  if (array.field? name).isSome then pure array
  else if isFieldName name then do
    Checked.reserve array.count slotSize
    pure { array with fields := array.fields ++ [⟨name, List.replicate array.count none⟩] }
  else Checked.fail (.invalidArray array.info.name (.fieldName name))

/-- Remove the first field under a name, and give back its slots. -/
def removeField? (array : StructArray Item) (name : String) :
    Option (List (Option Item) × StructArray Item) := do
  let field ← array.field? name
  pure (field.slots, { array with fields := array.fields.eraseP fun field => field.name == name })

/-! ### Slots -/

/-- The item of a field at an element. -/
def get? (array : StructArray Item) (name : String) (index : Nat) : Option Item := do
  ((← array.field? name).slots[index]?).join

/-- Replace the slot of a field at an element, declaring the field if needed, and give back
what the slot held. The index is looked at first, so a bad one declares no field. -/
def set (array : StructArray Item) (slotSize : Nat) (name : String) (index : Nat)
    (slot : Option Item) : Checked.Computation (Option Item × StructArray Item) :=
  if index < array.count then do
    let declared ← array.addField slotSize name
    let change (field : Field Item) : Field Item :=
      { field with slots := field.slots.set index slot }
    let fields := modifyFirst? (fun field => field.name == name) change declared.fields
    pure (declared.get? name index, { declared with fields := fields.getD declared.fields })
  else Checked.fail (.invalidArray array.info.name (.structIndex index array.count))

/-- Change the item of a field at an element, if there is one. -/
def modify? (array : StructArray Item) (name : String) (index : Nat) (change : Item → Item) :
    Option (StructArray Item) := do
  let item ← array.get? name index
  let fields ← modifyFirst? (fun field => field.name == name)
    (fun field => { field with slots := field.slots.set index (some (change item)) }) array.fields
  pure { array with fields }

/-- The text of an array: a headline, the class of an object, then a line for each field
with the number of its slots that are set. -/
def text (array : StructArray Item) : String :=
  let line (field : Field Item) : String :=
    s!"\t{field.name}: {(field.slots.filter Option.isSome).length}/{field.slots.length} set\n"
  array.info.headline array.arrayClass
    ++ (match array.className with
      | some className => s!"\tclass: {className}\n"
      | none => "")
    ++ String.join (array.fields.map line)

end StructArray

end MatFormat
