/-
This file calls struct arrays in place. A call looks at the array, changes it by one effect after
the other, and stops where it is refused; the array then stays as the effects before that left it.
The index of a slot is looked at before its field is declared, and the field is declared before it
is looked up to put something into the slot. The slots of a new field are a vector, and where no
vector has room for them the call ends in a trap. A history of calls goes on after a call that
stopped.
-/

import MatFormat.Array.Basic

namespace MatFormat

/-- Why a call stops: it is refused, it ends in a trap, or the field or the slot that it made sure
of is not there. -/
inductive StructStop where
  | refused (fault : Error)
  | stuck (trap : Checked.Trap)
  | lostField (name : String)
  | lostSlot (index : Nat)
deriving DecidableEq, Repr

/-- A computation that stops, stops the call that it is part of. -/
def StructStop.ofStop : Checked.Stop → StructStop
  | .error fault => refused fault
  | .trap trap => stuck trap

/-- A computation on a struct array in place. -/
abbrev InPlace (Value : Type) : Type := EStateM StructStop (StructArray MatArray) Value

namespace InPlace

/-- A computation that does not look at the struct array. -/
def compute {Value : Type} : Checked.Computation Value → InPlace Value
  | .ok value => pure value
  | .error stop => throw (.ofStop stop)

/-- Declare a field with all slots unset, unless the name is in use. A slot takes `slotSize` bytes
in memory. -/
def addField (slotSize : Nat) (name : String) : InPlace Unit := do
  let array ← get
  let unset : Field MatArray := ⟨name, List.replicate array.count none⟩
  if (array.field? name).isSome then pure ()
  else if isFieldName name then
    compute (Checked.reserve array.count slotSize)
    set { array with fields := array.fields ++ [unset] }
  else throw (.refused (.invalidArray array.info.name (.fieldName name)))

/-- Put something into a slot of the first field under a name, and give back what it held. -/
def replaceSlot (name : String) (index : Nat) (slot : Option MatArray) :
    InPlace (Option MatArray) := do
  let array ← get
  match array.field? name with
  | none => throw (.lostField name)
  | some field =>
    match field.slots[index]? with
    | none => throw (.lostSlot index)
    | some previous =>
      let change (field : Field MatArray) : Field MatArray :=
        { field with slots := field.slots.set index slot }
      let fields := modifyFirst? (fun field => field.name == name) change array.fields
      set { array with fields := fields.getD array.fields }
      pure previous

/-- Store an array in the slot of a field at an element, declaring the field if needed. -/
def store (slotSize : Nat) (name : String) (index : Nat) (child : MatArray) :
    InPlace (Option MatArray) := do
  let array ← get
  if index < array.count then
    addField slotSize name
    replaceSlot name index child.toSlot
  else throw (.refused (.invalidArray array.info.name (.structIndex index array.count)))

/-- Remove the first field under a name. -/
def removeField (name : String) : InPlace (Option (List (Option MatArray))) := do
  let array ← get
  match array.removeField? name with
  | none => pure none
  | some (slots, rest) =>
    set rest
    pure (some slots)

/-- Look at the item in a slot in a way that could change it, and leave it as it is. -/
def visit (name : String) (index : Nat) : InPlace (Option MatArray) := do
  let array ← get
  set ((array.modify? name index id).getD array)
  pure (array.get? name index)

end InPlace

/-- A call on a struct array. -/
inductive StructCall where
  | addField (name : String)
  | store (name : String) (index : Nat) (child : MatArray)
  | removeField (name : String)
  | get (name : String) (index : Nat)
  | visit (name : String) (index : Nat)
  | slots (name : String)

/-- What a call gives back. -/
inductive StructReply where
  | done
  | item (item : Option MatArray)
  | slots (slots : Option (List (Option MatArray)))

namespace StructCall

/-- Perform a call. -/
def perform (slotSize : Nat) : StructCall → InPlace StructReply
  | addField name => do
    InPlace.addField slotSize name
    pure .done
  | store name index child => do
    let previous ← InPlace.store slotSize name index child
    pure (.item previous)
  | removeField name => do
    let slots ← InPlace.removeField name
    pure (.slots slots)
  | get name index => do
    let array ← MonadState.get
    pure (.item (array.get? name index))
  | visit name index => do
    let item ← InPlace.visit name index
    pure (.item item)
  | slots name => do
    let array ← MonadState.get
    pure (.slots ((array.field? name).map Field.slots))

end StructCall

/-- The struct array that a computation leaves, whether or not it stops. -/
def InPlace.left {Value : Type} :
    EStateM.Result StructStop (StructArray MatArray) Value → StructArray MatArray
  | .ok _ array => array
  | .error _ array => array

/-- The struct array after a history of calls, the latest call first. -/
def StructArray.afterCalls (start : StructArray MatArray) (slotSize : Nat) :
    List StructCall → StructArray MatArray
  | [] => start
  | call :: earlier => InPlace.left (call.perform slotSize (start.afterCalls slotSize earlier))

end MatFormat
