/-
This file says where a history of calls leaves a struct array. What a call does to an array whose
field names are in order, with one slot to an element in every field, is one of a few changes of
its fields, or nothing where the call stops; each change keeps the names and the slots in order. So
after any history the names are those declared and not removed, and an item is the one that was
stored in its place last, since its field was declared.
-/

import Mathlib.Data.List.Nodup
import MatFormat.Array.StructCalls
import MatFormat.Proofs.Struct.Fields

namespace MatFormat

/-! ### Struct arrays in order -/

/-- The names of the fields are distinct and could be declared, and every field has one slot for
each element, for which a vector has room. -/
structure StructArray.Regular (array : StructArray MatArray) (slotSize : Nat) : Prop where
  distinct : array.fieldNames.Nodup
  accepted : ∀ name ∈ array.fieldNames, isFieldName name = true
  roomy : array.fieldNames ≠ [] → array.count * slotSize < Checked.allocationLimit
  filled : ∀ field ∈ array.fields, field.slots.length = array.count

namespace StructArray.Regular

variable {array : StructArray MatArray} {slotSize : Nat} {name : String}

theorem declare (regular : array.Regular slotSize) (accepted : isFieldName name = true)
    (room : array.count * slotSize < Checked.allocationLimit) :
    (array.declare name).Regular slotSize := by
  by_cases declared : name ∈ array.fieldNames
  · rw [declare_of_mem declared]
    exact regular
  · have names : (array.declare name).fieldNames = _ := fieldNames_declare
    rw [if_neg declared] at names
    refine ⟨?_, fun other member => ?_, fun _ => ?_, fun field member => ?_⟩
    · rw [names, ← List.concat_eq_append]
      exact List.Nodup.concat declared regular.distinct
    · rw [names] at member
      rcases List.mem_append.mp member with before | new
      · exact regular.accepted other before
      · rw [List.mem_singleton.mp new]
        exact accepted
    · rw [count, info_declare]
      exact room
    · rw [declare_of_not_mem declared] at member ⊢
      rcases List.mem_append.mp member with before | new
      · exact regular.filled field before
      · rw [List.mem_singleton.mp new]
        exact List.length_replicate

theorem putSlot (regular : array.Regular slotSize) {field : Field MatArray}
    (found : array.field? name = some field) (index : Nat) (slot : Option MatArray) :
    (array.putSlot name index slot).Regular slotSize := by
  have names := fieldNames_putSlot index slot found
  refine ⟨by rw [names]; exact regular.distinct, by rw [names]; exact regular.accepted,
    by rw [names]; exact regular.roomy, ?_⟩
  obtain ⟨rfl, earlier, later, split, first⟩ := field?_eq_some_iff.mp found
  intro other member
  rw [fields_putSlot index slot split first] at member
  have filled := regular.filled
  rw [split] at filled
  rcases List.mem_append.mp member with before | after
  · exact filled other (List.mem_append_left _ before)
  · rcases List.mem_cons.mp after with rfl | later
    · exact List.length_set.trans (filled field (List.mem_append_right _ List.mem_cons_self))
    · exact filled other (List.mem_append_right _ (List.mem_cons_of_mem _ later))

theorem withoutField (regular : array.Regular slotSize) (name : String) :
    (array.withoutField name).Regular slotSize := by
  refine ⟨?_, fun other member => ?_, fun named => regular.roomy fun none => named ?_,
    fun field member => ?_⟩
  · rw [fieldNames_withoutField]
    exact regular.distinct.erase name
  · rw [fieldNames_withoutField] at member
    exact regular.accepted other (List.mem_of_mem_erase member)
  · rw [fieldNames_withoutField, none, List.erase_nil]
  · exact regular.filled field (List.mem_of_mem_eraseP member)

/-- A field that was declared is found, with a slot for each element. -/
theorem exists_field_declare (regular : array.Regular slotSize)
    (accepted : isFieldName name = true)
    (room : array.count * slotSize < Checked.allocationLimit) :
    ∃ field, (array.declare name).field? name = some field ∧
      field.slots.length = array.count := by
  have declared : name ∈ (array.declare name).fieldNames := mem_fieldNames_declare
  obtain ⟨field, found⟩ := Option.isSome_iff_exists.mp (field?_isSome_iff.mpr declared)
  refine ⟨field, found, ?_⟩
  rw [(regular.declare accepted room).filled field (List.mem_of_find?_eq_some found), count,
    info_declare]
  rfl

end StructArray.Regular

/-! ### What one call does -/

namespace InPlace

variable {array : StructArray MatArray} {slotSize : Nat}

/-- What a function on struct arrays computes, as the outcome of a call in place: where there is no
array after it, the one before it stays. -/
def outcome {Value : Type} (array : StructArray MatArray) :
    Checked.Computation (Value × StructArray MatArray) →
      EStateM.Result StructStop (StructArray MatArray) Value
  | .ok (value, after) => .ok value after
  | .error stop => .error (.ofStop stop) array

theorem get_bind {Value : Type} (next : StructArray MatArray → InPlace Value) :
    (get >>= next) array = next array array :=
  rfl

theorem bind_of_ok {First Value : Type} {first : InPlace First} {value : First}
    {after : StructArray MatArray} (known : first array = .ok value after)
    (next : First → InPlace Value) : (first >>= next) array = next value after := by
  show EStateM.bind first next array = _
  rw [EStateM.bind, known]

theorem bind_of_error {First Value : Type} {first : InPlace First} {stop : StructStop}
    {after : StructArray MatArray} (known : first array = .error stop after)
    (next : First → InPlace Value) : (first >>= next) array = .error stop after := by
  show EStateM.bind first next array = _
  rw [EStateM.bind, known]

theorem addField_agrees (array : StructArray MatArray) (slotSize : Nat) (name : String) :
    addField slotSize name array =
      outcome array ((array.addField slotSize name).map fun after => ((), after)) := by
  rw [StructArray.addField, addField, get_bind]
  by_cases declared : (array.field? name).isSome = true
  · rw [if_pos declared, if_pos declared]
    rfl
  · rw [if_neg declared, if_neg declared]
    by_cases accepted : isFieldName name = true
    · rw [if_pos accepted, if_pos accepted]
      cases Checked.reserve array.count slotSize with
      | error stop => rfl
      | ok reserved => rfl
    · rw [if_neg accepted, if_neg accepted]
      rfl

theorem replaceSlot_eq {name : String} {field : Field MatArray}
    (found : array.field? name = some field) {index : Nat} (inside : index < field.slots.length)
    (slot : Option MatArray) :
    replaceSlot name index slot array =
      .ok (array.get? name index) (array.putSlot name index slot) := by
  have held : array.get? name index = field.slots[index] := by
    rw [StructArray.get?_eq, found, Option.bind_some, List.getElem?_eq_getElem inside]
    rfl
  rw [replaceSlot, get_bind, found, held]
  dsimp only
  rw [List.getElem?_eq_getElem inside]
  rfl

end InPlace

namespace StructCall

/-- What stops the declaration of a field, if something does: its name, or that no vector has room
for one slot to each element. -/
def declarationStop? (slotSize : Nat) (info : ArrayInfo) (name : String) : Option Checked.Stop :=
  if isFieldName name then
    if info.shape.count * slotSize < Checked.allocationLimit then none else some (.trap .capacity)
  else some (.error (.invalidArray info.name (.fieldName name)))

/-- What stops a call, if something does: its index, or what stops the declaration of its field. -/
def stop? (slotSize : Nat) (info : ArrayInfo) : StructCall → Option Checked.Stop
  | addField name => declarationStop? slotSize info name
  | store name index _ =>
    if index < info.shape.count then declarationStop? slotSize info name
    else some (.error (.invalidArray info.name (.structIndex index info.shape.count)))
  | _ => none

/-- What a call that does not stop gives back. -/
def reply (array : StructArray MatArray) : StructCall → StructReply
  | addField _ => .done
  | store name index _ => .item (array.get? name index)
  | removeField name => .slots ((array.field? name).map Field.slots)
  | get name index => .item (array.get? name index)
  | visit name index => .item (array.get? name index)
  | slots name => .slots ((array.field? name).map Field.slots)

/-- What a call that does not stop makes of an array. -/
def effect (array : StructArray MatArray) : StructCall → StructArray MatArray
  | addField name => array.declare name
  | store name index child => (array.declare name).putSlot name index child.toSlot
  | removeField name => array.withoutField name
  | _ => array

theorem declarationStop?_eq_none {slotSize : Nat} {info : ArrayInfo} {name : String} :
    declarationStop? slotSize info name = none ↔
      isFieldName name = true ∧ info.shape.count * slotSize < Checked.allocationLimit := by
  unfold declarationStop?
  split
  · rename_i accepted
    split
    · rename_i room
      exact ⟨fun _ => ⟨accepted, room⟩, fun _ => rfl⟩
    · rename_i full
      exact ⟨nofun, fun room => absurd room.2 full⟩
  · rename_i refused
    exact ⟨nofun, fun accepted => absurd accepted.1 refused⟩

theorem stop?_store_eq_none {slotSize : Nat} {info : ArrayInfo} {name : String} {index : Nat}
    {child : MatArray} :
    (store name index child).stop? slotSize info = none ↔
      index < info.shape.count ∧ declarationStop? slotSize info name = none := by
  rw [stop?]
  split
  · rename_i inside
    exact ⟨fun taken => ⟨inside, taken⟩, fun taken => taken.2⟩
  · rename_i outside
    exact ⟨nofun, fun taken => absurd taken.1 outside⟩

end StructCall

namespace InPlace

open StructCall

variable {array : StructArray MatArray} {slotSize : Nat} (regular : array.Regular slotSize)
include regular

theorem addField_eq (name : String) :
    array.addField slotSize name =
      match declarationStop? slotSize array.info name with
      | none => .ok (array.declare name)
      | some stop => .error stop := by
  by_cases declared : name ∈ array.fieldNames
  · -- There was room when the field was declared.
    have free : declarationStop? slotSize array.info name = none :=
      declarationStop?_eq_none.mpr
        ⟨regular.accepted name declared, regular.roomy (List.ne_nil_of_mem declared)⟩
    rw [StructArray.addField_of_mem declared, free]
  · rw [StructArray.addField_of_not_mem declared, declarationStop?, StructArray.count]
    split
    · split <;> rfl
    · rfl

theorem store_eq (name : String) (index : Nat) (child : MatArray) :
    array.store slotSize name index child =
      match (StructCall.store name index child).stop? slotSize array.info with
      | none => .ok (array.get? name index, (StructCall.store name index child).effect array)
      | some stop => .error stop := by
  rw [StructArray.store, StructArray.set, addField_eq regular, stop?, StructArray.count]
  split
  · cases declarationStop? slotSize array.info name with
    | none =>
      show Except.ok ((array.declare name).get? name index, _) = _
      rw [StructArray.get?_declare]
      rfl
    | some stop => rfl
  · rfl

theorem store_agrees (name : String) (index : Nat) (child : MatArray) :
    InPlace.store slotSize name index child array =
      outcome array (array.store slotSize name index child) := by
  rw [StructArray.store, StructArray.set, InPlace.store, get_bind]
  by_cases inside : index < array.count
  · have adds := addField_agrees array slotSize name
    rw [if_pos inside, if_pos inside, addField_eq regular]
    rw [addField_eq regular] at adds
    cases stops : declarationStop? slotSize array.info name with
    | none =>
      obtain ⟨accepted, room⟩ := declarationStop?_eq_none.mp stops
      obtain ⟨field, found, length⟩ := regular.exists_field_declare accepted room
      rw [stops] at adds
      rw [bind_of_ok adds, replaceSlot_eq found (length ▸ inside)]
      rfl
    | some stop =>
      rw [stops] at adds
      rw [bind_of_error adds]
      rfl
  · rw [if_neg inside, if_neg inside]
    rfl

end InPlace

namespace StructCall

variable {array : StructArray MatArray} {slotSize : Nat}

/-- A call either stops, and then leaves the array as it is, or gives its reply and has its
effect. -/
theorem perform_eq (regular : array.Regular slotSize) (call : StructCall) :
    call.perform slotSize array =
      match call.stop? slotSize array.info with
      | none => .ok (call.reply array) (call.effect array)
      | some stop => .error (.ofStop stop) array := by
  cases call with
  | addField name =>
    have agrees := InPlace.addField_agrees array slotSize name
    rw [InPlace.addField_eq regular] at agrees
    rw [stop?]
    cases stops : declarationStop? slotSize array.info name with
    | none =>
      rw [stops] at agrees
      exact InPlace.bind_of_ok agrees _
    | some stop =>
      rw [stops] at agrees
      exact InPlace.bind_of_error agrees _
  | store name index child =>
    have agrees := InPlace.store_agrees regular name index child
    rw [InPlace.store_eq regular] at agrees
    cases stops : (store name index child).stop? slotSize array.info with
    | none =>
      rw [stops] at agrees
      exact InPlace.bind_of_ok agrees _
    | some stop =>
      rw [stops] at agrees
      exact InPlace.bind_of_error agrees _
  | removeField name =>
    have removed : InPlace.removeField name array =
        .ok ((array.field? name).map Field.slots) (array.withoutField name) := by
      rw [InPlace.removeField, InPlace.get_bind]
      cases found : array.field? name with
      | none =>
        rw [StructArray.removeField?, found, StructArray.withoutField_of_field?_eq_none found]
        rfl
      | some field =>
        rw [StructArray.removeField?_eq found]
        rfl
    exact InPlace.bind_of_ok removed _
  | get name index => rfl
  | visit name index =>
    have visited : InPlace.visit name index array = .ok (array.get? name index) array := by
      have same : (array.modify? name index id).getD array = array := by
        cases held : array.get? name index with
        | none =>
          rw [StructArray.modify?, held]
          rfl
        | some item => rw [StructArray.modify?_id index held, Option.getD_some]
      rw [InPlace.visit, InPlace.get_bind, same]
      rfl
    exact InPlace.bind_of_ok visited _
  | slots name => rfl

@[simp] theorem info_effect (call : StructCall) : (call.effect array).info = array.info := by
  cases call with
  | addField name => exact StructArray.info_declare
  | store name index child => exact StructArray.info_declare
  | _ => rfl

@[simp] theorem className_effect (call : StructCall) :
    (call.effect array).className = array.className := by
  cases call with
  | addField name => exact StructArray.className_declare
  | store name index child => exact StructArray.className_declare
  | _ => rfl

section

variable (regular : array.Regular slotSize) {index : Nat} {name : String} {child : MatArray}
  (taken : (store name index child).stop? slotSize array.info = none)
include regular taken

/-- A call that stores something finds its field with a slot at the index. -/
theorem exists_field_of_store :
    ∃ field, (array.declare name).field? name = some field ∧ index < field.slots.length := by
  obtain ⟨inside, declared⟩ := stop?_store_eq_none.mp taken
  obtain ⟨accepted, room⟩ := declarationStop?_eq_none.mp declared
  obtain ⟨field, found, length⟩ := regular.exists_field_declare accepted room
  exact ⟨field, found, length ▸ inside⟩

theorem fieldNames_effect_store :
    ((store name index child).effect array).fieldNames = (array.declare name).fieldNames := by
  obtain ⟨field, found, _⟩ := exists_field_of_store regular taken
  exact StructArray.fieldNames_putSlot index child.toSlot found

/-- What is in the slots after something was stored. -/
theorem get?_effect_store (other : String) (place : Nat) :
    ((store name index child).effect array).get? other place =
      if other = name ∧ place = index then child.toSlot else array.get? other place := by
  obtain ⟨field, found, inside⟩ := exists_field_of_store regular taken
  rw [effect, StructArray.get?_putSlot index child.toSlot found inside, StructArray.get?_declare]

theorem field?_effect_store_of_ne {other : String} (different : other ≠ name) :
    ((store name index child).effect array).field? other = array.field? other := by
  obtain ⟨field, found, _⟩ := exists_field_of_store regular taken
  rw [effect, StructArray.field?_putSlot index child.toSlot found, if_neg different,
    StructArray.field?_declare_of_ne different]

end

/-- What a call that does not stop does keeps an array in order. -/
theorem regular_effect (regular : array.Regular slotSize) {call : StructCall}
    (taken : call.stop? slotSize array.info = none) : (call.effect array).Regular slotSize := by
  cases call with
  | addField name =>
    obtain ⟨accepted, room⟩ := declarationStop?_eq_none.mp taken
    exact regular.declare accepted room
  | store name index child =>
    obtain ⟨field, found, _⟩ := exists_field_of_store regular taken
    obtain ⟨accepted, room⟩ := declarationStop?_eq_none.mp (stop?_store_eq_none.mp taken).2
    exact (regular.declare accepted room).putSlot found index child.toSlot
  | removeField name => exact regular.withoutField name
  | _ => exact regular

/-- A call that stored something did not stop. -/
theorem of_store_performed (regular : array.Regular slotSize) {index : Nat} {name : String}
    {child : MatArray} {reply : StructReply} {after : StructArray MatArray}
    (performed : (store name index child).perform slotSize array = .ok reply after) :
    (store name index child).stop? slotSize array.info = none ∧
      reply = .item (array.get? name index) ∧ after = (store name index child).effect array := by
  rw [perform_eq regular] at performed
  cases stops : (store name index child).stop? slotSize array.info with
  | none =>
    rw [stops] at performed
    cases performed
    exact ⟨rfl, rfl, rfl⟩
  | some stop =>
    rw [stops] at performed
    cases performed

end StructCall

/-! ### Any history of calls -/

/-- The names that calls declared and did not remove, in the order of declaration. The latest call
comes first, and none stopped. -/
def declaredNames : List StructCall → List String
  | [] => []
  | .addField name :: earlier | .store name _ _ :: earlier =>
    if name ∈ declaredNames earlier then declaredNames earlier
    else declaredNames earlier ++ [name]
  | .removeField name :: earlier => (declaredNames earlier).erase name
  | _ :: earlier => declaredNames earlier

/-- What calls stored last in the slot of a field at an element, since they removed the field. The
latest call comes first, and none stopped. -/
def lastStored (name : String) (index : Nat) : List StructCall → Option MatArray
  | [] => none
  | .store other place child :: earlier =>
    if name = other ∧ index = place then child.toSlot else lastStored name index earlier
  | .removeField other :: earlier =>
    if name = other then none else lastStored name index earlier
  | _ :: earlier => lastStored name index earlier

/-- The calls of a history that do not stop. -/
def takenCalls (slotSize : Nat) (info : ArrayInfo) (history : List StructCall) :
    List StructCall :=
  history.filter fun call => (call.stop? slotSize info).isNone

namespace StructArray

/-- An array is in order and is the one that calls make of another one. -/
structure IsAfter (start : StructArray MatArray) (slotSize : Nat) (calls : List StructCall)
    (array : StructArray MatArray) : Prop where
  info : array.info = start.info
  className : array.className = start.className
  regular : array.Regular slotSize
  names : array.fieldNames = declaredNames calls
  items : ∀ name index, array.get? name index = lastStored name index calls

variable {start array : StructArray MatArray} {slotSize : Nat} {calls : List StructCall}

theorem isAfter_of_fields (none : start.fields = []) : start.IsAfter slotSize [] start where
  info := rfl
  className := rfl
  regular := by
    have names : start.fieldNames = [] := by rw [fieldNames, none, List.map_nil]
    refine ⟨?_, ?_, fun named => absurd names named, ?_⟩
    · rw [names]
      exact List.nodup_nil
    · rw [names]
      exact List.forall_mem_nil _
    · rw [none]
      exact List.forall_mem_nil _
  names := by rw [fieldNames, none, List.map_nil, declaredNames]
  items name index := by
    rw [get?_eq, field?, none, lastStored]
    rfl

/-- One more call that does not stop. -/
theorem IsAfter.step (before : start.IsAfter slotSize calls array) {call : StructCall}
    (taken : call.stop? slotSize array.info = none) :
    start.IsAfter slotSize (call :: calls) (call.effect array) where
  info := call.info_effect.trans before.info
  className := call.className_effect.trans before.className
  regular := StructCall.regular_effect before.regular taken
  names := by
    cases call with
    | addField name =>
      rw [declaredNames, ← before.names]
      exact fieldNames_declare
    | store name index child =>
      rw [declaredNames, ← before.names, StructCall.fieldNames_effect_store before.regular taken]
      exact fieldNames_declare
    | removeField name =>
      rw [declaredNames, ← before.names]
      exact fieldNames_withoutField
    | _ => exact before.names
  items name index := by
    cases call with
    | addField other => exact (get?_declare index).trans (before.items name index)
    | store other place child =>
      rw [lastStored, ← before.items]
      exact StructCall.get?_effect_store before.regular taken name index
    | removeField other =>
      rw [lastStored, ← before.items, StructCall.effect, get?_eq]
      by_cases same : name = other
      · rw [if_pos same, same, field?_withoutField_self before.regular.distinct]
        rfl
      · rw [if_neg same, field?_withoutField_of_ne same]
        rfl
    | _ => exact before.items name index

/-- After any history of calls an array is what those that did not stop made of it. -/
theorem isAfter_afterCalls (none : start.fields = []) (slotSize : Nat)
    (history : List StructCall) :
    start.IsAfter slotSize (takenCalls slotSize start.info history)
      (start.afterCalls slotSize history) := by
  induction history with
  | nil => exact isAfter_of_fields none
  | cons call earlier inductionHypothesis =>
    -- What stops a call depends on what no call changes.
    have info := inductionHypothesis.info
    rw [afterCalls, StructCall.perform_eq inductionHypothesis.regular call, takenCalls,
      List.filter_cons, info]
    cases stops : call.stop? slotSize start.info with
    | none => exact inductionHypothesis.step (by rw [info]; exact stops)
    | some stop => exact inductionHypothesis

/-- What a struct array makes sure of after a history of calls, where a slot takes `slotSize` bytes.
The calls that did not stop decide its names, in the order of declaration, and its items, the last
ones stored; the names are distinct and could be declared, and every field has one slot for each
element. The next call stops for its index or its name alone, or because no vector has room for the
slots of a field, and then changes nothing; it is performed otherwise, and no field or slot is
missing. Storing an array gives back what its slot held, and changes no other slot and no other
field; a lookup changes nothing. In place, fields are declared and arrays are stored as the
functions on struct arrays do it. -/
structure KeepsAccount (start : StructArray MatArray) (slotSize : Nat)
    (history : List StructCall) (array : StructArray MatArray) : Prop where
  info : array.info = start.info
  className : array.className = start.className
  names : array.fieldNames = declaredNames (takenCalls slotSize start.info history)
  distinct : array.fieldNames.Nodup
  spelled : ∀ name ∈ array.fieldNames,
    name ≠ "" ∧ nameLength name ≤ fieldNameLimit ∧ NulFree name
  filled : ∀ field ∈ array.fields, field.slots.length = start.count
  items : ∀ name index,
    array.get? name index = lastStored name index (takenCalls slotSize start.info history)
  stopped : ∀ (call : StructCall) stop, call.stop? slotSize start.info = some stop →
    call.perform slotSize array = .error (.ofStop stop) array
  performed : ∀ call : StructCall, call.stop? slotSize start.info = none →
    ∃ after, call.perform slotSize array = .ok (call.reply array) after
  stored : ∀ name index child reply after,
    (StructCall.store name index child).perform slotSize array = .ok reply after →
      reply = .item (array.get? name index) ∧ after.get? name index = child.toSlot ∧
      (∀ other place, ¬ (other = name ∧ place = index) →
        after.get? other place = array.get? other place) ∧
      ∀ other, other ≠ name → after.field? other = array.field? other
  declaresAlike : ∀ name, InPlace.addField slotSize name array =
    InPlace.outcome array ((array.addField slotSize name).map fun after => ((), after))
  storesAlike : ∀ name index child, InPlace.store slotSize name index child array =
    InPlace.outcome array (array.store slotSize name index child)
  lookedUp : ∀ name index,
    (StructCall.get name index).perform slotSize array =
      .ok (.item (array.get? name index)) array ∧
    (StructCall.visit name index).perform slotSize array =
      .ok (.item (array.get? name index)) array ∧
    (StructCall.slots name).perform slotSize array =
      .ok (.slots ((array.field? name).map Field.slots)) array

theorem IsAfter.keepsAccount {history : List StructCall}
    (state : start.IsAfter slotSize (takenCalls slotSize start.info history) array) :
    start.KeepsAccount slotSize history array := by
  have count : array.count = start.count := by
    rw [StructArray.count, state.info]
    rfl
  have performs (call : StructCall) := StructCall.perform_eq state.regular call
  rw [state.info] at performs
  refine ⟨state.info, state.className, state.names, state.regular.distinct,
    fun name member => (isFieldName_iff name).mp (state.regular.accepted name member),
    fun field member => (state.regular.filled field member).trans count, state.items,
    fun call stop stops => ?_, fun call taken => ?_, fun name index child => ?_,
    InPlace.addField_agrees array slotSize, InPlace.store_agrees state.regular,
    fun name index => ⟨performs _, performs _, performs _⟩⟩
  · rw [performs, stops]
  · exact ⟨call.effect array, by rw [performs, taken]⟩
  · intro reply after performed
    obtain ⟨taken, replied, rfl⟩ := StructCall.of_store_performed state.regular performed
    have items := StructCall.get?_effect_store state.regular taken
    exact ⟨replied, (items name index).trans (if_pos ⟨rfl, rfl⟩),
      fun other place elsewhere => (items other place).trans (if_neg elsewhere),
      fun other => StructCall.field?_effect_store_of_ne state.regular taken⟩

/-- Struct arrays and objects keep account of the calls on them, whatever their dimensions, whatever
the bytes that a slot takes and whatever the calls. -/
theorem keepsAccount_afterCalls
    (created : (∃ name dimensions, create name dimensions = .ok start) ∨
      ∃ name className dimensions, createObject name className dimensions = .ok start)
    (slotSize : Nat) (history : List StructCall) :
    start.KeepsAccount slotSize history (start.afterCalls slotSize history) := by
  have none : start.fields = [] := by
    rcases created with ⟨name, dimensions, built⟩ | ⟨name, className, dimensions, built⟩
    · exact fields_create built
    · exact fields_createObject built
  exact (isAfter_afterCalls none slotSize history).keepsAccount

/-- A struct array of two rows and three columns without fields. -/
def sixElements : StructArray MatArray where
  info := ⟨"s", ⟨[2, 3], by decide, by decide, by decide⟩, {}⟩

/-- A struct array without fields that has more elements than any vector has slots. -/
def vastArray : StructArray MatArray where
  info := ⟨"s", ⟨[2 ^ 60, 1], by decide, by decide, by decide⟩, {}⟩

/-- An array of no cells. -/
def noCells : MatArray := .cell ⟨unsetArray.info, []⟩

/-- A field is declared by storing into it, removed, and declared again; then an index and a name
are refused. The latest call comes first. -/
def redeclaration : List StructCall :=
  [.addField "", .store "b" 6 noCells, .store "a" 1 noCells, .removeField "a", .store "a" 0 noCells]

theorem keepsAccount_afterCalls_redeclaration :
    (create "s" [2, 3] = .ok sixElements ∧
      (sixElements.afterCalls 96 redeclaration).fieldNames = ["a"] ∧
      (sixElements.afterCalls 96 redeclaration).get? "a" 0 = none ∧
      (sixElements.afterCalls 96 redeclaration).get? "a" 1 = some noCells) ∧
    create "s" [2 ^ 60, 1] = .ok vastArray ∧
      (StructCall.store "a" 0 noCells).perform 96 vastArray =
        .error (.stuck .capacity) vastArray := by
  have created : create "s" [2, 3] = .ok sixElements := rfl
  have createdVast : create "s" [2 ^ 60, 1] = .ok vastArray := rfl
  have account := keepsAccount_afterCalls (.inl ⟨"s", [2, 3], created⟩) 96 redeclaration
  have vast := keepsAccount_afterCalls (.inl ⟨"s", [2 ^ 60, 1], createdVast⟩) 96 []
  exact ⟨⟨created, account.names, account.items "a" 0, account.items "a" 1⟩, createdVast,
    vast.stopped (.store "a" 0 noCells) (.trap .capacity) (by decide)⟩

end StructArray

end MatFormat
