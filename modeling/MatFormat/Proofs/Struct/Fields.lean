/-
This file says what the operations on a struct array do to its fields. A lookup finds the first
field under a name, so what a field holds is reached under its name where no field before it has
that name. Declaring a field changes no lookup of an item, storing into a slot changes the
lookup of that slot alone, and where the names are distinct, removing a field takes away the
lookups under its name alone.
-/

import MatFormat.Proofs.Valid

namespace MatFormat

/-- The first field under a name is the one that is changed. -/
theorem modifyFirst?_named {Item : Type} (change : Field Item → Field Item)
    {earlier : List (Field Item)} {field : Field Item}
    (first : ∀ other ∈ earlier, other.name ≠ field.name) (later : List (Field Item)) :
    modifyFirst? (fun other => other.name == field.name) change (earlier ++ field :: later) =
      some (earlier ++ change field :: later) := by
  induction earlier with
  | nil => rw [List.nil_append, modifyFirst?, if_pos (beq_self_eq_true _), List.nil_append]
  | cons other rest inductionHypothesis =>
    have different : ¬ (other.name == field.name) = true := by
      simpa using first other List.mem_cons_self
    rw [List.cons_append, modifyFirst?, if_neg different,
      inductionHypothesis fun other member => first other (List.mem_cons_of_mem _ member)]
    rfl

/-- A field can be declared under a name that is not empty, has at most 63 bytes and is free of
NUL. -/
theorem isFieldName_iff (name : String) :
    isFieldName name = true ↔ name ≠ "" ∧ nameLength name ≤ fieldNameLimit ∧ NulFree name := by
  unfold isFieldName
  rw [Bool.and_eq_true, Bool.and_eq_true, decide_eq_true_eq, decide_eq_true_eq, List.all_eq_true,
    and_assoc]
  simp only [bne_iff_ne, NulFree]

namespace StructArray

variable {Item : Type} {array : StructArray Item} {name other : String} {slotSize : Nat}

/-! ### Lookups -/

/-- What a lookup finds is the first field under the name. -/
theorem field?_eq_some_iff {field : Field Item} :
    array.field? name = some field ↔ field.name = name ∧
      ∃ earlier later, array.fields = earlier ++ field :: later ∧
        ∀ other ∈ earlier, other.name ≠ name := by
  unfold field?
  rw [List.find?_eq_some_iff_append]
  simp

theorem field?_isSome_iff : (array.field? name).isSome = true ↔ name ∈ array.fieldNames := by
  unfold field? fieldNames
  rw [List.find?_isSome]
  simp

theorem field?_eq_none_iff : array.field? name = none ↔ name ∉ array.fieldNames := by
  rw [← field?_isSome_iff, Option.not_isSome_iff_eq_none]

theorem get?_eq (name : String) (index : Nat) :
    array.get? name index = (array.field? name).bind fun field => (field.slots[index]?).join :=
  rfl

/-- What a field holds is reached under its name if no field before it has that name. -/
theorem get?_of_first {earlier later : List (Field Item)} {field : Field Item}
    (split : array.fields = earlier ++ field :: later)
    (first : ∀ other ∈ earlier, other.name ≠ field.name) (index : Nat) :
    array.get? field.name index = (field.slots[index]?).join := by
  rw [get?_eq, field?_eq_some_iff.mpr ⟨rfl, earlier, later, split, first⟩]
  rfl

/-! ### New arrays -/

theorem fields_create {dimensions : List Nat}
    (built : create name dimensions = .ok array) : array.fields = [] := by
  obtain ⟨info, _, built⟩ := Outcome.bind_eq_ok.mp built
  obtain rfl := Outcome.pure_eq_ok.mp built
  rfl

theorem fields_createObject {className : String} {dimensions : List Nat}
    (built : createObject name className dimensions = .ok array) : array.fields = [] := by
  obtain ⟨info, _, built⟩ := Outcome.bind_eq_ok.mp built
  obtain rfl := Outcome.pure_eq_ok.mp built
  rfl

/-! ### Declaring a field -/

/-- A struct array with one more field, all of whose slots are unset. -/
def withField (array : StructArray Item) (name : String) : StructArray Item :=
  { array with fields := array.fields ++ [⟨name, List.replicate array.count none⟩] }

/-- A struct array with a field under a name: the one it has, or else one more. -/
def declare (array : StructArray Item) (name : String) : StructArray Item :=
  if name ∈ array.fieldNames then array else array.withField name

theorem declare_of_mem (declared : name ∈ array.fieldNames) : array.declare name = array :=
  if_pos declared

theorem declare_of_not_mem (new : name ∉ array.fieldNames) :
    array.declare name = array.withField name :=
  if_neg new

theorem addField_of_mem (declared : name ∈ array.fieldNames) :
    array.addField slotSize name = .ok (array.declare name) := by
  rw [addField, if_pos (field?_isSome_iff.mpr declared), declare_of_mem declared]
  rfl

theorem addField_of_not_mem (new : name ∉ array.fieldNames) :
    array.addField slotSize name =
      if isFieldName name then
        if array.count * slotSize < Checked.allocationLimit then .ok (array.declare name)
        else Checked.stuck .capacity
      else Checked.fail (.invalidArray array.info.name (.fieldName name)) := by
  rw [addField, if_neg fun declared => new (field?_isSome_iff.mp declared),
    declare_of_not_mem new, Checked.reserve]
  split
  · split <;> rfl
  · rfl

@[simp] theorem info_declare : (array.declare name).info = array.info := by
  unfold declare
  split <;> rfl

@[simp] theorem className_declare : (array.declare name).className = array.className := by
  unfold declare
  split <;> rfl

/-- A name that is declared comes last, unless it was declared before. -/
theorem fieldNames_declare :
    (array.declare name).fieldNames =
      if name ∈ array.fieldNames then array.fieldNames else array.fieldNames ++ [name] := by
  by_cases declared : name ∈ array.fieldNames
  · rw [if_pos declared, declare_of_mem declared]
  · rw [if_neg declared, declare_of_not_mem declared]
    simp [fieldNames, withField]

theorem mem_fieldNames_declare : name ∈ (array.declare name).fieldNames := by
  rw [fieldNames_declare]
  split
  · assumption
  · exact List.mem_append_right _ (List.mem_singleton_self name)

theorem field?_withField :
    (array.withField name).field? other =
      (array.field? other).or
        (if name = other then some ⟨name, List.replicate array.count none⟩ else none) := by
  unfold field? withField
  rw [List.find?_append, List.find?_singleton]
  simp only [beq_iff_eq]

/-- Declaring a field changes no field under another name. -/
theorem field?_declare_of_ne (different : other ≠ name) :
    (array.declare name).field? other = array.field? other := by
  by_cases declared : name ∈ array.fieldNames
  · rw [declare_of_mem declared]
  · rw [declare_of_not_mem declared, field?_withField, if_neg different.symm, Option.or_none]

/-- Declaring a field changes no item: where the field is new, its slots are unset. -/
theorem get?_declare (index : Nat) :
    (array.declare name).get? other index = array.get? other index := by
  by_cases declared : name ∈ array.fieldNames
  · rw [declare_of_mem declared]
  · rw [declare_of_not_mem declared, get?_eq, get?_eq, field?_withField]
    cases array.field? other with
    | some field => rfl
    | none =>
      rw [Option.none_or]
      split
      · rw [Option.bind_some, List.getElem?_replicate]
        split <;> rfl
      · rfl

/-! ### Replacing a slot -/

/-- A struct array with a slot of the first field under a name replaced. -/
def putSlot (array : StructArray Item) (name : String) (index : Nat) (slot : Option Item) :
    StructArray Item :=
  { array with
    fields := (modifyFirst? (fun field => field.name == name)
      (fun field => { field with slots := field.slots.set index slot }) array.fields).getD
        array.fields }

variable {field : Field Item} (index : Nat) (slot : Option Item)

/-- The fields around the one whose slot is replaced stay as they are. -/
theorem fields_putSlot {earlier later : List (Field Item)}
    (split : array.fields = earlier ++ field :: later)
    (first : ∀ other ∈ earlier, other.name ≠ field.name) :
    (array.putSlot field.name index slot).fields =
      earlier ++ { field with slots := field.slots.set index slot } :: later := by
  rw [putSlot, split, modifyFirst?_named _ first]
  rfl

theorem fieldNames_putSlot (found : array.field? name = some field) :
    (array.putSlot name index slot).fieldNames = array.fieldNames := by
  obtain ⟨rfl, earlier, later, split, first⟩ := field?_eq_some_iff.mp found
  rw [fieldNames, fields_putSlot index slot split first, fieldNames, split]
  simp

theorem field?_putSlot (found : array.field? name = some field) :
    (array.putSlot name index slot).field? other =
      if other = name then some { field with slots := field.slots.set index slot }
      else array.field? other := by
  obtain ⟨rfl, earlier, later, split, first⟩ := field?_eq_some_iff.mp found
  have fields := fields_putSlot index slot split first
  by_cases same : other = field.name
  · rw [if_pos same, same]
    exact field?_eq_some_iff.mpr ⟨rfl, earlier, later, fields, first⟩
  · rw [if_neg same, field?, field?, fields, split, List.find?_append, List.find?_append,
      List.find?_cons_of_neg, List.find?_cons_of_neg]
    · simpa using Ne.symm same
    · simpa using Ne.symm same

theorem get?_putSlot (found : array.field? name = some field) (inside : index < field.slots.length)
    (place : Nat) :
    (array.putSlot name index slot).get? other place =
      if other = name ∧ place = index then slot else array.get? other place := by
  rw [get?_eq, field?_putSlot index slot found]
  by_cases same : other = name
  · rw [if_pos same, Option.bind_some, List.getElem?_set, same, get?_eq, found, Option.bind_some]
    by_cases here : place = index
    · rw [if_pos here.symm, if_pos inside, if_pos ⟨rfl, here⟩]
      rfl
    · rw [if_neg (Ne.symm here), if_neg fun both => here both.2]
  · rw [if_neg same, if_neg fun both => same both.1, get?_eq]

/-! ### Removing a field -/

/-- A struct array without its first field under a name. -/
def withoutField (array : StructArray Item) (name : String) : StructArray Item :=
  { array with fields := array.fields.eraseP fun field => field.name == name }

theorem withoutField_of_field?_eq_none (absent : array.field? name = none) :
    array.withoutField name = array := by
  have kept : array.fields.eraseP (fun field => field.name == name) = array.fields := by
    refine List.eraseP_of_forall_not fun field member => ?_
    exact List.find?_eq_none.mp absent field member
  rw [withoutField, kept]

theorem removeField?_eq (found : array.field? name = some field) :
    array.removeField? name = some (field.slots, array.withoutField name) := by
  rw [removeField?, found]
  rfl

theorem fieldNames_withoutField :
    (array.withoutField name).fieldNames = array.fieldNames.erase name := by
  unfold fieldNames withoutField
  have sameTest : (fun field : Field Item => field.name == name) =
      (fun declared => name == declared) ∘ Field.name := by
    funext field
    rw [Function.comp_apply, Bool.eq_iff_iff, beq_iff_eq, beq_iff_eq]
    exact eq_comm
  rw [List.erase_eq_eraseP, List.eraseP_map, sameTest]

theorem field?_withoutField_of_ne (different : other ≠ name) :
    (array.withoutField name).field? other = array.field? other := by
  unfold field? withoutField
  induction array.fields with
  | nil => rfl
  | cons first rest inductionHypothesis =>
    -- Where the first field is the removed one, the fields after it stay, whatever their names.
    by_cases here : first.name = name
    · rw [List.eraseP_cons_of_pos (by simpa using here), List.find?_cons_of_neg]
      simpa [here] using Ne.symm different
    · rw [List.eraseP_cons_of_neg (by simpa using here), List.find?_cons, List.find?_cons,
        inductionHypothesis]

theorem field?_withoutField_self (distinct : array.fieldNames.Nodup) :
    (array.withoutField name).field? name = none := by
  rw [field?_eq_none_iff, fieldNames_withoutField]
  exact distinct.not_mem_erase

/-! ### Looking into a slot for a change -/

/-- Changing what a slot holds into what it held changes nothing. -/
theorem modify?_id {item : Item} (held : array.get? name index = some item) :
    array.modify? name index id = some array := by
  obtain ⟨field, found, slot⟩ := Option.bind_eq_some_iff.mp held
  obtain ⟨rfl, earlier, later, split, first⟩ := field?_eq_some_iff.mp found
  obtain ⟨inside, same⟩ := List.getElem?_eq_some_iff.mp (Option.join_eq_some_iff.mp slot)
  have fields := modifyFirst?_named
    (fun field => { field with slots := field.slots.set index (some (id item)) }) first later
  have unchanged : field.slots.set index (some (id item)) = field.slots := by
    rw [id, ← same, List.set_getElem_self]
  rw [unchanged, ← split] at fields
  exact Option.bind_eq_some_iff.mpr
    ⟨item, held, Option.bind_eq_some_iff.mpr ⟨array.fields, fields, rfl⟩⟩

end StructArray

end MatFormat
