/-
This file says what the field names of a struct array that was read are good for. The reader
takes the names as the table of names has them: each ends before its first NUL, but a name may be
empty, may be longer than a declared one may be, and may come again. So a field is reached under
its name as long as no field before it has that name, and the writer, which looks at the lengths
of the names alone, takes them back unless one of them is too long.
-/

import MatFormat.Proofs.Matrix.Limits
import MatFormat.Proofs.Matrix.Sound
import MatFormat.Proofs.Struct.Fields

namespace MatFormat

/-! ### What the names are good for -/

/-- The writer refuses the names of fields exactly where one of them is too long, or where the
name of the class or the table of the names does not fit into an element. -/
theorem encodeFieldNames_error_iff (order : ByteOrder) (name : String) (className : Option String)
    (fieldNames : List String) :
    (∃ fault, encodeFieldNames order name className fieldNames = .error fault) ↔
      (∃ fieldName ∈ fieldNames, fieldNameLimit < nameLength fieldName) ∨
      (∃ spelled ∈ className, wordLimit ≤ nameLength spelled) ∨
      wordLimit ≤ (longestName fieldNames + 1) * fieldNames.length := by
  rw [(sized_encodeFieldNames order name className fieldNames).error_iff]
  have classFits : (∀ size ∈ className.toList.map nameLength, size < wordLimit) ↔
      ¬ ∃ spelled ∈ className, wordLimit ≤ nameLength spelled := by
    simp
  have namesFit : (∀ fieldName ∈ fieldNames, nameLength fieldName ≤ fieldNameLimit) ↔
      ¬ ∃ fieldName ∈ fieldNames, fieldNameLimit < nameLength fieldName := by
    simp
  rw [classFits, namesFit, ← Nat.not_le, not_and_or, not_and_or, not_not, not_not, not_not,
    or_left_comm]

namespace StructArray

/-- Where no two fields share a name, what a field holds is reached under its name. -/
theorem get?_of_nodup {Item : Type} {array : StructArray Item} (distinct : array.fieldNames.Nodup)
    {field : Field Item} (member : field ∈ array.fields) (index : Nat) :
    array.get? field.name index = (field.slots[index]?).join := by
  obtain ⟨earlier, later, split⟩ := List.append_of_mem member
  refine get?_of_first split (fun other otherMember same => ?_) index
  rw [fieldNames, split, List.map_append, List.map_cons, List.nodup_append] at distinct
  exact distinct.2.2 other.name (List.mem_map_of_mem otherMember) field.name List.mem_cons_self same

/-- What holds of the fields of a struct array that was read. -/
structure FieldsRead (array : StructArray MatArray) : Prop where
  nulFree : ∀ name ∈ array.fieldNames, NulFree name
  filled : ∀ field ∈ array.fields, field.slots.length = array.count
  reachedFirst : ∀ {earlier later : List (Field MatArray)} {field : Field MatArray},
    array.fields = earlier ++ field :: later → (∀ other ∈ earlier, other.name ≠ field.name) →
      ∀ index, array.get? field.name index = (field.slots[index]?).join
  reached : array.fieldNames.Nodup →
    ∀ field ∈ array.fields, ∀ index, array.get? field.name index = (field.slots[index]?).join
  refused : ∀ order,
    (∃ fault, encodeFieldNames order array.info.name array.className array.fieldNames =
        .error fault) ↔
      (∃ name ∈ array.fieldNames, fieldNameLimit < nameLength name) ∨
      (∃ className ∈ array.className, wordLimit ≤ nameLength className) ∨
      wordLimit ≤ (longestName array.fieldNames + 1) * array.fieldNames.length

theorem fieldsRead_of_sound {array : StructArray MatArray}
    (sound : (MatArray.struct array).Sound) : array.FieldsRead where
  nulFree name member := sound.names name (MatArray.mem_ownNames.mpr (.inr (.inr member)))
  filled := sound.shaped
  reachedFirst split first := get?_of_first split first
  reached distinct _ member := get?_of_nodup distinct member
  refused order := encodeFieldNames_error_iff order _ _ _

end StructArray

/-! ### Structs in an array that was read -/

/-- The fields of every struct array in an array that was read, at any depth: their names are free
of NUL, and each has one slot for every element; what a field holds is reached under its name if
no field before it has that name, and so in every field if the names are distinct; the names are
refused by the writer exactly where one of them is longer than the limit or they do not fit into
an element. So whatever the writer takes back has short names only. -/
theorem fields_of_read {payload : Cursor} {wanted : String → Bool} {array : MatArray}
    (read : (payload.matrix wanted).result = .ok (some array)) :
    (array.Everywhere fun node => ∀ struct ∈ node.asStruct?, struct.FieldsRead) ∧
      ∀ order bytes, array.element order = .ok bytes → array.Everywhere fun node =>
        ∀ name ∈ node.fieldNames, nameLength name ≤ fieldNameLimit := by
  have sound := Cursor.gives_matrix wanted payload array read
  constructor
  · refine sound.imp fun node here struct same => ?_
    cases node with
    | struct array =>
      cases same
      exact StructArray.fieldsRead_of_sound here
    | _ => cases same
  · intro order bytes written
    have sized := MatArray.sized_element order (sound.imp fun _ here => here.shaped.filled)
    have fits := sized.isOk_iff.mp (by rw [written]; rfl)
    exact fits.imp fun node notOversized =>
      ((MatArray.not_oversized_iff node).mp notOversized).2.1.fieldNames

/-- The payload of a struct with a table of three names of 22 bytes: two that are empty, and one
of bytes that are no text. The first and the last field are unset, the second one holds an array
of characters. -/
def hiddenFieldPayload : Cursor where
  bytes :=
    [6, 0, 0, 0, 8, 0, 0, 0, 2, 0, 0, 0, 0, 0, 0, 0] ++
    [5, 0, 0, 0, 12, 0, 0, 0, 1, 0, 0, 0, 1, 0, 0, 0, 1, 0, 0, 0, 0, 0, 0, 0] ++
    [1, 0, 0, 0, 0, 0, 0, 0] ++
    [5, 0, 4, 0, 22, 0, 0, 0] ++ [1, 0, 0, 0, 66, 0, 0, 0] ++
    List.replicate 44 0 ++ List.replicate 22 255 ++ List.replicate 6 0 ++
    [14, 0, 0, 0, 0, 0, 0, 0] ++
    [14, 0, 0, 0, 48, 0, 0, 0, 6, 0, 0, 0, 8, 0, 0, 0, 4, 0, 0, 0, 0, 0, 0, 0] ++
    [5, 0, 0, 0, 8, 0, 0, 0, 0, 0, 0, 0, 0, 0, 0, 0] ++
    [1, 0, 0, 0, 0, 0, 0, 0, 4, 0, 0, 0, 0, 0, 0, 0] ++ [14, 0, 0, 0, 0, 0, 0, 0]
  offset := 0
  order := .little

/-- An array of no characters. -/
def noCharacters : MatArray := .char ⟨unsetArray.info, []⟩

/-- A struct whose second field cannot be reached and whose third name is too long. -/
def hiddenField : StructArray MatArray where
  info := ⟨"", ⟨[1, 1, 1], by decide, by decide, by decide⟩, {}⟩
  fields :=
    [⟨"", [none]⟩, ⟨"", [some noCharacters]⟩,
      ⟨String.ofList (List.replicate 22 Utf8.replacement), [none]⟩]

theorem matrix_hiddenFieldPayload :
    (hiddenFieldPayload.matrix fun _ => true).result = .ok (some (.struct hiddenField)) :=
  rfl

theorem fields_of_read_hiddenField :
    (hiddenFieldPayload.matrix fun _ => true).result = .ok (some (.struct hiddenField)) ∧
      hiddenField.FieldsRead :=
  ⟨matrix_hiddenFieldPayload, (fields_of_read matrix_hiddenFieldPayload).1.here hiddenField rfl⟩

/-- The names that were read need not be distinct, nor short, and one may be empty; a value may be
out of reach under the name of its field, and the writer may refuse the names. -/
theorem hiddenField_breaks_rules :
    (hiddenFieldPayload.matrix fun _ => true).result = .ok (some (.struct hiddenField)) ∧
      ¬ hiddenField.fieldNames.Nodup ∧ "" ∈ hiddenField.fieldNames ∧
      (∃ name ∈ hiddenField.fieldNames, fieldNameLimit < nameLength name) ∧
      (∃ field ∈ hiddenField.fields, field.slots[0]? = some (some noCharacters) ∧
        hiddenField.get? field.name 0 = none) ∧
      ∃ fault, (MatArray.struct hiddenField).element .little = .error fault := by
  have long : ∃ name ∈ hiddenField.fieldNames, fieldNameLimit < nameLength name :=
    ⟨String.ofList (List.replicate 22 Utf8.replacement), by decide, by decide⟩
  refine ⟨matrix_hiddenFieldPayload, by decide, by decide, long,
    ⟨⟨"", [some noCharacters]⟩, ?_, rfl, rfl⟩, ?_⟩
  · exact List.mem_cons_of_mem _ List.mem_cons_self
  · have sound := Cursor.gives_matrix _ _ _ matrix_hiddenFieldPayload
    refine (MatArray.sized_element .little (sound.imp fun _ here => here.shaped.filled)).refused
      fun fits => ?_
    obtain ⟨name, member, tooLong⟩ := long
    exact fits.here (.fieldName member tooLong)

end MatFormat
