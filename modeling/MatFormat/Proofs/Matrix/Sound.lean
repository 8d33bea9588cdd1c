/-
This file proves that the reader gives sound arrays only, whatever bytes it is given. Each
body is read part by part, and what was checked of a part is what the array needs of it: the
counts of the values, the structure of the column pointers, and names that end before their
first NUL. That the arrays in slots are sound is taken from the reader of nested matrices,
which is as sound as the bodies are, one level of nesting at a time.
-/

import MatFormat.Matrix.Reader
import MatFormat.Proofs.Interleave
import MatFormat.Proofs.Outcome
import MatFormat.Proofs.Text.Utf16
import MatFormat.Proofs.Text.Utf8
import MatFormat.Proofs.Valid

namespace MatFormat

/-! ### Parts of a payload -/

namespace Element

variable {element : Element}

theorem of_checkCount {expected actual : Nat}
    (checked : element.checkCount expected actual = .ok ()) : actual = expected := by
  unfold checkCount malformed at checked
  split at checked
  · cases checked
  · rename_i enough
    split at checked
    · cases checked
    · rename_i fits
      exact Nat.le_antisymm (Nat.le_of_not_lt fits) (Nat.le_of_not_lt enough)

theorem length_of_counted {Value : Type} {expected : Nat} {all values : List Value}
    (read : (element.checkCount expected all.length >>= fun _ => pure all) = .ok values) :
    values.length = expected := by
  obtain ⟨_, counted, read⟩ := Outcome.bind_eq_ok.mp read
  rw [← Outcome.pure_eq_ok.mp read]
  exact of_checkCount counted

theorem length_of_exactly {wanted : NumericClass} {expected : Nat} {values : List wanted.Value}
    (read : element.exactly wanted expected = .ok values) : values.length = expected := by
  obtain ⟨all, _, read⟩ := Outcome.bind_eq_ok.mp read
  exact length_of_counted read

theorem length_of_codeUnits {expected : Nat} {units : List CodeUnit}
    (read : element.codeUnits expected = .ok units) : units.length = expected := by
  unfold codeUnits at read
  dsimp only at read
  split at read
  · split at read
    · exact length_of_counted read
    · cases read
  · obtain ⟨all, _, read⟩ := Outcome.bind_eq_ok.mp read
    exact length_of_counted read

theorem length_of_atLeast {wanted : NumericClass} {expected : Nat} {values : List wanted.Value}
    (read : element.atLeast wanted expected = .ok values) : values.length = expected := by
  obtain ⟨all, _, read⟩ := Outcome.bind_eq_ok.mp read
  dsimp only at read
  split at read
  · cases read
  · rename_i enough
    rw [← Outcome.pure_eq_ok.mp read]
    exact List.length_take_of_le (Nat.le_of_not_lt enough)

theorem nulFree_beforeNul (bytes : List UInt8) : NulFree (Utf8.decodeLossy (beforeNul bytes)) := by
  apply Utf8.nul_not_mem_decodeLossy
  intro nul
  exact absurd (List.mem_takeWhile_imp nul) (by decide)

theorem nulFree_units (units : List CodeUnit) :
    NulFree (Utf16.decodeLossy (units.takeWhile fun unit => unit.toNat != 0)) := by
  apply Utf16.nul_not_mem_decodeLossy
  intro unit member
  have nonzero := List.mem_takeWhile_imp (p := fun unit : CodeUnit => unit.toNat != 0) member
  exact bne_iff_ne.mp nonzero

/-- A name that was read has no NUL in it. -/
theorem nulFree_of_name {spelled : String} (read : element.name = .ok spelled) :
    NulFree spelled := by
  unfold Element.name at read
  split at read
  · cases read
    exact nulFree_beforeNul _
  · cases read
    exact nulFree_beforeNul _
  · cases read
    exact nulFree_beforeNul _
  · obtain ⟨units, _, read⟩ := Outcome.bind_eq_ok.mp read
    rw [← Outcome.pure_eq_ok.mp read]
    exact nulFree_units units

theorem nulFree_of_fieldNames {length : Nat} {names : List String}
    (read : (element.fieldNames length).result = .ok names) : ∀ name ∈ names, NulFree name := by
  have cut : names = (pieces length (element.tag.size / length) element.bytes).map fun slot =>
      Utf8.decodeLossy (beforeNul slot) := by
    unfold fieldNames at read
    dsimp only at read
    rw [Reading.result_noteIf] at read
    exact (Except.ok.inj read).symm
  intro name member
  rw [cut] at member
  obtain ⟨slot, _, rfl⟩ := List.mem_map.mp member
  exact nulFree_beforeNul slot

end Element

namespace Cursor

variable {cursor rest : Cursor}

theorem nulFree_of_matrixHead {head : MatrixHead}
    (read : cursor.matrixHead.result = .ok (head, rest)) : NulFree head.name := by
  obtain ⟨⟨flagsElement, afterFlags⟩, _, read⟩ := Reading.result_bind_eq_ok.mp read
  obtain ⟨words, _, read⟩ := Reading.result_bind_eq_ok.mp read
  dsimp only at read
  split at read
  · obtain ⟨_, _, read⟩ := Reading.result_bind_eq_ok.mp read
    obtain ⟨⟨dimensions, afterDimensions⟩, _, read⟩ := Reading.result_bind_eq_ok.mp read
    dsimp only at read
    split at read
    · cases read
    · obtain ⟨⟨nameElement, afterName⟩, _, read⟩ := Reading.result_bind_eq_ok.mp read
      obtain ⟨name, named, read⟩ := Reading.result_bind_eq_ok.mp read
      cases read
      exact Element.nulFree_of_name named
  · cases read

/-! ### Numbers and characters -/

theorem of_numericBody {numericClass : NumericClass} {info : ArrayInfo}
    {array : NumericArray numericClass}
    (read : (cursor.numericBody numericClass info).result = .ok (array, rest)) :
    array.info = info ∧ array.Shaped ∧ info.flags.complex = array.isComplex := by
  obtain ⟨⟨realElement, afterReal⟩, _, read⟩ := Reading.result_bind_eq_ok.mp read
  obtain ⟨real, realRead, read⟩ := Reading.result_bind_eq_ok.mp read
  have realCount := Element.length_of_exactly realRead
  dsimp only at read
  split at read
  · rename_i complex
    obtain ⟨⟨imagElement, afterImag⟩, _, read⟩ := Reading.result_bind_eq_ok.mp read
    obtain ⟨imag, imagRead, read⟩ := Reading.result_bind_eq_ok.mp read
    cases read
    refine ⟨rfl, ⟨realCount, fun values member => ?_⟩, complex⟩
    rw [← Option.some.inj member]
    exact Element.length_of_exactly imagRead
  · rename_i plain
    cases read
    exact ⟨rfl, ⟨realCount, nofun⟩, eq_false_of_ne_true plain⟩

theorem of_charBody {info : ArrayInfo} {array : CharArray}
    (read : (cursor.charBody info).result = .ok (array, rest)) :
    array.info = info ∧ array.units.length = info.shape.count := by
  obtain ⟨⟨element, afterUnits⟩, _, read⟩ := Reading.result_bind_eq_ok.mp read
  obtain ⟨units, unitsRead, read⟩ := Reading.result_bind_eq_ok.mp read
  cases read
  exact ⟨rfl, Element.length_of_codeUnits unitsRead⟩

/-! ### Sparse matrices -/

theorem length_of_sparseValues {count : Nat} {values : List Double}
    (read : (cursor.sparseValues count).result = .ok (values, rest)) : values.length = count := by
  obtain ⟨⟨element, afterValues⟩, _, read⟩ := Reading.result_bind_eq_ok.mp read
  obtain ⟨all, valuesRead, read⟩ := Reading.result_bind_eq_ok.mp read
  cases read
  exact Element.length_of_atLeast valuesRead

/-- What a sparse matrix was read from, and what was made sure of. -/
theorem parts_of_sparseBody {info : ArrayInfo} {capacity : Nat} {array : SparseArray}
    (read : (cursor.sparseBody info capacity).result = .ok (array, rest)) :
    (array.info = info ∧ array.capacity = capacity) ∧
      (array.Shaped ∧ info.flags.complex = array.isComplex) ∧
      ∃ (rowIndices : List Nat) (afterRows afterPointers afterReal : Cursor),
        (cursor.indices.result = .ok (rowIndices, afterRows) ∧
          array.stored ≤ rowIndices.length ∧ array.rowIndices = rowIndices.take array.stored) ∧
        afterRows.indices.result = .ok (array.columnPointers, afterPointers) ∧
        (afterPointers.sparseValues array.stored).result = .ok (array.real, afterReal) ∧
        (array.imag = none ∧ afterReal = rest ∨ ∃ values, array.imag = some values ∧
          (afterReal.sparseValues array.stored).result = .ok (values, rest)) := by
  obtain ⟨⟨rowIndices, afterRows⟩, rowsRead, read⟩ := Reading.result_bind_eq_ok.mp read
  obtain ⟨⟨columnPointers, afterPointers⟩, pointersRead, read⟩ := Reading.result_bind_eq_ok.mp read
  dsimp only at read
  obtain ⟨pointers, read⟩ := Reading.result_refusal_eq_ok.mp read
  obtain ⟨ordered, read⟩ := Reading.result_refusal_eq_ok.mp read
  obtain ⟨short, read⟩ := Reading.result_refusal_eq_ok.mp read
  cases fit : (rowIndices.take (columnPointers.getLastD 0)).find? fun row =>
      decide (info.shape.rows ≤ row) with
  | some row =>
    rw [fit] at read
    cases read
  | none =>
    rw [fit] at read
    dsimp only at read
    rw [Reading.result_noteIf] at read
    obtain ⟨⟨real, afterReal⟩, realRead, read⟩ := Reading.result_bind_eq_ok.mp read
    have ascending : columnPointers.Pairwise (· ≤ ·) := by
      rw [← SparseArray.firstDescent?_eq_none_iff, ← Option.not_isSome_iff_eq_none]
      exact (not_or.mp ordered).2
    have enough := Nat.le_of_not_lt short
    have stored := List.length_take_of_le enough
    have structured (imag : Option (List Double))
        (counted : ∀ values ∈ imag, values.length = columnPointers.getLastD 0) :
        SparseArray.Shaped ⟨info, capacity, columnPointers,
          rowIndices.take (columnPointers.getLastD 0), real, imag⟩ :=
      ⟨not_not.mp pointers, not_not.mp (not_or.mp ordered).1, ascending, stored.symm,
        find?_reaching_eq_none_iff.mp fit, (length_of_sparseValues realRead).trans stored.symm,
        fun values member => (counted values member).trans stored.symm⟩
    dsimp only at read
    by_cases complex : info.flags.complex = true
    · rw [if_pos complex] at read
      obtain ⟨⟨imag, afterImag⟩, imagRead, read⟩ := Reading.result_bind_eq_ok.mp read
      cases read
      refine ⟨⟨rfl, rfl⟩, ⟨structured (some imag) fun values member => ?_, complex⟩,
        rowIndices, afterRows, afterPointers, afterReal, ⟨rowsRead, ?_⟩, pointersRead, ?_,
        .inr ⟨imag, rfl, ?_⟩⟩
      · rw [← Option.some.inj member]
        exact length_of_sparseValues imagRead
      all_goals rw [SparseArray.stored, stored]
      · exact ⟨enough, rfl⟩
      · exact realRead
      · exact imagRead
    · rw [if_neg complex] at read
      cases read
      refine ⟨⟨rfl, rfl⟩, ⟨structured none nofun, eq_false_of_ne_true complex⟩, rowIndices,
        afterRows, afterPointers, rest, ⟨rowsRead, ?_⟩, pointersRead, ?_, .inl ⟨rfl, rfl⟩⟩
      all_goals rw [SparseArray.stored, stored]
      · exact ⟨enough, rfl⟩
      · exact realRead

theorem of_sparseBody {info : ArrayInfo} {capacity : Nat} {array : SparseArray}
    (read : (cursor.sparseBody info capacity).result = .ok (array, rest)) :
    array.info = info ∧ array.Shaped ∧ info.flags.complex = array.isComplex := by
  obtain ⟨⟨sameInfo, _⟩, made, _⟩ := parts_of_sparseBody read
  exact ⟨sameInfo, made⟩

/-! ### Nested arrays -/

/-- What a reader of nested matrices makes sure of in every array it gives. -/
def Gives (nested : Cursor → Reading (Option MatArray)) (property : MatArray → Prop) : Prop :=
  ∀ (payload : Cursor) (array : MatArray), (nested payload).result = .ok (some array) →
    property array

variable {nested : Cursor → Reading (Option MatArray)} {property : MatArray → Prop}

theorem of_slot (gives : Gives nested property) {slot : Option MatArray}
    (read : (cursor.slot nested).result = .ok (slot, rest)) : ∀ child ∈ slot, property child := by
  obtain ⟨⟨element, afterSlot⟩, _, read⟩ := Reading.result_bind_eq_ok.mp read
  dsimp only at read
  split at read
  · cases read
  · obtain ⟨held, nestedRead, read⟩ := Reading.result_bind_eq_ok.mp read
    cases read
    intro child member
    rw [Option.mem_def.mp member] at nestedRead
    exact gives element.payload child nestedRead

/-- As many slots are read as were asked for. -/
theorem of_slots (gives : Gives nested property) {count : Nat} {held : List (Option MatArray)}
    (read : (slots nested count cursor).result = .ok (held, rest)) :
    held.length = count ∧ ∀ child, some child ∈ held → property child := by
  induction count generalizing cursor held rest with
  | zero =>
    cases read
    exact ⟨rfl, nofun⟩
  | succ count inductionHypothesis =>
    obtain ⟨⟨first, afterFirst⟩, firstRead, read⟩ := Reading.result_bind_eq_ok.mp read
    obtain ⟨⟨others, afterOthers⟩, othersRead, read⟩ := Reading.result_bind_eq_ok.mp read
    cases read
    obtain ⟨length, below⟩ := inductionHypothesis othersRead
    refine ⟨congrArg Nat.succ length, fun child member => ?_⟩
    rcases List.mem_cons.mp member with here | later
    · exact of_slot gives firstRead child here.symm
    · exact below child later

theorem of_cellBody (gives : Gives nested property) {info : ArrayInfo}
    {array : CellArray MatArray}
    (read : (cursor.cellBody nested info).result = .ok (array, rest)) :
    array.info = info ∧ array.cells.length = info.shape.count ∧
      ∀ child, some child ∈ array.cells → property child := by
  obtain ⟨_, _, read⟩ := Reading.result_bind_eq_ok.mp read
  obtain ⟨⟨held, afterSlots⟩, slotsRead, read⟩ := Reading.result_bind_eq_ok.mp read
  cases read
  exact ⟨rfl, of_slots gives slotsRead⟩

theorem nulFree_of_fieldNames {names : List String}
    (read : cursor.fieldNames.result = .ok (names, rest)) : ∀ name ∈ names, NulFree name := by
  obtain ⟨⟨lengthElement, afterLength⟩, _, read⟩ := Reading.result_bind_eq_ok.mp read
  obtain ⟨lengths, _, read⟩ := Reading.result_bind_eq_ok.mp read
  dsimp only at read
  split at read
  · split at read
    · obtain ⟨length, _, read⟩ := Reading.result_bind_eq_ok.mp read
      obtain ⟨⟨namesElement, afterNames⟩, _, read⟩ := Reading.result_bind_eq_ok.mp read
      obtain ⟨spelled, namesRead, read⟩ := Reading.result_bind_eq_ok.mp read
      cases read
      exact Element.nulFree_of_fieldNames namesRead
    · cases read
  · cases read

/-- Every field has one slot for each element, and what is in them was read from nested
matrices. -/
theorem of_fields (gives : Gives nested property) {info : ArrayInfo} {className : Option String}
    {names : List String} {array : StructArray MatArray}
    (read : (cursor.fields nested info className names).result = .ok (array, rest)) :
    array.info = info ∧ array.className = className ∧
      ∀ field ∈ array.fields, field.name ∈ names ∧ field.slots.length = info.shape.count ∧
        ∀ child, some child ∈ field.slots → property child := by
  obtain ⟨⟨held, afterSlots⟩, slotsRead, read⟩ := Reading.result_bind_eq_ok.mp read
  cases read
  refine ⟨rfl, rfl, fun field member => ?_⟩
  obtain ⟨name, nameMember, pile, pileMember, rfl⟩ := exists_of_mem_zipWith member
  have rounds : slotRounds info names = info.shape.count := by
    rw [slotRounds, List.isEmpty_eq_false_iff.mpr (List.ne_nil_of_mem nameMember)]
    rfl
  exact ⟨nameMember, (length_of_mem_deal pileMember).trans rounds, fun child slotMember =>
    (of_slots gives slotsRead).2 child (mem_of_mem_deal pileMember slotMember)⟩

theorem of_structBody (gives : Gives nested property) {info : ArrayInfo}
    {className : Option String} {array : StructArray MatArray}
    (read : (cursor.structBody nested info className).result = .ok (array, rest)) :
    array.info = info ∧ array.className = className ∧
      ∀ field ∈ array.fields, NulFree field.name ∧ field.slots.length = info.shape.count ∧
        ∀ child, some child ∈ field.slots → property child := by
  obtain ⟨⟨names, afterNames⟩, namesRead, read⟩ := Reading.result_bind_eq_ok.mp read
  obtain ⟨_, _, read⟩ := Reading.result_bind_eq_ok.mp read
  obtain ⟨sameInfo, sameClass, fields⟩ := of_fields gives read
  refine ⟨sameInfo, sameClass, fun field member => ?_⟩
  obtain ⟨nameMember, length, below⟩ := fields field member
  exact ⟨nulFree_of_fieldNames namesRead field.name nameMember, length, below⟩

/-! ### Whole matrices -/

/-- What the reader of nested matrices makes sure of: such an array is sound at every depth,
and not the one that an unset slot is written as. -/
def Storable (array : MatArray) : Prop :=
  array.Everywhere MatArray.Sound ∧ array.isPlaceholder = false

theorem sound_of_struct {array : StructArray MatArray} (name : NulFree array.info.name)
    (className : ∀ name ∈ array.className, NulFree name)
    (fields : ∀ field ∈ array.fields, NulFree field.name ∧
      field.slots.length = array.info.shape.count ∧
      ∀ child, some child ∈ field.slots → Storable child) :
    (MatArray.struct array).Everywhere MatArray.Sound := by
  have below (child : MatArray) (member : child ∈ (MatArray.struct array).children) :
      Storable child := by
    obtain ⟨field, fieldMember, slotMember⟩ := (MatArray.mem_children_struct _ _).mp member
    exact (fields field fieldMember).2.2 child slotMember
  refine .intro _ ⟨fun field member => (fields field member).2.1, nofun,
    fun child member => (below child member).2, fun other member => ?_⟩
    fun child member => (below child member).1
  rcases MatArray.mem_ownNames.mp member with rfl | named | declared
  · exact name
  · exact className other named
  · obtain ⟨field, fieldMember, rfl⟩ := List.mem_map.mp declared
    exact (fields field fieldMember).1

/-- Whatever the class, an array that was read is sound at every depth if the arrays nested
in it are. -/
theorem sound_of_classBody (gives : Gives nested Storable) {arrayClass : ArrayClass}
    {info : ArrayInfo} (name : NulFree info.name) {capacity : Nat} {array : MatArray}
    (read : (cursor.classBody nested arrayClass info capacity).result = .ok (array, rest)) :
    array.Everywhere MatArray.Sound := by
  have alone (other : String) (member : other ∈ [info.name]) : NulFree other :=
    List.mem_singleton.mp member ▸ name
  cases arrayClass with
  | numeric numericClass =>
    obtain ⟨⟨array, afterBody⟩, body, read⟩ := Reading.result_bind_eq_ok.mp read
    cases read
    obtain ⟨rfl, shaped, complex⟩ := of_numericBody body
    exact .intro _ ⟨shaped, fun _ => complex, nofun, alone⟩ nofun
  | char =>
    obtain ⟨⟨array, afterBody⟩, body, read⟩ := Reading.result_bind_eq_ok.mp read
    cases read
    obtain ⟨rfl, shaped⟩ := of_charBody body
    exact .intro _ ⟨shaped, nofun, nofun, alone⟩ nofun
  | sparse =>
    obtain ⟨⟨array, afterBody⟩, body, read⟩ := Reading.result_bind_eq_ok.mp read
    cases read
    obtain ⟨rfl, shaped, complex⟩ := of_sparseBody body
    exact .intro _ ⟨shaped, fun _ => complex, nofun, alone⟩ nofun
  | cell =>
    obtain ⟨⟨array, afterBody⟩, body, read⟩ := Reading.result_bind_eq_ok.mp read
    cases read
    obtain ⟨rfl, shaped, below⟩ := of_cellBody gives body
    have held (child : MatArray) (member : child ∈ (MatArray.cell array).children) :
        Storable child :=
      below child ((MatArray.mem_children_cell _ _).mp member)
    exact .intro _ ⟨shaped, nofun, fun child member => (held child member).2, alone⟩
      fun child member => (held child member).1
  | struct =>
    obtain ⟨⟨array, afterBody⟩, body, read⟩ := Reading.result_bind_eq_ok.mp read
    cases read
    obtain ⟨rfl, unnamed, fields⟩ := of_structBody gives body
    exact sound_of_struct name (by rw [unnamed]; nofun) fields
  | object =>
    obtain ⟨⟨array, afterBody⟩, body, read⟩ := Reading.result_bind_eq_ok.mp read
    cases read
    obtain ⟨⟨element, afterClass⟩, _, body⟩ := Reading.result_bind_eq_ok.mp body
    obtain ⟨className, classRead, body⟩ := Reading.result_bind_eq_ok.mp body
    obtain ⟨rfl, named, fields⟩ := of_structBody gives body
    refine sound_of_struct name (fun other member => ?_) fields
    rw [named] at member
    rw [← Option.some.inj member]
    exact Element.nulFree_of_name classRead

theorem sound_of_matrixBody (gives : Gives nested Storable) {head : MatrixHead}
    (name : NulFree head.name) {array : MatArray}
    (read : (cursor.matrixBody nested head).result = .ok (array, rest)) :
    array.Everywhere MatArray.Sound := by
  unfold matrixBody at read
  split at read
  · cases read
  · split at read
    · cases read
    · exact sound_of_classBody gives name read

/-- However deep it may go, the reader of nested matrices gives storable arrays only. -/
theorem gives_nestedMatrix (depth : Nat) : Gives (nestedMatrix depth) Storable := by
  induction depth with
  | zero =>
    intro payload array read
    cases read
  | succ depth inductionHypothesis =>
    intro payload array read
    unfold nestedMatrix at read
    split at read
    · cases read
    · obtain ⟨⟨head, afterHead⟩, headRead, read⟩ := Reading.result_bind_eq_ok.mp read
      obtain ⟨⟨found, afterBody⟩, body, read⟩ := Reading.result_bind_eq_ok.mp read
      obtain ⟨stored, rfl⟩ := MatArray.mem_toSlot.mp (Except.ok.inj read)
      exact ⟨sound_of_matrixBody inductionHypothesis (nulFree_of_matrixHead headRead) body, stored⟩

/-- Every array that is read from the payload of a matrix is sound at every depth. -/
theorem gives_matrix (wanted : String → Bool) :
    Gives (fun payload => payload.matrix wanted) (MatArray.Everywhere MatArray.Sound) := by
  intro payload array read
  dsimp only at read
  unfold matrix at read
  split at read
  · obtain ⟨_, _, read⟩ := Reading.result_bind_eq_ok.mp read
    cases read
  · obtain ⟨⟨head, afterHead⟩, headRead, read⟩ := Reading.result_bind_eq_ok.mp read
    dsimp only at read
    split at read
    · obtain ⟨⟨found, afterBody⟩, body, read⟩ := Reading.result_bind_eq_ok.mp read
      obtain ⟨_, _, read⟩ := Reading.result_bind_eq_ok.mp read
      cases read
      exact sound_of_matrixBody (gives_nestedMatrix _) (nulFree_of_matrixHead headRead) body
    · obtain ⟨_, _, read⟩ := Reading.result_bind_eq_ok.mp read
      cases read

end Cursor

end MatFormat
