/-
This file proves that reading does not depend on where the bytes stand. A reader that starts
at a later offset gives the same values and fails with the same errors, except that every
offset in an error is later by as much. The proof goes through every function of the reader,
because each of them may fail at an offset of its own.
-/

import MatFormat.Matrix.Reader
import MatFormat.Proofs.Cursor
import MatFormat.Proofs.Related

namespace MatFormat

/-- An error whose place is later by a distance. -/
def Error.moved (distance : Nat) : Error → Error
  | malformed offset reason => malformed (offset + distance) reason
  | truncated offset needed available => truncated (offset + distance) needed available
  | corruptCompressed offset reason => corruptCompressed (offset + distance) reason
  | error => error

/-- The same bytes at a later offset. -/
def Cursor.moved (distance : Nat) (cursor : Cursor) : Cursor :=
  { cursor with offset := cursor.offset + distance }

/-- The same element at a later offset. -/
def Element.moved (distance : Nat) (element : Element) : Element :=
  { element with payload := element.payload.moved distance }

/-- The same head of a matrix at a later offset. -/
def MatrixHead.moved (distance : Nat) (head : MatrixHead) : MatrixHead :=
  { head with offset := head.offset + distance }

/-- The second outcome is that of the first reader at a later offset, which carries the value
of the first along. -/
def Moves (distance : Nat) {Value : Type} (carry : Value → Value) :
    Except Error Value → Except Error Value → Prop :=
  Related (fun error moved => moved = error.moved distance)
    fun value moved => moved = carry value

namespace Moves

variable {distance : Nat} {Value Next : Type} {carry : Value → Value}
  {carryNext : Next → Next}

theorem ok {value later : Value} (carried : later = carry value) :
    Moves distance carry (.ok value) (.ok later) := Related.ok carried

theorem error {fault later : Error} (moved : later = fault.moved distance) :
    Moves distance carry (.error fault) (.error later) := Related.error moved

theorem eq_ok {value : Value} {second : Except Error Value}
    (moves : Moves distance carry (.ok value) second) : second = .ok (carry value) := by
  cases moves with
  | ok carried => rw [carried]

theorem eq_error {fault : Error} {second : Except Error Value}
    (moves : Moves distance carry (.error fault) second) :
    second = .error (fault.moved distance) := by
  cases moves with
  | error moved => rw [moved]

theorem bind {first second : Except Error Value} {firstRest secondRest : Value → Except Error Next}
    (step : Moves distance carry first second)
    (rest : ∀ value, Moves distance carryNext (firstRest value) (secondRest (carry value))) :
    Moves distance carryNext (first >>= firstRest) (second >>= secondRest) :=
  Related.bind step fun value _ carried => carried ▸ rest value

/-- A step of a reading, whatever is remarked. -/
theorem reading {first second : Reading Value} {firstRest secondRest : Value → Reading Next}
    (step : Moves distance carry first.result second.result)
    (rest : ∀ value,
      Moves distance carryNext (firstRest value).result (secondRest (carry value)).result) :
    Moves distance carryNext (first >>= firstRest).result (second >>= secondRest).result := by
  rw [Reading.result_bind, Reading.result_bind]
  exact step.bind rest

theorem ite {condition other : Prop} [Decidable condition] [Decidable other]
    {firstThen firstElse secondThen secondElse : Except Error Value} (same : condition ↔ other)
    (yes : condition → Moves distance carry firstThen secondThen)
    (no : ¬ condition → Moves distance carry firstElse secondElse) :
    Moves distance carry (if condition then firstThen else firstElse)
      (if other then secondThen else secondElse) :=
  Related.ite same yes no

theorem choice {condition other : Prop} [Decidable condition] [Decidable other]
    {firstThen firstElse secondThen secondElse : Reading Value} (same : condition ↔ other)
    (yes : condition → Moves distance carry firstThen.result secondThen.result)
    (no : ¬ condition → Moves distance carry firstElse.result secondElse.result) :
    Moves distance carry (if condition then firstThen else firstElse).result
      (if other then secondThen else secondElse).result := by
  rw [apply_ite Reading.result, apply_ite Reading.result]
  exact ite same yes no

end Moves

/-- What is read together with a cursor, at a later offset. -/
def Cursor.movedAfter (distance : Nat) {Value : Type} (carry : Value → Value)
    (read : Value × Cursor) : Value × Cursor :=
  (carry read.1, read.2.moved distance)

variable (distance : Nat)

namespace Cursor

/-! ### Bytes and elements -/

theorem moves_take (cursor : Cursor) (count : Nat) :
    Moves distance (movedAfter distance id) (cursor.take count)
      ((cursor.moved distance).take count) := by
  by_cases enough : count ≤ cursor.remaining
  · rw [take_of_le cursor count enough, take_of_le (cursor.moved distance) count enough]
    exact .ok (by simp only [movedAfter, moved, id, Nat.add_right_comm])
  · rw [take_of_lt cursor count (Nat.lt_of_not_le enough),
      take_of_lt (cursor.moved distance) count (Nat.lt_of_not_le enough)]
    exact .error rfl

theorem moves_number (cursor : Cursor) (width : Nat) :
    Moves distance (movedAfter distance id) (cursor.number width)
      ((cursor.moved distance).number width) :=
  (moves_take distance cursor width).bind fun _ => .ok rfl

theorem moves_split (cursor : Cursor) (count : Nat) :
    Moves distance (movedAfter distance (moved distance)) (cursor.split count)
      ((cursor.moved distance).split count) :=
  (moves_take distance cursor count).bind fun _ => .ok rfl

theorem skipAtMost_moved (cursor : Cursor) (count : Nat) :
    (cursor.moved distance).skipAtMost count =
      movedAfter distance id (cursor.skipAtMost count) := by
  simp only [skipAtMost, moved, movedAfter, id, Nat.add_right_comm]

theorem moves_tag (cursor : Cursor) :
    Moves distance (movedAfter distance id) cursor.tag (cursor.moved distance).tag := by
  refine (moves_number distance cursor 4).bind fun ⟨word, afterWord⟩ => ?_
  dsimp only [movedAfter, id]
  split
  · split
    · exact .error rfl
    · split
      · exact .error rfl
      · split
        · exact .error rfl
        · exact .ok rfl
  · refine (moves_number distance afterWord 4).bind fun ⟨size, afterSize⟩ => ?_
    dsimp only [movedAfter, id]
    split
    · exact .error rfl
    · exact .ok rfl

theorem moves_element (cursor : Cursor) :
    Moves distance (fun read => (read.1.moved distance, read.2.moved distance))
      cursor.element.result (cursor.moved distance).element.result := by
  rw [result_element, result_element]
  refine (moves_tag distance cursor).bind fun ⟨tag, afterTag⟩ => ?_
  refine (moves_split distance afterTag tag.size).bind fun ⟨payload, afterPayload⟩ => ?_
  exact .ok (by dsimp only [movedAfter]; rw [skipAtMost_moved]; rfl)

end Cursor

/-! ### Runs of values -/

namespace Element

theorem moves_values (element : Element) (wanted : NumericClass) :
    Moves distance id (element.values wanted) ((element.moved distance).values wanted) := by
  unfold values
  dsimp only [moved]
  split
  · exact .error rfl
  · exact .ite Iff.rfl (fun _ => .error rfl) fun _ => .ok rfl

theorem moves_checkCount (element : Element) (expected actual : Nat) :
    Moves distance id (element.checkCount expected actual)
      ((element.moved distance).checkCount expected actual) := by
  unfold checkCount
  split
  · exact .error rfl
  · split
    · exact .error rfl
    · exact .ok rfl

theorem moves_exactly (element : Element) (wanted : NumericClass) (expected : Nat) :
    Moves distance id (element.exactly wanted expected)
      ((element.moved distance).exactly wanted expected) := by
  refine (moves_values distance element wanted).bind fun values => ?_
  exact (moves_checkCount distance element expected values.length).bind fun _ => .ok rfl

theorem moves_atLeast (element : Element) (wanted : NumericClass) (expected : Nat) :
    Moves distance id (element.atLeast wanted expected)
      ((element.moved distance).atLeast wanted expected) := by
  refine (moves_values distance element wanted).bind fun values => ?_
  dsimp only [id]
  split
  · exact .error rfl
  · exact .ok rfl

theorem moves_integers (element : Element) :
    Moves distance id element.integers (element.moved distance).integers :=
  (moves_values distance element .int64).bind fun _ => .ok rfl

theorem moves_codeUnits (element : Element) (expected : Nat) :
    Moves distance id (element.codeUnits expected)
      ((element.moved distance).codeUnits expected) := by
  refine .ite Iff.rfl (fun _ => ?_) fun _ => ?_
  · dsimp only [moved, bytes, Cursor.moved]
    split
    · exact (moves_checkCount distance element expected _).bind fun _ => .ok rfl
    · exact .error rfl
  · refine (moves_values distance element .uint16).bind fun units => ?_
    exact (moves_checkCount distance element expected units.length).bind fun _ => .ok rfl

theorem moves_name (element : Element) :
    Moves distance id element.name (element.moved distance).name := by
  unfold Element.name
  dsimp only [moved, bytes, Cursor.moved]
  split
  · exact .ok rfl
  · exact .ok rfl
  · exact .ok rfl
  · exact (moves_values distance element .uint16).bind fun _ => .ok rfl

theorem moves_fieldNames (element : Element) (length : Nat) :
    Moves distance id (element.fieldNames length).result
      ((element.moved distance).fieldNames length).result := by
  unfold fieldNames
  dsimp only [moved]
  rw [Reading.result_noteIf, Reading.result_noteIf]
  exact .ok rfl

end Element

theorem moves_checkIndices (offset : Nat) (values : List Int) :
    Moves distance id (checkIndices offset values) (checkIndices (offset + distance) values) := by
  induction values with
  | nil => exact .ok rfl
  | cons value rest inductionHypothesis =>
    cases value with
    | ofNat value =>
      rw [checkIndices, checkIndices]
      exact inductionHypothesis.bind fun _ => .ok rfl
    | negSucc value => exact .error rfl

namespace Cursor

theorem moves_indices (cursor : Cursor) :
    Moves distance (movedAfter distance id) cursor.indices.result
      (cursor.moved distance).indices.result := by
  refine (moves_element distance cursor).reading fun ⟨element, rest⟩ => ?_
  refine (element.moves_integers distance).reading fun values => ?_
  exact (moves_checkIndices distance element.offset values).reading fun _ => .ok rfl

/-! ### Heads -/

theorem moves_matrixHead (cursor : Cursor) :
    Moves distance (fun read => (read.1.moved distance, read.2.moved distance))
      cursor.matrixHead.result (cursor.moved distance).matrixHead.result := by
  refine (moves_element distance cursor).reading fun ⟨flags, afterFlags⟩ => ?_
  refine (flags.moves_values distance .uint32).reading fun words => ?_
  dsimp only [id]
  split
  · refine (moves_indices distance afterFlags).reading fun ⟨dimensions, afterDimensions⟩ => ?_
    refine .choice Iff.rfl (fun _ => .error rfl) fun _ => ?_
    refine (moves_element distance afterDimensions).reading fun ⟨element, rest⟩ => ?_
    exact (element.moves_name distance).reading fun _ => .ok rfl
  · exact .error rfl

/-! ### Bodies without nested matrices -/

theorem moves_numericBody (cursor : Cursor) (numericClass : NumericClass) (info : ArrayInfo) :
    Moves distance (movedAfter distance id) (cursor.numericBody numericClass info).result
      ((cursor.moved distance).numericBody numericClass info).result := by
  refine (moves_element distance cursor).reading fun ⟨element, rest⟩ => ?_
  refine (element.moves_exactly distance numericClass _).reading fun real => ?_
  dsimp only [id]
  split
  · refine (moves_element distance rest).reading fun ⟨element, rest⟩ => ?_
    exact (element.moves_exactly distance numericClass _).reading fun _ => .ok rfl
  · exact .ok rfl

theorem moves_charBody (cursor : Cursor) (info : ArrayInfo) :
    Moves distance (movedAfter distance id) (cursor.charBody info).result
      ((cursor.moved distance).charBody info).result := by
  refine (moves_element distance cursor).reading fun ⟨element, rest⟩ => ?_
  exact (element.moves_codeUnits distance _).reading fun _ => .ok rfl

theorem moves_sparseValues (cursor : Cursor) (count : Nat) :
    Moves distance (movedAfter distance id) (cursor.sparseValues count).result
      ((cursor.moved distance).sparseValues count).result := by
  refine (moves_element distance cursor).reading fun ⟨element, rest⟩ => ?_
  exact (element.moves_atLeast distance .double count).reading fun _ => .ok rfl

theorem moves_sparseBody (cursor : Cursor) (info : ArrayInfo) (capacity : Nat) :
    Moves distance (movedAfter distance id) (cursor.sparseBody info capacity).result
      ((cursor.moved distance).sparseBody info capacity).result := by
  refine (moves_indices distance cursor).reading fun ⟨rowIndices, afterRows⟩ => ?_
  refine (moves_indices distance afterRows).reading fun ⟨columnPointers, afterPointers⟩ => ?_
  refine .choice Iff.rfl (fun _ => .error rfl) fun _ => ?_
  refine .choice Iff.rfl (fun _ => .error rfl) fun _ => ?_
  refine .choice Iff.rfl (fun _ => .error rfl) fun _ => ?_
  dsimp only [movedAfter, id]
  split
  · exact .error rfl
  · rw [Reading.result_noteIf, Reading.result_noteIf]
    refine (moves_sparseValues distance afterPointers _).reading fun ⟨real, rest⟩ => ?_
    refine .choice Iff.rfl (fun _ => ?_) fun _ => .ok rfl
    exact (moves_sparseValues distance rest _).reading fun _ => .ok rfl

/-! ### Bodies with nested matrices -/

/-- A reader for nested matrices that does not depend on where the bytes stand. -/
def NestedMoves (nested : Cursor → Reading (Option MatArray)) : Prop :=
  ∀ payload : Cursor, Moves distance id (nested payload).result
    (nested (payload.moved distance)).result

variable {nested : Cursor → Reading (Option MatArray)}

section

variable (moves : NestedMoves distance nested)

include moves

theorem moves_slot (cursor : Cursor) :
    Moves distance (movedAfter distance id) (cursor.slot nested).result
      ((cursor.moved distance).slot nested).result := by
  refine (moves_element distance cursor).reading fun ⟨element, rest⟩ => ?_
  dsimp only [Element.moved]
  split
  · exact .error rfl
  · exact (moves element.payload).reading fun _ => .ok rfl

theorem moves_slots (count : Nat) (cursor : Cursor) :
    Moves distance (movedAfter distance id) (slots nested count cursor).result
      (slots nested count (cursor.moved distance)).result := by
  induction count generalizing cursor with
  | zero => exact .ok rfl
  | succ count inductionHypothesis =>
    refine (moves_slot distance moves cursor).reading fun ⟨first, rest⟩ => ?_
    exact (inductionHypothesis rest).reading fun _ => .ok rfl

omit moves in
theorem moves_checkSlots (cursor : Cursor) (count : Nat) :
    Moves distance id (cursor.checkSlots count) ((cursor.moved distance).checkSlots count) :=
  .ite Iff.rfl (fun _ => .error rfl) fun _ => .ok rfl

theorem moves_cellBody (cursor : Cursor) (info : ArrayInfo) :
    Moves distance (movedAfter distance id) (cursor.cellBody nested info).result
      ((cursor.moved distance).cellBody nested info).result := by
  refine (moves_checkSlots distance cursor _).reading fun _ => ?_
  exact (moves_slots distance moves _ cursor).reading fun _ => .ok rfl

omit moves in
theorem moves_fieldNames (cursor : Cursor) :
    Moves distance (movedAfter distance id) cursor.fieldNames.result
      (cursor.moved distance).fieldNames.result := by
  refine (moves_element distance cursor).reading fun ⟨element, rest⟩ => ?_
  refine (element.moves_integers distance).reading fun lengths => ?_
  dsimp only [id]
  split
  · split
    · refine (moves_element distance rest).reading fun ⟨element, rest⟩ => ?_
      exact (element.moves_fieldNames distance _).reading fun _ => .ok rfl
    · exact .error rfl
  · exact .error rfl

theorem moves_fields (cursor : Cursor) (info : ArrayInfo) (className : Option String)
    (names : List String) :
    Moves distance (movedAfter distance id) (cursor.fields nested info className names).result
      ((cursor.moved distance).fields nested info className names).result :=
  (moves_slots distance moves _ cursor).reading fun _ => .ok rfl

theorem moves_structBody (cursor : Cursor) (info : ArrayInfo) (className : Option String) :
    Moves distance (movedAfter distance id) (cursor.structBody nested info className).result
      ((cursor.moved distance).structBody nested info className).result := by
  refine (moves_fieldNames distance cursor).reading fun ⟨names, rest⟩ => ?_
  refine (moves_checkSlots distance rest _).reading fun _ => ?_
  exact moves_fields distance moves rest info className names

theorem moves_objectBody (cursor : Cursor) (info : ArrayInfo) :
    Moves distance (movedAfter distance id) (cursor.objectBody nested info).result
      ((cursor.moved distance).objectBody nested info).result := by
  refine (moves_element distance cursor).reading fun ⟨element, rest⟩ => ?_
  refine (element.moves_name distance).reading fun className => ?_
  exact moves_structBody distance moves rest info (some className)

/-! ### Matrices -/

theorem moves_classBody (cursor : Cursor) (arrayClass : ArrayClass) (info : ArrayInfo)
    (capacity : Nat) :
    Moves distance (movedAfter distance id)
      (cursor.classBody nested arrayClass info capacity).result
      ((cursor.moved distance).classBody nested arrayClass info capacity).result := by
  cases arrayClass with
  | numeric numericClass =>
    exact (moves_numericBody distance cursor numericClass info).reading fun _ => .ok rfl
  | char => exact (moves_charBody distance cursor info).reading fun _ => .ok rfl
  | cell => exact (moves_cellBody distance moves cursor info).reading fun _ => .ok rfl
  | struct => exact (moves_structBody distance moves cursor info none).reading fun _ => .ok rfl
  | object => exact (moves_objectBody distance moves cursor info).reading fun _ => .ok rfl
  | sparse => exact (moves_sparseBody distance cursor info capacity).reading fun _ => .ok rfl

theorem moves_matrixBody (cursor : Cursor) (head : MatrixHead) :
    Moves distance (movedAfter distance id) (cursor.matrixBody nested head).result
      ((cursor.moved distance).matrixBody nested (head.moved distance)).result := by
  unfold matrixBody
  dsimp only [MatrixHead.moved]
  split
  · exact .error rfl
  · split
    · exact .error rfl
    · exact moves_classBody distance moves cursor _ _ _

end

theorem moves_nestedMatrix (depth : Nat) : NestedMoves distance (nestedMatrix depth) := by
  induction depth with
  | zero => exact fun _ => .ok rfl
  | succ depth inductionHypothesis =>
    intro payload
    refine .choice Iff.rfl (fun _ => .ok rfl) fun _ => ?_
    refine (moves_matrixHead distance payload).reading fun ⟨head, rest⟩ => ?_
    exact (moves_matrixBody distance inductionHypothesis rest head).reading fun _ => .ok rfl

/-- A matrix is read to the same array wherever it stands, and fails with the same error but
for the place. -/
theorem moves_matrix (payload : Cursor) (wanted : String → Bool) :
    Moves distance id (payload.matrix wanted).result
      ((payload.moved distance).matrix wanted).result := by
  refine .choice Iff.rfl (fun _ => .ok rfl) fun _ => ?_
  refine (moves_matrixHead distance payload).reading fun ⟨head, rest⟩ => ?_
  refine .choice Iff.rfl (fun _ => ?_) fun _ => .ok rfl
  exact (moves_matrixBody distance (moves_nestedMatrix distance _) rest head).reading fun _ =>
    .ok rfl

end Cursor

end MatFormat
