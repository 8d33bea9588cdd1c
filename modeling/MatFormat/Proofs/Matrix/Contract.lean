/-
This file goes once through every function of the reader of matrices with what it is to keep as
a parameter. A contract names the places that elements are read from and the payloads that come
out, the errors that may end the reading and the remarks that may be made on the way. It is
enough that reading an element keeps the contract, that an error which blames the start of a
payload is allowed, and that every remark but the one about missing padding may be made. Then
reading a matrix keeps the contract too, however deep it is nested.
-/

import MatFormat.Proofs.Outcome
import MatFormat.Stream

namespace MatFormat

/-- Whether a remark tells that padding is missing. -/
def Notice.TellsMissing : Notice → Prop
  | missingPadding .. => True
  | _ => False

/-! ### Outcomes -/

/-- An outcome that is an allowed error or a value with a property. -/
inductive Settles (allowed : Error → Prop) {Value : Type} (good : Value → Prop) :
    Except Error Value → Prop where
  | error {error : Error} (permitted : allowed error) : Settles allowed good (.error error)
  | ok {value : Value} (holds : good value) : Settles allowed good (.ok value)

namespace Settles

variable {allowed : Error → Prop} {Value Next : Type} {good : Value → Prop}
  {goodNext : Next → Prop}

theorem permitted {outcome : Except Error Value} (settles : Settles allowed good outcome)
    {error : Error} (failed : outcome = .error error) : allowed error := by
  cases settles with
  | error permitted => exact Except.error.inj failed ▸ permitted
  | ok => cases failed

theorem holds {outcome : Except Error Value} (settles : Settles allowed good outcome)
    {value : Value} (read : outcome = .ok value) : good value := by
  cases settles with
  | error => cases read
  | ok holds => exact Except.ok.inj read ▸ holds

theorem bind {outcome : Except Error Value} {rest : Value → Except Error Next}
    (step : Settles allowed good outcome)
    (later : ∀ value, good value → Settles allowed goodNext (rest value)) :
    Settles allowed goodNext (outcome >>= rest) := by
  cases step with
  | error permitted => exact .error permitted
  | ok holds => exact later _ holds

theorem ite {condition : Prop} [Decidable condition] {yes no : Except Error Value}
    (holds : condition → Settles allowed good yes)
    (fails : ¬ condition → Settles allowed good no) :
    Settles allowed good (if condition then yes else no) := by
  split
  · rename_i met
    exact holds met
  · rename_i missed
    exact fails missed

/-- A step of a reading, whatever is remarked. -/
theorem reading {reading : Reading Value} {rest : Value → Reading Next}
    (step : Settles allowed good reading.result)
    (later : ∀ value, good value → Settles allowed goodNext (rest value).result) :
    Settles allowed goodNext (reading >>= rest).result := by
  rw [Reading.result_bind]
  exact step.bind later

theorem choice {condition : Prop} [Decidable condition] {yes no : Reading Value}
    (holds : condition → Settles allowed good yes.result)
    (fails : ¬ condition → Settles allowed good no.result) :
    Settles allowed good (if condition then yes else no).result := by
  rw [apply_ite Reading.result]
  exact ite holds fails

end Settles

/-! ### Readings -/

/-- A reading that makes only some remarks and ends in an allowed error or a value with a
property. -/
structure Keeps (allowed : Error → Prop) (remarked : Notice → Prop) {Value : Type}
    (good : Value → Prop) (reading : Reading Value) : Prop where
  notices : ∀ notice ∈ reading.notices, remarked notice
  settles : Settles allowed good reading.result

namespace Keeps

variable {allowed : Error → Prop} {remarked : Notice → Prop} {Value Next : Type}
  {good : Value → Prop} {goodNext : Next → Prop}

theorem pure {value : Value} (holds : good value) :
    Keeps allowed remarked good (Pure.pure value) :=
  ⟨nofun, .ok holds⟩

theorem throw {error : Error} (permitted : allowed error) :
    Keeps allowed remarked good (MonadExcept.throw error) :=
  ⟨nofun, .error permitted⟩

theorem bind {reading : Reading Value} {rest : Value → Reading Next}
    (step : Keeps allowed remarked good reading)
    (later : ∀ value, good value → Keeps allowed remarked goodNext (rest value)) :
    Keeps allowed remarked goodNext (reading >>= rest) := by
  obtain ⟨notices, result⟩ := reading
  obtain ⟨remarks, settles⟩ := step
  cases settles with
  | error permitted => exact ⟨remarks, .error permitted⟩
  | @ok value holds =>
    refine ⟨fun notice member => ?_, (later value holds).settles⟩
    rcases List.mem_append.mp member with here | there
    · exact remarks notice here
    · exact (later value holds).notices notice there

/-- A step without remarks. -/
theorem lift {outcome : Except Error Value} {rest : Value → Reading Next}
    (step : Settles allowed good outcome)
    (later : ∀ value, good value → Keeps allowed remarked goodNext (rest value)) :
    Keeps allowed remarked goodNext ((liftM outcome : Reading Value) >>= rest) :=
  bind ⟨nofun, step⟩ later

/-- A failure, whatever would come after it. -/
theorem fail {error : Error} (permitted : allowed error) {rest : Value → Reading Next} :
    Keeps allowed remarked goodNext (MonadExcept.throw error >>= rest) := by
  have failed : Keeps allowed remarked (fun _ : Value => False) (MonadExcept.throw error) :=
    throw permitted
  exact failed.bind nofun

/-- A remark that is made before reading goes on. -/
theorem note {notice : Notice} (permitted : remarked notice) {rest : Unit → Reading Next}
    (later : Keeps allowed remarked goodNext (rest ())) :
    Keeps allowed remarked goodNext (Reading.note notice >>= rest) := by
  have noted : Keeps allowed remarked (fun _ => True) (Reading.note notice) := by
    refine ⟨fun other member => ?_, .ok trivial⟩
    exact List.mem_singleton.mp member ▸ permitted
  exact noted.bind fun _ _ => later

theorem ite {condition : Prop} [Decidable condition] {yes no : Reading Value}
    (holds : condition → Keeps allowed remarked good yes)
    (fails : ¬ condition → Keeps allowed remarked good no) :
    Keeps allowed remarked good (if condition then yes else no) := by
  split
  · rename_i met
    exact holds met
  · rename_i missed
    exact fails missed

/-- A reading that is refused on a condition. -/
theorem refuse {condition : Prop} [Decidable condition] {error : Error}
    {refused : Unit → Reading Value} {reading : Reading Value}
    (permitted : condition → allowed error)
    (fails : ¬ condition → Keeps allowed remarked good reading) :
    Keeps allowed remarked good
      (if condition then MonadExcept.throw error >>= refused else reading) :=
  ite (fun met => fail (permitted met)) fails

/-- A reading that goes on in the same way whether something is remarked first or not. -/
theorem noteIf {condition : Prop} [Decidable condition] {notice : Notice}
    (permitted : remarked notice) {reading : Reading Value}
    (later : Keeps allowed remarked good reading) :
    Keeps allowed remarked good
      (if condition then Reading.note notice >>= fun _ => reading else reading) :=
  ite (fun _ => note permitted later) fun _ => later

end Keeps

/-! ### Contracts -/

/-- What reading a matrix is to keep. -/
structure Contract where
  /-- The places that elements are read from. -/
  place : Cursor → Prop
  /-- The payloads of the elements that are read. -/
  payload : Cursor → Prop
  /-- The errors that reading may end in. -/
  allowed : Error → Prop
  /-- The remarks that reading may make. -/
  remarked : Notice → Prop
  payload_of_place : ∀ {cursor}, place cursor → payload cursor
  malformed : ∀ {cursor}, payload cursor → ∀ reason, allowed (.malformed cursor.offset reason)
  truncated : ∀ {cursor needed available}, payload cursor → available < needed →
    allowed (.truncated cursor.offset needed available)
  unsupportedClass : ∀ code, allowed (.unsupportedClass code)
  remark : ∀ {notice : Notice}, ¬ notice.TellsMissing → remarked notice
  element : ∀ {cursor}, place cursor → Keeps allowed remarked
    (fun read => payload read.1.payload ∧
      (read.1.tag.type = .matrix → place read.1.payload) ∧ place read.2) cursor.element

namespace Contract

variable (contract : Contract)

/-- An outcome that keeps to the errors of the contract. -/
abbrev Settles {Value : Type} (good : Value → Prop) (outcome : Except Error Value) : Prop :=
  MatFormat.Settles contract.allowed good outcome

/-- A reading that keeps the contract. -/
abbrev Keeps {Value : Type} (good : Value → Prop) (reading : Reading Value) : Prop :=
  MatFormat.Keeps contract.allowed contract.remarked good reading

/-! ### Runs of values -/

section

variable {contract} {element : Element} (payload : contract.payload element.payload)

include payload

theorem settles_values (wanted : NumericClass) :
    contract.Settles (fun _ => True) (element.values wanted) := by
  unfold Element.values
  dsimp only
  split
  · exact .error (contract.malformed payload _)
  · exact .ite (fun _ => .error (contract.malformed payload _)) fun _ => .ok trivial

theorem settles_checkCount (expected actual : Nat) :
    contract.Settles (fun _ => True) (element.checkCount expected actual) :=
  .ite (fun short => .error (contract.truncated payload short)) fun _ =>
    .ite (fun _ => .error (contract.malformed payload _)) fun _ => .ok trivial

theorem settles_exactly (wanted : NumericClass) (expected : Nat) :
    contract.Settles (fun _ => True) (element.exactly wanted expected) := by
  refine (settles_values payload wanted).bind fun values _ => ?_
  exact (settles_checkCount payload expected values.length).bind fun _ _ => .ok trivial

theorem settles_atLeast (wanted : NumericClass) (expected : Nat) :
    contract.Settles (fun _ => True) (element.atLeast wanted expected) := by
  refine (settles_values payload wanted).bind fun values _ => ?_
  exact .ite (fun short => .error (contract.truncated payload short)) fun _ => .ok trivial

theorem settles_integers : contract.Settles (fun _ => True) element.integers :=
  (settles_values payload .int64).bind fun _ _ => .ok trivial

theorem settles_codeUnits (expected : Nat) :
    contract.Settles (fun _ => True) (element.codeUnits expected) := by
  refine .ite (fun _ => ?_) fun _ => ?_
  · split
    · exact (settles_checkCount payload expected _).bind fun _ _ => .ok trivial
    · exact .error (contract.malformed payload _)
  · refine (settles_values payload .uint16).bind fun units _ => ?_
    exact (settles_checkCount payload expected units.length).bind fun _ _ => .ok trivial

theorem settles_name : contract.Settles (fun _ => True) element.name := by
  unfold Element.name
  split
  · exact .ok trivial
  · exact .ok trivial
  · exact .ok trivial
  · exact (settles_values payload .uint16).bind fun _ _ => .ok trivial

theorem settles_checkIndices (values : List Int) :
    contract.Settles (fun _ => True) (checkIndices element.offset values) := by
  induction values with
  | nil => exact .ok trivial
  | cons value rest inductionHypothesis =>
    cases value with
    | ofNat value =>
      rw [checkIndices]
      exact inductionHypothesis.bind fun _ _ => .ok trivial
    | negSucc value => exact .error (contract.malformed payload _)

end

theorem keeps_names (element : Element) (length : Nat) :
    contract.Keeps (fun _ => True) (element.fieldNames length) :=
  .noteIf (contract.remark id) (.pure trivial)

/-! ### Heads and bodies -/

section

variable {contract} {cursor : Cursor} (here : contract.place cursor)

include here

theorem keeps_indices :
    contract.Keeps (fun read => contract.place read.2) cursor.indices := by
  refine (contract.element here).bind fun ⟨element, rest⟩ ⟨payload, _, later⟩ => ?_
  refine .lift (settles_integers payload) fun values _ => ?_
  exact .lift (settles_checkIndices payload values) fun _ _ => .pure later

/-- The offset of a head is that of the payload it was read from. -/
theorem keeps_matrixHead :
    contract.Keeps (fun read => read.1.offset = cursor.offset ∧ contract.place read.2)
      cursor.matrixHead := by
  refine (contract.element here).bind fun ⟨flags, afterFlags⟩ ⟨payload, _, dimensionsHere⟩ => ?_
  refine .lift (settles_values payload .uint32) fun words _ => ?_
  dsimp only
  split
  · refine (keeps_indices dimensionsHere).bind fun ⟨dimensions, afterDimensions⟩ nameHere => ?_
    refine .refuse
      (fun _ => contract.malformed (contract.payload_of_place dimensionsHere) _) fun _ => ?_
    refine (contract.element nameHere).bind fun ⟨element, rest⟩ ⟨payload, _, later⟩ => ?_
    exact .lift (settles_name payload) fun _ _ => .pure ⟨rfl, later⟩
  · exact .fail (contract.malformed (contract.payload_of_place here) _)

theorem keeps_numericBody (numericClass : NumericClass) (info : ArrayInfo) :
    contract.Keeps (fun read => contract.place read.2) (cursor.numericBody numericClass info) := by
  refine (contract.element here).bind fun ⟨element, rest⟩ ⟨payload, _, later⟩ => ?_
  refine .lift (settles_exactly payload numericClass _) fun real _ => ?_
  refine .ite (fun _ => ?_) fun _ => .pure later
  refine (contract.element later).bind fun ⟨element, rest⟩ ⟨payload, _, later⟩ => ?_
  exact .lift (settles_exactly payload numericClass _) fun _ _ => .pure later

theorem keeps_charBody (info : ArrayInfo) :
    contract.Keeps (fun read => contract.place read.2) (cursor.charBody info) := by
  refine (contract.element here).bind fun ⟨element, rest⟩ ⟨payload, _, later⟩ => ?_
  exact .lift (settles_codeUnits payload _) fun _ _ => .pure later

theorem keeps_sparseValues (count : Nat) :
    contract.Keeps (fun read => contract.place read.2) (cursor.sparseValues count) := by
  refine (contract.element here).bind fun ⟨element, rest⟩ ⟨payload, _, later⟩ => ?_
  exact .lift (settles_atLeast payload .double count) fun _ _ => .pure later

theorem keeps_sparseBody (info : ArrayInfo) (capacity : Nat) :
    contract.Keeps (fun read => contract.place read.2) (cursor.sparseBody info capacity) := by
  refine (keeps_indices here).bind fun ⟨rowIndices, afterRows⟩ pointersHere => ?_
  have blamed := contract.malformed (contract.payload_of_place pointersHere)
  refine (keeps_indices pointersHere).bind fun ⟨columnPointers, afterPointers⟩ valuesHere => ?_
  refine .refuse (fun _ => blamed _) fun _ => .refuse (fun _ => blamed _) fun _ => ?_
  refine .refuse
    (fun short => contract.truncated (contract.payload_of_place here) short) fun _ => ?_
  dsimp only
  split
  · exact .fail (contract.malformed (contract.payload_of_place here) _)
  · refine .noteIf (contract.remark id) ?_
    refine (keeps_sparseValues valuesHere _).bind fun ⟨real, rest⟩ later => ?_
    refine .ite (fun _ => ?_) fun _ => .pure later
    exact (keeps_sparseValues later _).bind fun _ last => .pure last

theorem keeps_fieldNames :
    contract.Keeps (fun read => contract.place read.2) cursor.fieldNames := by
  have blamed := contract.malformed (contract.payload_of_place here)
  refine (contract.element here).bind fun ⟨element, rest⟩ ⟨payload, _, namesHere⟩ => ?_
  refine .lift (settles_integers payload) fun lengths _ => ?_
  dsimp only
  split
  · split
    · refine (contract.element namesHere).bind fun ⟨element, rest⟩ ⟨_, _, later⟩ => ?_
      exact (contract.keeps_names element _).bind fun _ _ => .pure later
    · exact .fail (blamed _)
  · exact .fail (blamed _)

theorem settles_checkSlots (count : Nat) :
    contract.Settles (fun _ => True) (cursor.checkSlots count) :=
  .ite (fun short => .error (contract.truncated (contract.payload_of_place here) short))
    fun _ => .ok trivial

end

/-! ### Nested matrices -/

/-- A reader for nested matrices that keeps the contract. -/
def KeepsNested (nested : Cursor → Reading (Option MatArray)) : Prop :=
  ∀ payload : Cursor, contract.place payload → contract.Keeps (fun _ => True) (nested payload)

section

variable {contract} {nested : Cursor → Reading (Option MatArray)}
  (keepsNested : contract.KeepsNested nested) {cursor : Cursor} (here : contract.place cursor)

include keepsNested here

theorem keeps_slot : contract.Keeps (fun read => contract.place read.2) (cursor.slot nested) := by
  refine (contract.element here).bind fun ⟨element, rest⟩ ⟨_, inner, later⟩ => ?_
  refine .refuse (fun _ => contract.malformed (contract.payload_of_place here) _) fun matrix => ?_
  refine (keepsNested element.payload (inner ?_)).bind fun _ _ => .pure later
  exact Decidable.not_not.mp matrix

theorem keeps_slots (count : Nat) :
    contract.Keeps (fun read => contract.place read.2) (Cursor.slots nested count cursor) := by
  induction count generalizing cursor with
  | zero => exact .pure here
  | succ count inductionHypothesis =>
    refine (keeps_slot keepsNested here).bind fun ⟨first, rest⟩ later => ?_
    exact (inductionHypothesis later).bind fun _ last => .pure last

theorem keeps_cellBody (info : ArrayInfo) :
    contract.Keeps (fun read => contract.place read.2) (cursor.cellBody nested info) := by
  refine .lift (settles_checkSlots here _) fun _ _ => ?_
  exact (keeps_slots keepsNested here _).bind fun _ later => .pure later

theorem keeps_structBody (info : ArrayInfo) (className : Option String) :
    contract.Keeps (fun read => contract.place read.2)
      (cursor.structBody nested info className) := by
  refine (keeps_fieldNames here).bind fun ⟨names, rest⟩ slotsHere => ?_
  refine .lift (settles_checkSlots slotsHere _) fun _ _ => ?_
  exact (keeps_slots keepsNested slotsHere _).bind fun _ later => .pure later

theorem keeps_objectBody (info : ArrayInfo) :
    contract.Keeps (fun read => contract.place read.2) (cursor.objectBody nested info) := by
  refine (contract.element here).bind fun ⟨element, rest⟩ ⟨payload, _, later⟩ => ?_
  refine .lift (settles_name payload) fun className _ => ?_
  exact keeps_structBody keepsNested later info (some className)

theorem keeps_classBody (arrayClass : ArrayClass) (info : ArrayInfo) (capacity : Nat) :
    contract.Keeps (fun read => contract.place read.2)
      (cursor.classBody nested arrayClass info capacity) := by
  cases arrayClass with
  | numeric numericClass =>
    exact (keeps_numericBody here numericClass info).bind fun _ later => .pure later
  | char => exact (keeps_charBody here info).bind fun _ later => .pure later
  | cell => exact (keeps_cellBody keepsNested here info).bind fun _ later => .pure later
  | struct => exact (keeps_structBody keepsNested here info none).bind fun _ later => .pure later
  | object => exact (keeps_objectBody keepsNested here info).bind fun _ later => .pure later
  | sparse => exact (keeps_sparseBody here info capacity).bind fun _ later => .pure later

theorem keeps_matrixBody {head : MatrixHead}
    (blamed : ∀ reason, contract.allowed (.malformed head.offset reason)) :
    contract.Keeps (fun read => contract.place read.2) (cursor.matrixBody nested head) := by
  unfold Cursor.matrixBody
  split
  · exact .throw (contract.unsupportedClass _)
  · split
    · exact .throw (blamed _)
    · exact keeps_classBody keepsNested here _ _ _

end

variable {payload : Cursor}

/-- What follows a head is read from a place where the contract holds, and the head may be
blamed. -/
theorem keeps_headed {Value : Type} {good : Value → Prop} (here : contract.place payload)
    {rest : MatrixHead × Cursor → Reading Value}
    (later : ∀ head cursor, contract.place cursor →
      (∀ reason, contract.allowed (.malformed head.offset reason)) →
      contract.Keeps good (rest (head, cursor))) :
    contract.Keeps good (payload.matrixHead >>= rest) := by
  refine (keeps_matrixHead here).bind fun ⟨head, cursor⟩ ⟨offset, bodyHere⟩ => ?_
  refine later head cursor bodyHere fun reason => ?_
  exact offset ▸ contract.malformed (contract.payload_of_place here) reason

theorem keepsNested_nestedMatrix (depth : Nat) :
    contract.KeepsNested (Cursor.nestedMatrix depth) := by
  induction depth with
  | zero => exact fun _ _ => .pure trivial
  | succ depth inductionHypothesis =>
    intro payload here
    refine .ite (fun _ => .pure trivial) fun _ => ?_
    refine contract.keeps_headed here fun head cursor bodyHere blamed => ?_
    exact (keeps_matrixBody inductionHypothesis bodyHere blamed).bind fun _ _ => .pure trivial

/-- Reading a matrix keeps the contract where its payload is a place to read from. -/
theorem keeps_matrix (here : contract.place payload) (wanted : String → Bool) :
    contract.Keeps (fun _ => True) (payload.matrix wanted) := by
  refine .ite (fun _ => .note (contract.remark id) (.pure trivial)) fun _ => ?_
  refine contract.keeps_headed here fun head cursor bodyHere blamed => ?_
  refine .ite (fun _ => ?_) fun _ => .note (contract.remark id) (.pure trivial)
  refine (keeps_matrixBody (contract.keepsNested_nestedMatrix _) bodyHere blamed).bind
    fun _ _ => ?_
  exact .note (contract.remark id) (.pure trivial)

/-- The next matrix of an inflated stream. -/
theorem keeps_inflatedMatrix {cursor : Cursor} (here : contract.place cursor)
    (wanted : String → Bool) :
    contract.Keeps (fun read => contract.place read.2) (cursor.inflatedMatrix wanted) := by
  refine (contract.element here).bind fun ⟨element, rest⟩ ⟨_, inner, later⟩ => ?_
  refine .refuse (fun _ => contract.malformed (contract.payload_of_place here) _) fun matrix => ?_
  refine (contract.keeps_matrix (inner ?_) wanted).bind fun _ _ => .pure later
  exact Decidable.not_not.mp matrix

end Contract

end MatFormat
