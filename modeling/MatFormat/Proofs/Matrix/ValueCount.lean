/-
This file bounds what an array holds by the bytes that it was read from. Every reader pays for
what it gives: the values in it, counted at every depth, together with the bytes that it leaves,
are never more than the bytes before. A value takes at least one byte of its payload, in UTF-8
too, and an empty slot the tag that spells it; what a matrix is nested in has paid for its whole
payload, and payloads never share a byte. Nothing is paid for what is only declared, so
dimensions, numbers of fields and capacities do not matter.
-/

import MatFormat.Proofs.Cursor
import MatFormat.Proofs.Interleave
import MatFormat.Proofs.Matrix.Sound
import MatFormat.Proofs.Run
import MatFormat.Proofs.Text.Units

namespace MatFormat

/-! ### Values in arrays -/

namespace MatArray

/-- The number of values that an array holds itself. Slots and the names of fields count, also
where the slots are empty. -/
def ownCount : MatArray → Nat
  | numeric _ array => array.real.length + (array.imag.getD []).length
  | char array => array.units.length
  | cell array => array.cells.length
  | struct array => array.fields.length + (array.fields.map fun field => field.slots.length).sum
  | sparse array =>
    array.columnPointers.length + array.rowIndices.length + array.real.length +
      (array.imag.getD []).length

/-- The number of values in an array and in all arrays nested in it. -/
def valueCount (array : MatArray) : Nat :=
  array.ownCount + (array.children.attach.map fun child => child.1.valueCount).sum
termination_by sizeOf array
decreasing_by exact sizeOf_lt_of_mem_children child.2

theorem valueCount_eq (array : MatArray) :
    array.valueCount = array.ownCount + (array.children.map valueCount).sum := by
  rw [valueCount]
  simp

/-- The number of values in some slots, and of the slots themselves. -/
def slotsCount (slots : List (Option MatArray)) : Nat :=
  slots.length + ((slots.filterMap id).map valueCount).sum

theorem slotsCount_cons_none (slots : List (Option MatArray)) :
    slotsCount (none :: slots) = 1 + slotsCount slots := by
  rw [slotsCount, slotsCount, List.filterMap_cons_none rfl, List.length_cons]
  omega

theorem slotsCount_cons_some (array : MatArray) (slots : List (Option MatArray)) :
    slotsCount (some array :: slots) = 1 + array.valueCount + slotsCount slots := by
  rw [slotsCount, slotsCount, List.filterMap_cons_some (show id (some array) = some array from rfl),
    List.length_cons, List.map_cons, List.sum_cons]
  omega

/-- Slots are counted one by one. -/
theorem slotsCount_cons (slot : Option MatArray) (slots : List (Option MatArray)) :
    slotsCount (slot :: slots) = slotsCount [slot] + slotsCount slots := by
  cases slot with
  | none => rw [slotsCount_cons_none, slotsCount_cons_none]; rfl
  | some array => rw [slotsCount_cons_some, slotsCount_cons_some]; rfl

theorem slotsCount_perm {slots others : List (Option MatArray)} (perm : slots.Perm others) :
    slotsCount slots = slotsCount others := by
  rw [slotsCount, slotsCount, perm.length_eq, ((perm.filterMap id).map valueCount).sum_nat]

theorem valueCount_cell (array : CellArray MatArray) :
    (cell array).valueCount = slotsCount array.cells := by
  rw [valueCount_eq]
  rfl

theorem valueCount_struct (array : StructArray MatArray) :
    (struct array).valueCount =
      array.fields.length + slotsCount (array.fields.flatMap Field.slots) := by
  rw [valueCount_eq, ownCount, slotsCount, List.length_flatMap, Nat.add_assoc]
  rfl

theorem flatMap_slots_zipWith {names : List String} {piles : List (List (Option MatArray))}
    (even : names.length = piles.length) :
    (List.zipWith Field.mk names piles).flatMap Field.slots = piles.flatten := by
  induction names generalizing piles with
  | nil =>
    obtain rfl := List.length_eq_zero_iff.mp even.symm
    rfl
  | cons name names inductionHypothesis =>
    cases piles with
    | nil => cases even
    | cons pile piles =>
      rw [List.zipWith_cons_cons, List.flatMap_cons, List.flatten_cons,
        inductionHypothesis (Nat.succ.inj even)]

/-- Slots that were dealt out to fields are counted as before. -/
theorem slotsCount_fields {names : List String} {rounds : Nat} {slots : List (Option MatArray)}
    (whole : slots.length = rounds * names.length) :
    slotsCount ((List.zipWith Field.mk names (deal names.length rounds slots)).flatMap
      Field.slots) = slotsCount slots := by
  have even := length_deal names.length rounds slots (Nat.le_of_eq whole.symm)
  rw [flatMap_slots_zipWith even.symm]
  exact slotsCount_perm (perm_deal whole)

end MatArray

/-! ### Runs -/

namespace Element

variable {element : Element}

/-- The tag of an element tells the size of its payload. -/
def Whole (element : Element) : Prop := element.tag.size = element.payload.remaining

theorem ensures_counted {Value : Type} {values : List Value} (expected : Nat)
    (paid : values.length ≤ element.payload.remaining) :
    Ensures (fun values => values.length ≤ element.payload.remaining)
      (element.checkCount expected values.length >>= fun _ => pure values) :=
  .bind (fun _ _ => trivial) fun _ _ => .ok paid

variable (whole : element.Whole)
include whole

theorem ensures_values (wanted : NumericClass) :
    Ensures (fun values => values.length ≤ element.payload.remaining) (element.values wanted) := by
  unfold values malformed
  dsimp only
  split
  · exact .error _
  · split
    · exact .error _
    · refine .ok ?_
      rw [List.length_map, length_pieces, ← whole, Tag.count]
      exact Nat.div_le_self _ _

theorem ensures_exactly (wanted : NumericClass) (expected : Nat) :
    Ensures (fun values => values.length ≤ element.payload.remaining)
      (element.exactly wanted expected) :=
  (ensures_values whole wanted).bind fun _ => ensures_counted expected

theorem ensures_atLeast (wanted : NumericClass) (expected : Nat) :
    Ensures (fun values => values.length ≤ element.payload.remaining)
      (element.atLeast wanted expected) := by
  refine (ensures_values whole wanted).bind fun values paid => ?_
  dsimp only
  split
  · exact .error _
  · exact .ok (Nat.le_trans (List.length_take_le' _ _) paid)

theorem ensures_integers :
    Ensures (fun values => values.length ≤ element.payload.remaining) element.integers := by
  refine (ensures_values whole .int64).bind fun values paid => .ok ?_
  rw [List.length_map]
  exact paid

/-- In UTF-8 a text has at most as many code units as bytes; in any other type the numbers are
the units. -/
theorem ensures_codeUnits (expected : Nat) :
    Ensures (fun units => units.length ≤ element.payload.remaining)
      (element.codeUnits expected) := by
  unfold codeUnits malformed
  dsimp only
  split
  · cases decoded : Utf8.decode element.bytes with
    | error fault => exact .error _
    | ok text => exact ensures_counted expected (Utf8.length_encodeList_of_decode decoded)
  · exact (ensures_values whole .uint16).bind fun _ => ensures_counted expected

theorem ensures_fieldNames (length : Nat) :
    Ensures (fun names => names.length ≤ element.payload.remaining)
      (element.fieldNames length).result := by
  unfold fieldNames
  dsimp only
  rw [Reading.result_noteIf]
  refine .ok ?_
  rw [List.length_map, length_pieces, ← whole]
  exact Nat.div_le_self _ _

end Element

theorem ensures_checkIndices (offset : Nat) (values : List Int) :
    Ensures (fun indices => indices.length = values.length) (checkIndices offset values) := by
  induction values with
  | nil => exact .ok rfl
  | cons value rest inductionHypothesis =>
    cases value with
    | ofNat value =>
      exact inductionHypothesis.bind fun indices counted => .ok (congrArg Nat.succ counted)
    | negSucc value => exact .error _

/-! ### Paying for what is read -/

namespace Cursor

/-- A reader pays for what it gives: its weight and the bytes that are left are at most the bytes
before. -/
def Pays {Value : Type} (weight : Value → Nat) (cursor : Cursor)
    (reading : Reading (Value × Cursor)) : Prop :=
  Ensures (fun read => weight read.1 + read.2.remaining ≤ cursor.remaining) reading.result

namespace Pays

variable {Value Next : Type} {weight : Value → Nat} {weightNext : Next → Nat}
  {cursor before : Cursor}

theorem error (fault : Error) : Pays weight cursor (throw fault) := Ensures.error fault

theorem ok {value : Value} {rest : Cursor}
    (enough : weight value + rest.remaining ≤ cursor.remaining) :
    Pays weight cursor (pure (value, rest)) :=
  Ensures.ok enough

theorem covered {reading : Reading (Value × Cursor)} (pays : Pays weight cursor reading)
    (fits : cursor.remaining ≤ before.remaining) : Pays weight before reading :=
  fun read known => Nat.le_trans (pays read known) fits

/-- What is paid for a value is not spent on what comes after it. -/
theorem bind {reading : Reading (Value × Cursor)}
    {continuation : Value × Cursor → Reading (Next × Cursor)}
    (step : Pays weight cursor reading)
    (later : ∀ value rest, weight value + rest.remaining ≤ cursor.remaining →
      Pays weightNext before (continuation (value, rest))) :
    Pays weightNext before (reading >>= continuation) :=
  Ensures.reading step fun (value, rest) paid => later value rest paid

/-- A step that takes no bytes. -/
theorem checked {Checked : Type} {good : Checked → Prop} {check : Reading Checked}
    {continuation : Checked → Reading (Next × Cursor)} (step : Ensures good check.result)
    (later : ∀ value, good value → Pays weightNext before (continuation value)) :
    Pays weightNext before (check >>= continuation) :=
  Ensures.reading step later

theorem choice {condition : Prop} [Decidable condition] {yes no : Reading (Value × Cursor)}
    (holds : condition → Pays weight cursor yes) (fails : ¬ condition → Pays weight cursor no) :
    Pays weight cursor (if condition then yes else no) :=
  Ensures.choice holds fails

/-- Whether something is remarked first costs nothing. -/
theorem noteIf {condition : Prop} [Decidable condition] {notice : Notice}
    {next : Reading (Value × Cursor)} (paid : Pays weight cursor next) :
    Pays weight cursor
      (if condition then Reading.note notice >>= fun _ => next else next) := by
  rw [Pays, Reading.result_noteIf]
  exact paid

/-- An element is worth the bytes of its payload, and one more for its tag. -/
theorem element {continuation : Element × Cursor → Reading (Next × Cursor)}
    (later : ∀ (element : Element) (rest : Cursor), element.Whole →
      element.payload.remaining + 1 + rest.remaining ≤ cursor.remaining →
        Pays weightNext before (continuation (element, rest))) :
    Pays weightNext before (cursor.element >>= continuation) := by
  refine Ensures.reading (fun _ => payload_add_remaining_of_element)
    fun (element, rest) ⟨whole, taken⟩ => later element rest whole ?_
  dsimp only at taken
  omega

end Pays

variable (cursor : Cursor)

theorem pays_indices : Pays List.length cursor cursor.indices := by
  refine .element fun element rest whole taken => ?_
  refine .checked (Element.ensures_integers whole) fun values paid => ?_
  refine .checked (ensures_checkIndices _ values) fun indices counted => .ok ?_
  omega

theorem pays_matrixHead : Pays (fun _ => 0) cursor cursor.matrixHead := by
  refine .element fun flags afterFlags _ flagsTaken => ?_
  refine .checked (fun _ _ => trivial) fun words _ => ?_
  dsimp only
  split
  · refine (pays_indices afterFlags).bind fun dimensions afterDimensions dimensionsPaid => ?_
    dsimp only
    refine .choice (fun _ => .error _) fun _ => ?_
    refine .element fun element rest _ nameTaken => ?_
    refine .checked (fun _ _ => trivial) fun name _ => .ok ?_
    dsimp only
    omega
  · exact .error _

theorem pays_numericBody (numericClass : NumericClass) (info : ArrayInfo) :
    Pays (fun array => (MatArray.numeric numericClass array).ownCount) cursor
      (cursor.numericBody numericClass info) := by
  refine .element fun element rest whole taken => ?_
  refine .checked (Element.ensures_exactly whole numericClass _) fun real realPaid => ?_
  refine .choice (fun _ => ?_) fun _ => ?_
  · refine .element fun element rest whole imagTaken => ?_
    refine .checked (Element.ensures_exactly whole numericClass _) fun imag imagPaid => .ok ?_
    dsimp only [MatArray.ownCount, Option.getD_some]
    omega
  · refine .ok ?_
    dsimp only [MatArray.ownCount, Option.getD_none, List.length_nil]
    omega

theorem pays_charBody (info : ArrayInfo) :
    Pays (fun array => (MatArray.char array).ownCount) cursor (cursor.charBody info) := by
  refine .element fun element rest whole taken => ?_
  refine .checked (Element.ensures_codeUnits whole _) fun units paid => .ok ?_
  dsimp only [MatArray.ownCount]
  omega

theorem pays_sparseValues (count : Nat) :
    Pays List.length cursor (cursor.sparseValues count) := by
  refine .element fun element rest whole taken => ?_
  refine .checked (Element.ensures_atLeast whole .double count) fun values paid => .ok ?_
  omega

/-- Rows and values beyond the last column pointer are paid for, though none of them is kept. -/
theorem pays_sparseBody (info : ArrayInfo) (capacity : Nat) :
    Pays (fun array => (MatArray.sparse array).ownCount) cursor
      (cursor.sparseBody info capacity) := by
  refine (pays_indices cursor).bind fun rowIndices afterRows rowsPaid => ?_
  refine (pays_indices afterRows).bind fun columnPointers afterPointers pointersPaid => ?_
  have kept := List.length_take_le' (columnPointers.getLastD 0) rowIndices
  refine .choice (fun _ => .error _) fun _ => ?_
  refine .choice (fun _ => .error _) fun _ => ?_
  refine .choice (fun _ => .error _) fun _ => ?_
  dsimp only
  split
  · exact .error _
  · refine .noteIf ?_
    refine (pays_sparseValues afterPointers _).bind fun real afterReal realPaid => ?_
    refine .choice (fun _ => ?_) fun _ => ?_
    · refine (pays_sparseValues afterReal _).bind fun imag rest imagPaid => .ok ?_
      dsimp only [MatArray.ownCount, Option.getD_some]
      omega
    · refine .ok ?_
      dsimp only [MatArray.ownCount, Option.getD_none, List.length_nil]
      omega

theorem pays_fieldNames : Pays List.length cursor cursor.fieldNames := by
  refine .element fun element afterLength whole lengthTaken => ?_
  refine .checked (Element.ensures_integers whole) fun lengths _ => ?_
  dsimp only
  split
  · split
    · refine .element fun element rest whole taken => ?_
      refine .checked (Element.ensures_fieldNames whole _) fun names paid => .ok ?_
      dsimp only
      omega
    · exact .error _
  · exact .error _

/-! ### Nested matrices -/

/-- A reader of nested matrices that gives no more values than there are bytes. -/
def GivesPaid (nested : Cursor → Reading (Option MatArray)) : Prop :=
  ∀ (payload : Cursor) (array : MatArray), (nested payload).result = .ok (some array) →
    array.valueCount ≤ payload.remaining

variable {nested : Cursor → Reading (Option MatArray)} (paidNested : GivesPaid nested)
include paidNested

theorem pays_slot :
    Pays (fun slot => MatArray.slotsCount [slot]) cursor (cursor.slot nested) := by
  refine .element fun element rest _ taken => ?_
  refine .choice (fun _ => .error _) fun _ => ?_
  have held : Ensures (fun slot => MatArray.slotsCount [slot] ≤ element.payload.remaining + 1)
      (nested element.payload).result := by
    intro slot read
    cases slot with
    | none => exact Nat.le_add_left 1 _
    | some array =>
      have count := paidNested element.payload array read
      rw [MatArray.slotsCount_cons_some]
      change 1 + array.valueCount + 0 ≤ _
      omega
  refine .checked held fun slot paid => .ok ?_
  omega

theorem pays_slots (count : Nat) :
    Pays MatArray.slotsCount cursor (slots nested count cursor) := by
  induction count generalizing cursor with
  | zero => exact .ok (Nat.le_of_eq (Nat.zero_add _))
  | succ count inductionHypothesis =>
    refine (pays_slot cursor paidNested).bind fun first afterFirst firstPaid => ?_
    refine (inductionHypothesis afterFirst).bind fun others rest othersPaid => .ok ?_
    rw [MatArray.slotsCount_cons]
    omega

theorem pays_cellBody (info : ArrayInfo) :
    Pays (fun array => (MatArray.cell array).valueCount) cursor
      (cursor.cellBody nested info) := by
  refine .checked (fun _ _ => trivial) fun _ _ => ?_
  refine (pays_slots cursor paidNested _).bind fun cells rest paid => .ok ?_
  rw [MatArray.valueCount_cell]
  exact paid

theorem pays_structBody (info : ArrayInfo) (className : Option String) :
    Pays (fun array => (MatArray.struct array).valueCount) cursor
      (cursor.structBody nested info className) := by
  refine (pays_fieldNames cursor).bind fun names afterNames namesPaid => ?_
  refine .checked (fun _ _ => trivial) fun _ _ => ?_
  have slots : Ensures (fun read => read.1.length = slotRounds info names * names.length ∧
      MatArray.slotsCount read.1 + read.2.remaining ≤ afterNames.remaining)
      (slots nested (slotRounds info names * names.length) afterNames).result :=
    fun read known => ⟨(of_slots (fun _ _ _ => trivial : Gives nested fun _ => True) known).1,
      pays_slots afterNames paidNested _ read known⟩
  refine Ensures.reading slots fun (held, rest) ⟨length, paid⟩ => Ensures.ok ?_
  dsimp only at length paid ⊢
  rw [MatArray.valueCount_struct, MatArray.slotsCount_fields length, List.length_zipWith]
  have fields := Nat.min_le_left names.length
    (deal names.length (slotRounds info names) held).length
  omega

theorem pays_objectBody (info : ArrayInfo) :
    Pays (fun array => (MatArray.struct array).valueCount) cursor
      (cursor.objectBody nested info) := by
  refine .element fun element rest _ taken => ?_
  refine .checked (fun _ _ => trivial) fun className _ => ?_
  exact (pays_structBody rest paidNested info (some className)).covered (by omega)

/-- Whatever the class, an array is paid for if the arrays nested in it are. -/
theorem pays_classBody (arrayClass : ArrayClass) (info : ArrayInfo) (capacity : Nat) :
    Pays MatArray.valueCount cursor (cursor.classBody nested arrayClass info capacity) := by
  cases arrayClass with
  | numeric numericClass =>
    refine (pays_numericBody cursor numericClass info).bind fun array rest paid => .ok ?_
    rw [MatArray.valueCount_eq]
    exact paid
  | char =>
    refine (pays_charBody cursor info).bind fun array rest paid => .ok ?_
    rw [MatArray.valueCount_eq]
    exact paid
  | sparse =>
    refine (pays_sparseBody cursor info capacity).bind fun array rest paid => .ok ?_
    rw [MatArray.valueCount_eq]
    exact paid
  | cell => exact (pays_cellBody cursor paidNested info).bind fun array rest paid => .ok paid
  | struct =>
    exact (pays_structBody cursor paidNested info none).bind fun array rest paid => .ok paid
  | object => exact (pays_objectBody cursor paidNested info).bind fun array rest paid => .ok paid

theorem pays_matrixBody (head : MatrixHead) :
    Pays MatArray.valueCount cursor (cursor.matrixBody nested head) := by
  unfold matrixBody
  split
  · exact .error _
  · split
    · exact .error _
    · exact pays_classBody cursor paidNested _ _ _

omit paidNested in
/-- However deep it may go, the reader of nested matrices gives no more values than there are
bytes. -/
theorem givesPaid_nestedMatrix (depth : Nat) : GivesPaid (nestedMatrix depth) := by
  induction depth with
  | zero =>
    intro payload array read
    cases read
  | succ depth inductionHypothesis =>
    intro payload array read
    unfold nestedMatrix at read
    split at read
    · cases read
    · obtain ⟨⟨head, afterHead⟩, headRead, read⟩ := Reading.result_bind_eq_ok.mp read
      obtain ⟨⟨found, afterBody⟩, bodyRead, read⟩ := Reading.result_bind_eq_ok.mp read
      obtain ⟨_, rfl⟩ := MatArray.mem_toSlot.mp (Except.ok.inj read)
      have headPaid := pays_matrixHead payload _ headRead
      have bodyPaid := pays_matrixBody afterHead inductionHypothesis head _ bodyRead
      dsimp only at headPaid bodyPaid
      omega

end Cursor

/-- An array that was read has no more values, counted in everything that is nested in it, than
there were bytes in its payload, whatever the payload declares. -/
theorem valueCount_le_payload {payload : Cursor} {wanted : String → Bool} {array : MatArray}
    (read : (payload.matrix wanted).result = .ok (some array)) :
    array.valueCount ≤ payload.remaining := by
  unfold Cursor.matrix at read
  split at read
  · obtain ⟨_, _, read⟩ := Reading.result_bind_eq_ok.mp read
    cases read
  · obtain ⟨⟨head, afterHead⟩, headRead, read⟩ := Reading.result_bind_eq_ok.mp read
    dsimp only at read
    split at read
    · obtain ⟨⟨found, afterBody⟩, bodyRead, read⟩ := Reading.result_bind_eq_ok.mp read
      obtain ⟨_, _, read⟩ := Reading.result_bind_eq_ok.mp read
      cases read
      have headPaid := payload.pays_matrixHead _ headRead
      have bodyPaid := afterHead.pays_matrixBody (Cursor.givesPaid_nestedMatrix _) head _ bodyRead
      dsimp only at headPaid bodyPaid ⊢
      omega
    · obtain ⟨_, _, read⟩ := Reading.result_bind_eq_ok.mp read
      cases read

/-- A row of three cells of which only the tags are there. -/
def emptyCells : Cursor :=
  .ofBytes [6, 0, 0, 0, 8, 0, 0, 0, 1, 0, 0, 0, 0, 0, 0, 0,
    5, 0, 0, 0, 8, 0, 0, 0, 1, 0, 0, 0, 3, 0, 0, 0, 1, 0, 1, 0, 99, 0, 0, 0,
    14, 0, 0, 0, 0, 0, 0, 0, 14, 0, 0, 0, 0, 0, 0, 0, 14, 0, 0, 0, 0, 0, 0, 0] .little

theorem valueCount_le_payload_emptyCells :
    ∃ array : MatArray, (emptyCells.matrix fun _ => true).result = .ok (some array) ∧
      array.valueCount = 3 ∧ array.valueCount ≤ emptyCells.remaining := by
  obtain ⟨array, read, count⟩ : ∃ array : MatArray,
      (emptyCells.matrix fun _ => true).result = .ok (some array) ∧ array.valueCount = 3 := by
    refine ⟨_, rfl, ?_⟩
    rw [MatArray.valueCount_eq]
    rfl
  exact ⟨array, read, count, valueCount_le_payload read⟩

end MatFormat
