/-
This file says exactly which arrays the writer refuses. The format counts dimensions and indices
with 31 bits, room and sizes with 32, and the bytes of a field name up to 63. Every part of the
writer has bytes exactly where its numbers stay below these limits, and then as many as its
sizes ask for, whatever the byte order. So an array is refused exactly where something in it, at
some depth, does not fit, and the two orders agree on that and on the length.
-/

import Mathlib.Algebra.Ring.Nat
import MatFormat.Proofs.Layout.Matrix
import MatFormat.Proofs.Matrix.Refusal

namespace MatFormat

/-! ### Sizes -/

/-- The bytes of an element that is not packed. -/
def normalSize (payload : Nat) : Nat := tagSize + payload + paddingTo8 payload

/-- The bytes of an element with a run of numbers or a name. -/
def runSize (payload : Nat) : Nat :=
  if 1 ≤ payload ∧ payload ≤ packedLimit then tagSize else normalSize payload

/-- The sizes of a run of values and of a second one, if there is one. -/
def partSizes {Value : Type} (width : Nat) (real : List Value) (imag : Option (List Value)) :
    List Nat :=
  width * real.length :: imag.toList.map fun values => width * values.length

namespace MatArray

/-- The sizes of the runs in the head of a matrix: the flags, the dimensions and the name. -/
def headSizes (array : MatArray) : List Nat :=
  [8, 4 * array.dimensions.length, nameLength array.name]

/-- The sizes of the runs after the head of a matrix. -/
def bodySizes : MatArray → List Nat
  | numeric numericClass array => partSizes numericClass.size array.real array.imag
  | char array => [2 * array.units.length]
  | cell _ => []
  | struct array =>
    array.className.toList.map nameLength ++
      [4, (longestName array.fieldNames + 1) * array.fieldNames.length]
  | sparse array =>
    4 * array.rowIndices.length :: 4 * array.columnPointers.length ::
      partSizes 8 array.real array.imag

/-- The sizes of all runs of numbers and names that an array is written in itself. -/
def runSizes (array : MatArray) : List Nat := array.headSizes ++ array.bodySizes

/-- The size of the payload of the array that an unset slot is written as. -/
def unsetSize : Nat := ((numeric .double unsetArray).runSizes.map runSize).sum

/-- The size of the payload of a matrix. -/
def payloadSize (array : MatArray) : Nat :=
  (array.runSizes.map runSize).sum +
    (array.slots.attach.map fun slot =>
      normalSize ((slot.1.attach.map fun child => child.1.payloadSize).getD unsetSize)).sum
termination_by sizeOf array
decreasing_by
  apply sizeOf_lt_of_mem_children
  rw [mem_children, ← Option.mem_def.mp child.2]
  exact slot.2

theorem payloadSize_eq_of_slots (array : MatArray) :
    array.payloadSize = (array.runSizes.map runSize).sum +
      (array.slots.map fun slot => normalSize ((slot.map payloadSize).getD unsetSize)).sum := by
  rw [payloadSize]
  simp

theorem payloadSize_unsetArray : (numeric .double unsetArray).payloadSize = unsetSize := by
  rw [payloadSize_eq_of_slots]
  rfl

/-- The payload of a matrix is made of its runs and of one matrix for each of its slots. -/
theorem payloadSize_eq (array : MatArray) :
    array.payloadSize = (array.runSizes.map runSize).sum +
      (array.slots.map fun slot => normalSize (slotArray slot).payloadSize).sum := by
  have slot (slot : Option MatArray) :
      normalSize ((slot.map payloadSize).getD unsetSize) =
        normalSize (slotArray slot).payloadSize := by
    cases slot with
    | none => rw [slotArray, payloadSize_unsetArray]; rfl
    | some child => rfl
  rw [payloadSize_eq_of_slots]
  simp only [slot]

/-! ### What does not fit -/

/-- Something of an array itself does not fit into the format, whatever its slots hold. -/
inductive Oversized (array : MatArray) : Prop where
  | dimension {dimension : Nat} (member : dimension ∈ array.dimensions)
      (wide : indexLimit ≤ dimension)
  | index {index : Nat} (member : index ∈ array.entryIndices) (wide : indexLimit ≤ index)
  | capacity (wide : wordLimit ≤ array.writtenCapacity)
  | fieldName {name : String} (member : name ∈ array.fieldNames)
      (long : fieldNameLimit < nameLength name)
  | run {size : Nat} (member : size ∈ array.runSizes) (long : wordLimit ≤ size)
  | payload (long : wordLimit ≤ array.payloadSize)

/-- The head of an array fits into the format. -/
structure HeadFits (array : MatArray) : Prop where
  capacity : array.writtenCapacity < wordLimit
  dimensions : ∀ dimension ∈ array.dimensions, dimension < indexLimit
  runs : ∀ size ∈ array.headSizes, size < wordLimit

/-- What follows the head of an array fits into the format, but for its slots. -/
structure BodyFits (array : MatArray) : Prop where
  indices : ∀ index ∈ array.entryIndices, index < indexLimit
  fieldNames : ∀ name ∈ array.fieldNames, nameLength name ≤ fieldNameLimit
  runs : ∀ size ∈ array.bodySizes, size < wordLimit

theorem not_oversized_iff (array : MatArray) :
    ¬ array.Oversized ↔
      array.HeadFits ∧ array.BodyFits ∧ array.payloadSize < wordLimit := by
  constructor
  · intro fits
    have run (size : Nat) (member : size ∈ array.runSizes) : size < wordLimit :=
      Nat.lt_of_not_le fun long => fits (.run member long)
    refine ⟨⟨?_, ?_, ?_⟩, ⟨?_, ?_, ?_⟩, ?_⟩
    · exact Nat.lt_of_not_le fun wide => fits (.capacity wide)
    · exact fun dimension member => Nat.lt_of_not_le fun wide => fits (.dimension member wide)
    · exact fun size member => run size (List.mem_append_left _ member)
    · exact fun index member => Nat.lt_of_not_le fun wide => fits (.index member wide)
    · exact fun name member => Nat.le_of_not_lt fun long => fits (.fieldName member long)
    · exact fun size member => run size (List.mem_append_right _ member)
    · exact Nat.lt_of_not_le fun long => fits (.payload long)
  · rintro ⟨head, body, payload⟩ oversized
    cases oversized with
    | dimension member wide => exact absurd (head.dimensions _ member) (Nat.not_lt.mpr wide)
    | index member wide => exact absurd (body.indices _ member) (Nat.not_lt.mpr wide)
    | capacity wide => exact absurd head.capacity (Nat.not_lt.mpr wide)
    | fieldName member long => exact absurd (body.fieldNames _ member) (Nat.not_le.mpr long)
    | run member long =>
      rcases List.mem_append.mp member with inHead | inBody
      · exact absurd (head.runs _ inHead) (Nat.not_lt.mpr long)
      · exact absurd (body.runs _ inBody) (Nat.not_lt.mpr long)
    | payload long => exact absurd payload (Nat.not_lt.mpr long)

/-- Every field of a struct array has one slot for each of its elements. -/
def Filled : MatArray → Prop
  | struct array => ∀ field ∈ array.fields, field.slots.length = array.info.shape.count
  | _ => True

theorem Shaped.filled {array : MatArray} (shaped : array.Shaped) : array.Filled := by
  cases array with
  | struct => exact shaped
  | _ => trivial

end MatArray

/-! ### Outcomes of a known size -/

/-- An outcome has bytes where a condition holds, as many as a size says, and fails where the
condition does not hold. -/
structure Sized (outcome : Except Error (List UInt8)) (fits : Prop) (size : Nat) : Prop where
  written : fits → ∃ bytes, outcome = .ok bytes ∧ bytes.length = size
  refused : ¬ fits → ∃ fault, outcome = .error fault

namespace Sized

variable {outcome : Except Error (List UInt8)} {fits others : Prop} {size total : Nat}

theorem ok (bytes : List UInt8) : Sized (.ok bytes) True bytes.length :=
  ⟨fun _ => ⟨bytes, rfl, rfl⟩, fun fails => absurd trivial fails⟩

theorem error (fault : Error) (size : Nat) : Sized (.error fault) False size :=
  ⟨False.elim, fun _ => ⟨fault, rfl⟩⟩

theorem congr (sized : Sized outcome fits size) (conditions : fits ↔ others)
    (sizes : size = total) : Sized outcome others total :=
  ⟨fun holds => sizes ▸ sized.written (conditions.mpr holds),
    fun fails => sized.refused fun holds => fails (conditions.mp holds)⟩

theorem bind {continuation : List UInt8 → Except Error (List UInt8)}
    (first : Sized outcome fits size)
    (rest : ∀ bytes, bytes.length = size → Sized (continuation bytes) others total) :
    Sized (outcome >>= continuation) (fits ∧ others) total := by
  by_cases holds : fits
  · obtain ⟨bytes, known, length⟩ := first.written holds
    rw [Outcome.bind_of_ok known]
    exact (rest bytes length).congr (and_iff_right holds).symm rfl
  · obtain ⟨fault, known⟩ := first.refused holds
    rw [known]
    exact (Sized.error fault total).congr (iff_of_false id fun both => holds both.1) rfl

/-- Two outcomes one after the other. -/
theorem append {second : Except Error (List UInt8)} (first : Sized outcome fits size)
    (rest : Sized second others total) :
    Sized (outcome >>= fun front => second >>= fun back => .ok (front ++ back))
      (fits ∧ others) (size + total) := by
  refine first.bind fun front frontLength => ?_
  refine (rest.bind fun back backLength => ?_).congr (and_iff_left trivial) rfl
  rw [← frontLength, ← backLength, ← List.length_append]
  exact .ok _

/-- Three outcomes one after the other. -/
theorem append_three {second third : Except Error (List UInt8)} {lastFits : Prop}
    {lastSize : Nat} (first : Sized outcome fits size) (middle : Sized second others total)
    (rest : Sized third lastFits lastSize) :
    Sized (outcome >>= fun front => second >>= fun between => third >>= fun back =>
      .ok (front ++ between ++ back)) (fits ∧ others ∧ lastFits) (size + total + lastSize) := by
  refine first.bind fun front frontLength => middle.bind fun between betweenLength => ?_
  refine (rest.bind fun back backLength => ?_).congr (and_iff_left trivial) rfl
  rw [← frontLength, ← betweenLength, ← backLength, ← List.length_append, ← List.length_append]
  exact .ok _

theorem isOk_iff (sized : Sized outcome fits size) : outcome.isOk = true ↔ fits := by
  by_cases holds : fits
  · obtain ⟨bytes, known, _⟩ := sized.written holds
    rw [known]
    exact iff_of_true rfl holds
  · obtain ⟨fault, known⟩ := sized.refused holds
    rw [known]
    exact iff_of_false Bool.false_ne_true holds

theorem error_iff (sized : Sized outcome fits size) :
    (∃ fault, outcome = .error fault) ↔ ¬ fits := by
  constructor
  · rintro ⟨fault, failed⟩ holds
    obtain ⟨bytes, known, _⟩ := sized.written holds
    rw [failed] at known
    cases known
  · exact sized.refused

theorem length_eq (sized : Sized outcome fits size) {bytes : List UInt8}
    (written : outcome = .ok bytes) : bytes.length = size := by
  have holds : fits := sized.isOk_iff.mp (by rw [written]; rfl)
  obtain ⟨other, known, length⟩ := sized.written holds
  rw [← Except.ok.inj (written.symm.trans known)] at length
  exact length

end Sized

/-- Parts one after the other have bytes exactly where each of them has. -/
theorem sized_joinParts {Item : Type} {write : Item → Except Error (List UInt8)}
    {fits : Item → Prop} {size : Item → Nat} {items : List Item}
    (each : ∀ item ∈ items, Sized (write item) (fits item) (size item)) :
    Sized (joinParts (items.map write)) (∀ item ∈ items, fits item) (items.map size).sum := by
  induction items with
  | nil => exact (Sized.ok []).congr (iff_of_true trivial nofun) rfl
  | cons item rest inductionHypothesis =>
    have later := inductionHypothesis fun other member => each other (List.mem_cons_of_mem _ member)
    rw [List.map_cons, joinParts]
    exact ((each item List.mem_cons_self).append later).congr List.forall_mem_cons.symm
      List.sum_cons.symm

variable (order : ByteOrder)

/-! ### Elements -/

theorem sized_encodeTag (type : DataType) (size : Nat) :
    Sized (encodeTag order type size) (size < wordLimit) tagSize := by
  by_cases fits : size < wordLimit
  · rw [encodeTag_of_lt order type fits]
    exact (Sized.ok _).congr (iff_of_true trivial fits) (length_tagBytes type size)
  · rw [encodeTag, if_neg fits]
    exact (Sized.error _ _).congr (iff_of_false id fits) rfl

theorem sized_encodeMatrixElement (payload : List UInt8) :
    Sized (encodeMatrixElement order payload) (payload.length < wordLimit)
      (normalSize payload.length) := by
  refine ((sized_encodeTag order .matrix payload.length).bind fun tag length => ?_).congr
    (and_iff_left trivial) rfl
  refine (Sized.ok _).congr Iff.rfl ?_
  rw [List.length_append, List.length_append, List.length_replicate, length, normalSize]

theorem sized_encodeElement (type : DataType) (primitive : type.isPrimitive = true)
    (payload : List UInt8) :
    Sized (encodeElement order type payload) (payload.length < wordLimit)
      (runSize payload.length) := by
  by_cases packs : 1 ≤ payload.length ∧ payload.length ≤ packedLimit
  · have short : payload.length < wordLimit := Nat.lt_of_le_of_lt packs.2 (by decide)
    rw [encodeElement, if_pos ⟨packs.1, packs.2, primitive⟩, runSize, if_pos packs]
    refine (Sized.ok _).congr (iff_of_true trivial short) ?_
    have limits : packedLimit = 4 ∧ tagSize = 8 := ⟨rfl, rfl⟩
    simp only [List.length_append, List.length_replicate, order.length_encode]
    omega
  · rw [encodeElement, if_neg fun all => packs ⟨all.1, all.2.1⟩, runSize, if_neg packs]
    refine ((sized_encodeTag order type payload.length).bind fun tag length => ?_).congr
      (and_iff_left trivial) rfl
    refine (Sized.ok _).congr Iff.rfl ?_
    rw [List.length_append, List.length_append, List.length_replicate, length, normalSize]

theorem sized_encodeValues (numericClass : NumericClass) (values : List numericClass.Value) :
    Sized (encodeValues order numericClass values) (numericClass.size * values.length < wordLimit)
      (runSize (numericClass.size * values.length)) := by
  have primitive : numericClass.dataType.isPrimitive = true := by
    rw [DataType.isPrimitive_iff_storedClass?, numericClass.storedClass?_dataType]
    rfl
  have length : (values.flatMap (numericClass.write order)).length =
      numericClass.size * values.length := by
    rw [length_flatMap_of_width numericClass.size values _ fun value _ =>
      numericClass.length_write order value, Nat.mul_comm]
  rw [← length]
  exact sized_encodeElement order _ primitive _

theorem sized_encodeName (name : String) :
    Sized (encodeName order name) (nameLength name < wordLimit) (runSize (nameLength name)) :=
  sized_encodeElement order .int8 rfl _

theorem sized_encodeIndices (name : String) (indices : List Nat) :
    Sized (encodeIndices order name indices)
      ((∀ index ∈ indices, index < indexLimit) ∧ 4 * indices.length < wordLimit)
      (runSize (4 * indices.length)) := by
  unfold encodeIndices
  cases found : indices.find? fun index => decide (indexLimit ≤ index) with
  | some index =>
    have wide : ¬ ∀ index ∈ indices, index < indexLimit := by
      rw [← find?_reaching_eq_none_iff, found]
      exact Option.some_ne_none index
    exact (Sized.error _ _).congr (iff_of_false id fun both => wide both.1) rfl
  | none =>
    have narrow := find?_reaching_eq_none_iff.mp found
    have values := sized_encodeValues order .int32 (indices.map fun index => BitVec.ofNat _ index)
    rw [List.length_map] at values
    exact values.congr (and_iff_right narrow).symm rfl

/-! ### Parts of a payload -/

theorem sized_encodeParts (numericClass : NumericClass) (real : List numericClass.Value)
    (imag : Option (List numericClass.Value)) :
    Sized (encodeParts order numericClass real imag)
      (∀ size ∈ partSizes numericClass.size real imag, size < wordLimit)
      ((partSizes numericClass.size real imag).map runSize).sum := by
  have realSized := sized_encodeValues order numericClass real
  cases imag with
  | none =>
    refine (realSized.bind fun bytes length => (Sized.ok bytes).congr Iff.rfl length).congr ?_ ?_
    · simp [partSizes]
    · simp [partSizes]
  | some imag =>
    refine (realSized.append (sized_encodeValues order numericClass imag)).congr ?_ ?_
    · simp [partSizes]
    · simp [partSizes]

theorem sized_encodeSparse (array : SparseArray) :
    Sized (encodeSparse order array) (MatArray.sparse array).BodyFits
      ((MatArray.sparse array).bodySizes.map runSize).sum := by
  have parts : Sized (encodeSparse order array) _ _ :=
    (sized_encodeIndices order array.info.name array.rowIndices).append_three
      (sized_encodeIndices order array.info.name array.columnPointers)
      (sized_encodeParts order .double array.real array.imag)
  refine parts.congr ?_ ?_
  · constructor
    · rintro ⟨⟨rows, rowRun⟩, ⟨pointers, pointerRun⟩, values⟩
      refine ⟨fun index member => ?_, nofun, ?_⟩
      · rcases List.mem_append.mp member with row | pointer
        · exact rows index row
        · exact pointers index pointer
      · simpa [MatArray.bodySizes] using ⟨rowRun, pointerRun, values⟩
    · rintro ⟨indices, _, runs⟩
      simp only [MatArray.bodySizes, List.forall_mem_cons] at runs
      exact ⟨⟨fun index member => indices index (List.mem_append_left _ member), runs.1⟩,
        ⟨fun index member => indices index (List.mem_append_right _ member), runs.2.1⟩, runs.2.2⟩
  · simp [MatArray.bodySizes, Nat.add_assoc]
    rfl

theorem sized_encodeHead (array : MatArray) :
    Sized (encodeHead order array) array.HeadFits (array.headSizes.map runSize).sum := by
  by_cases capacity : wordLimit ≤ array.writtenCapacity
  · have refused : encodeHead order array = .error (.invalidArray array.name .wideCapacity) := by
      unfold encodeHead
      dsimp only
      rw [if_pos capacity]
      rfl
    rw [refused]
    refine (Sized.error _ _).congr (iff_of_false id fun fits => ?_) rfl
    exact absurd fits.capacity (Nat.not_lt.mpr capacity)
  · have flags := sized_encodeElement order .uint32 rfl
      (order.encode 4 (array.arrayClass.code + array.writtenFlags.word) ++
        order.encode 4 array.writtenCapacity)
    rw [List.length_append, order.length_encode, order.length_encode] at flags
    have parts := flags.append_three (sized_encodeIndices order array.name array.dimensions)
      (sized_encodeName order array.name)
    have written : encodeHead order array = _ := if_neg capacity
    rw [written]
    refine parts.congr ?_ ?_
    · constructor
      · rintro ⟨flagRun, ⟨dimensions, dimensionRun⟩, nameRun⟩
        refine ⟨Nat.lt_of_not_le capacity, dimensions, ?_⟩
        simpa [MatArray.headSizes] using ⟨flagRun, dimensionRun, nameRun⟩
      · rintro ⟨_, dimensions, runs⟩
        simp only [MatArray.headSizes, List.forall_mem_cons] at runs
        exact ⟨runs.1, ⟨dimensions, runs.2.1⟩, runs.2.2.1⟩
    · simp [MatArray.headSizes, Nat.add_assoc]

theorem sized_writeClassName (className : Option String) :
    Sized (writeClassName order className)
      (∀ size ∈ className.toList.map nameLength, size < wordLimit)
      ((className.toList.map nameLength).map runSize).sum := by
  cases className with
  | none => exact (Sized.ok []).congr (iff_of_true trivial nofun) rfl
  | some className => exact (sized_encodeName order className).congr (by simp) (by simp)

theorem sized_writeFieldNames (fieldNames : List String) :
    Sized (writeFieldNames order fieldNames)
      ((longestName fieldNames + 1) * fieldNames.length < wordLimit)
      (runSize 4 + runSize ((longestName fieldNames + 1) * fieldNames.length)) := by
  have length : (fieldNames.flatMap (paddedName (longestName fieldNames + 1))).length =
      (longestName fieldNames + 1) * fieldNames.length := by
    rw [length_flatMap_of_width (longestName fieldNames + 1) fieldNames _ fun name member =>
      length_paddedName (Nat.le_succ_of_le (nameLength_le_longestName member)), Nat.mul_comm]
  have lengths := sized_encodeValues order .int32 [BitVec.ofNat _ (longestName fieldNames + 1)]
  have names := sized_encodeElement order .int8 rfl
    (fieldNames.flatMap (paddedName (longestName fieldNames + 1)))
  rw [length] at names
  have single : NumericClass.int32.size * 1 < wordLimit := by decide
  exact (lengths.append names).congr (and_iff_right single) rfl

theorem sized_encodeFieldNames (name : String) (className : Option String)
    (fieldNames : List String) :
    Sized (encodeFieldNames order name className fieldNames)
      ((∀ size ∈ className.toList.map nameLength, size < wordLimit) ∧
        (∀ fieldName ∈ fieldNames, nameLength fieldName ≤ fieldNameLimit) ∧
        (longestName fieldNames + 1) * fieldNames.length < wordLimit)
      (((className.toList.map nameLength).map runSize).sum +
        (runSize 4 + runSize ((longestName fieldNames + 1) * fieldNames.length))) := by
  rw [encodeFieldNames_eq]
  refine (sized_writeClassName order className).bind fun classPart classLength => ?_
  cases found : fieldNames.find? fun fieldName =>
    decide (fieldNameLimit < nameLength fieldName) with
  | some fieldName =>
    have long := List.find?_some found
    rw [decide_eq_true_eq] at long
    refine (Sized.error _ _).congr (iff_of_false id fun fits => ?_) rfl
    exact absurd (fits.1 fieldName (List.mem_of_find?_eq_some found)) (Nat.not_le.mpr long)
  | none =>
    have short : ∀ fieldName ∈ fieldNames, nameLength fieldName ≤ fieldNameLimit := by
      simpa using found
    refine ((sized_writeFieldNames order fieldNames).bind fun fieldPart fieldLength => ?_).congr
      ((and_iff_left trivial).trans (and_iff_right short).symm) rfl
    refine (Sized.ok _).congr Iff.rfl ?_
    rw [List.length_append, classLength, fieldLength]

/-! ### Whole arrays -/

namespace MatArray

theorem everywhere_iff {property : MatArray → Prop} {array : MatArray} :
    array.Everywhere property ↔
      property array ∧ ∀ child ∈ array.children, child.Everywhere property :=
  ⟨fun everywhere => ⟨everywhere.here, fun _ member => everywhere.child member⟩,
    fun both => .intro array both.1 both.2⟩

/-- What a slot holds fits into the format at every depth. -/
def SlotFits (slot : Option MatArray) : Prop :=
  ∀ child ∈ slot, child.Everywhere fun node => ¬ node.Oversized

theorem forall_slotFits_iff (array : MatArray) :
    (∀ slot ∈ array.slots, SlotFits slot) ↔
      ∀ child ∈ array.children, child.Everywhere fun node => ¬ node.Oversized := by
  constructor
  · intro slots child member
    exact slots (some child) ((mem_children array child).mp member) child rfl
  · intro children slot member child held
    rw [Option.mem_def.mp held] at member
    exact children child ((mem_children array child).mpr member)

/-- The size of the matrix in a slot. -/
def slotSize (slot : Option MatArray) : Nat := normalSize (slotArray slot).payloadSize

/-- What follows the head of an array is written exactly where it fits, if that is so of what
is in its slots. -/
theorem sized_encodeBody {array : MatArray} (filled : array.Filled)
    (held : ∀ slot ∈ array.slots,
      Sized (encodeSlot order slot) (SlotFits slot) (slotSize slot)) :
    Sized (array.encodeBody order) (array.BodyFits ∧ ∀ slot ∈ array.slots, SlotFits slot)
      ((array.bodySizes.map runSize).sum + (array.slots.map slotSize).sum) := by
  cases array with
  | numeric numericClass array =>
    refine (sized_encodeParts order numericClass array.real array.imag).congr ?_ rfl
    exact ⟨fun runs => ⟨⟨nofun, nofun, runs⟩, nofun⟩, fun fits => fits.1.runs⟩
  | char array =>
    refine (sized_encodeValues order .uint16 array.units).congr ?_ rfl
    exact ⟨fun run => ⟨⟨nofun, nofun, List.forall_mem_singleton.mpr run⟩, nofun⟩,
      fun fits => fits.1.runs _ List.mem_cons_self⟩
  | sparse array =>
    exact (sized_encodeSparse order array).congr (and_iff_left nofun).symm rfl
  | cell array =>
    refine (sized_joinParts held).congr (and_iff_right ⟨nofun, nofun, nofun⟩).symm ?_
    exact (Nat.zero_add _).symm
  | struct array =>
    have inside : ∀ slot ∈ slotsByElement array,
        Sized (encodeSlot order slot) (SlotFits slot) (slotSize slot) :=
      fun slot member => held slot (mem_slots_of_mem_slotsByElement member)
    have total : ((slotsByElement array).map slotSize).sum =
        ((struct array).slots.map slotSize).sum := by
      have listed : (struct array).slots = (array.fields.map Field.slots).flatten := by
        rw [slots, List.flatMap_def]
      rw [listed]
      exact ((perm_interleave (length_slots_eq_rounds filled)).map slotSize).sum_nat
    refine ((sized_encodeFieldNames order array.info.name array.className
      array.fieldNames).append (sized_joinParts inside)).congr ?_ ?_
    · constructor
      · rintro ⟨⟨className, fieldNames, table⟩, slots⟩
        refine ⟨⟨nofun, fieldNames, fun size member => ?_⟩, fun slot member => slots slot
          (mem_slotsByElement filled member)⟩
        rcases List.mem_append.mp member with named | listed
        · exact className size named
        · rcases List.mem_cons.mp listed with rfl | last
          · decide
          · exact List.mem_singleton.mp last ▸ table
      · rintro ⟨⟨_, fieldNames, runs⟩, slots⟩
        rw [bodySizes, List.forall_mem_append, List.forall_mem_cons,
          List.forall_mem_singleton] at runs
        exact ⟨⟨runs.1, fieldNames, runs.2.2⟩, fun slot member =>
          slots slot (mem_slots_of_mem_slotsByElement member)⟩
    · rw [total, bodySizes, List.map_append, List.sum_append]
      simp

/-- An array is written exactly where it fits, its payload apart, if that is so of what is in
its slots. -/
theorem sized_encode_of_slots (array : MatArray) (filled : array.Filled)
    (held : ∀ slot ∈ array.slots,
      Sized (encodeSlot order slot) (SlotFits slot) (slotSize slot)) :
    Sized (array.encode order)
      (array.HeadFits ∧ array.BodyFits ∧ ∀ slot ∈ array.slots, SlotFits slot)
      array.payloadSize := by
  rw [encode_eq]
  refine ((sized_encodeHead order array).append (sized_encodeBody order filled held)).congr
    Iff.rfl ?_
  rw [payloadSize_eq, runSizes, List.map_append, List.sum_append, Nat.add_assoc]
  rfl

theorem headFits_unsetArray : (numeric .double unsetArray).HeadFits :=
  ⟨by decide, by decide, by decide⟩

theorem bodyFits_unsetArray : (numeric .double unsetArray).BodyFits :=
  ⟨nofun, nofun, by decide⟩

/-- A matrix is written exactly where its payload can be and is short enough. -/
theorem sized_encodeSlot (slot : Option MatArray) {fits : Prop}
    (payload : Sized ((slotArray slot).encode order) fits (slotArray slot).payloadSize) :
    Sized (encodeSlot order slot) (fits ∧ (slotArray slot).payloadSize < wordLimit)
      (slotSize slot) := by
  rw [encodeSlot_eq]
  refine payload.bind fun bytes length => ?_
  rw [← encodeMatrixElement_eq, slotSize, ← length]
  exact sized_encodeMatrixElement order bytes

theorem slotFits_none : SlotFits none := fun _ held => absurd held (Option.not_mem_none _)

/-- What an unset slot is written as always fits. -/
theorem sized_encodeSlot_none : Sized (encodeSlot order none) (SlotFits none) (slotSize none) := by
  have held : ∀ slot ∈ (numeric .double unsetArray).slots,
      Sized (encodeSlot order slot) (SlotFits slot) (slotSize slot) := List.forall_mem_nil _
  have payload := sized_encode_of_slots order (.numeric .double unsetArray) trivial held
  have short : (slotArray none).payloadSize < wordLimit := by
    rw [slotArray, payloadSize_unsetArray]
    decide
  exact (sized_encodeSlot order none payload).congr
    (iff_of_true ⟨⟨headFits_unsetArray, bodyFits_unsetArray, List.forall_mem_nil _⟩, short⟩
      slotFits_none) rfl

theorem slotFits_some_iff (array : MatArray) :
    SlotFits (some array) ↔ array.Everywhere fun node => ¬ node.Oversized :=
  ⟨fun fits => fits array rfl, fun fits _ same => Option.some.inj same ▸ fits⟩

/-- The matrix of an array is written exactly where everything in the array fits, at every
depth, and has a size that its payload decides. -/
theorem sized_element {array : MatArray} (filled : array.Everywhere Filled) :
    Sized (array.element order) (array.Everywhere fun node => ¬ node.Oversized)
      (normalSize array.payloadSize) := by
  induction filled with
  | intro array here below inductionHypothesis =>
    have held : ∀ slot ∈ array.slots,
        Sized (encodeSlot order slot) (SlotFits slot) (slotSize slot) := by
      intro slot member
      cases slot with
      | none => exact sized_encodeSlot_none order
      | some child =>
        exact (inductionHypothesis child ((mem_children array child).mpr member)).congr
          (slotFits_some_iff child).symm rfl
    refine (sized_encodeSlot order (some array)
      (sized_encode_of_slots order array here held)).congr ?_ rfl
    rw [everywhere_iff, not_oversized_iff, forall_slotFits_iff]
    tauto

/-- Exactly when an array is refused. If every field of every struct array in it has as many
slots as there are elements, the writer fails exactly where something, at some depth, does not
fit: a dimension or an index that takes more than 31 bits, room for more entries than 32 bits
count, a field name longer than the limit, or a run or a payload of 4 GiB or more. It fails by
refusing an array, and for both byte orders alike; what is written has one length in both. -/
theorem element_error_iff {array : MatArray} (filled : array.Everywhere Filled) :
    (∀ order, (∃ fault, array.element order = .error fault) ↔ array.Somewhere Oversized) ∧
      (∀ order fault, array.element order = .error fault → fault.IsRefusal) ∧
      ((array.element .little).isOk = (array.element .big).isOk) ∧
      ∀ little big, array.element .little = .ok little → array.element .big = .ok big →
        little.length = big.length := by
  have sized (order : ByteOrder) := sized_element order filled
  refine ⟨fun order => ?_, fun order fault failed => ?_, ?_, fun little big first second => ?_⟩
  · rw [(sized order).error_iff, everywhere_not_iff, not_not]
  · exact onlyRefuses_encodeSlot order (fun child _ => onlyRefuses_encode order child) fault failed
  · rw [Bool.eq_iff_iff, (sized .little).isOk_iff, (sized .big).isOk_iff]
  · rw [(sized .little).length_eq first, (sized .big).length_eq second]

/-- Three cells, the second one with a struct array of a field whose name is one byte too long. -/
def longNameCell : MatArray :=
  .cell
    { info := ⟨"c", ⟨[3, 1], by decide, by decide, by decide⟩, {}⟩
      cells := [none, some (.struct
        { info := ⟨"", ⟨[2, 2], by decide, by decide, by decide⟩, {}⟩
          fields := [⟨String.ofList (List.replicate 64 'n'), [none, none, none, none]⟩] }), none] }

theorem element_error_iff_longNameCell :
    ∃ little big, longNameCell.element .little = .error little ∧
      longNameCell.element .big = .error big ∧ little.IsRefusal ∧ big.IsRefusal := by
  have filled : longNameCell.Everywhere Filled := by
    refine .intro _ trivial fun child member => ?_
    rw [List.mem_singleton.mp member]
    refine .intro _ (fun field fieldMember => ?_) nofun
    rw [List.mem_singleton.mp fieldMember]
    rfl
  have oversized : longNameCell.Somewhere Oversized :=
    .inside List.mem_cons_self (.here (.fieldName List.mem_cons_self (by decide)))
  obtain ⟨refused, refusal, _⟩ := element_error_iff filled
  obtain ⟨little, littleFailed⟩ := (refused .little).mpr oversized
  obtain ⟨big, bigFailed⟩ := (refused .big).mpr oversized
  exact ⟨little, big, littleFailed, bigFailed, refusal _ _ littleFailed, refusal _ _ bigFailed⟩

end MatArray

end MatFormat
