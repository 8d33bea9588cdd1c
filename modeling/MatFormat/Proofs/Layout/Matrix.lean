/-
This file says which bytes spell the parts of a matrix: its head, its numbers, the entries of
a sparse matrix, and the names of fields. Each part is made of elements, and each of these may
be spelled in its own way. The readers of the parts give the same for all of them.
-/

import MatFormat.Proofs.Layout.Run
import MatFormat.Proofs.Matrix.Slots

namespace MatFormat

/-! ### Layouts of parts -/

/-- The words with the class, the flags and the capacity of an array. -/
def MatArray.headWords (array : MatArray) : List Nat :=
  [array.arrayClass.code + array.writtenFlags.word, array.writtenCapacity]

/-- Bytes that spell the head of a matrix. -/
inductive HeadLayout (order : ByteOrder) (array : MatArray) : List UInt8 → Prop where
  | parts {flags dimensions name : List UInt8}
      (flagsSpelled : IntegersLayout order (array.headWords.map Int.ofNat) flags)
      (dimensionsSpelled : IntegersLayout order (array.dimensions.map Int.ofNat) dimensions)
      (nameSpelled : NameLayout order array.name name) :
      HeadLayout order array (flags ++ (dimensions ++ name))

/-- Bytes that spell a run of values, and a second one if there are imaginary parts. -/
inductive PartsLayout (order : ByteOrder) (numericClass : NumericClass)
    (real : List numericClass.Value) : Option (List numericClass.Value) → List UInt8 → Prop where
  | real {bytes : List UInt8} (spelled : ValuesLayout order numericClass real bytes) :
      PartsLayout order numericClass real none bytes
  | complex {imag : List numericClass.Value} {front back : List UInt8}
      (realSpelled : ValuesLayout order numericClass real front)
      (imagSpelled : ValuesLayout order numericClass imag back) :
      PartsLayout order numericClass real (some imag) (front ++ back)

/-- Bytes that spell the rows, the column pointers and the values of a sparse matrix. -/
inductive SparseLayout (order : ByteOrder) (array : SparseArray) : List UInt8 → Prop where
  | parts {rows pointers values : List UInt8}
      (rowsSpelled : IntegersLayout order (array.rowIndices.map Int.ofNat) rows)
      (pointersSpelled : IntegersLayout order (array.columnPointers.map Int.ofNat) pointers)
      (valuesSpelled : PartsLayout order .double array.real array.imag values) :
      SparseLayout order array (rows ++ (pointers ++ values))

/-- A slot of a length that holds a name, which ends before a NUL; after that come any bytes. -/
def NameSlot (length : Nat) (name : String) (slot : List UInt8) : Prop :=
  slot.length = length ∧ ∃ filling, slot = Utf8.encode name ++ 0 :: filling

/-- Bytes that spell the names of fields: the length of a slot, and one slot for each name. -/
inductive FieldNamesLayout (order : ByteOrder) (names : List String) : List UInt8 → Prop where
  | parts {lengths slotBytes : List UInt8} {slots : List (List UInt8)}
      (lengthsSpelled : IntegersLayout order [Int.ofNat (longestName names + 1)] lengths)
      (slotsFilled : List.Forall₂ (NameSlot (longestName names + 1)) names slots)
      (slotsSpelled : ElementLayout order .int8 slots.flatten slotBytes) :
      FieldNamesLayout order names (lengths ++ slotBytes)

/-- Bytes that spell the name of the class of an object; a struct array has none. -/
inductive ClassNameLayout (order : ByteOrder) : Option String → List UInt8 → Prop where
  | struct : ClassNameLayout order none []
  | object {className : String} {bytes : List UInt8}
      (spelled : NameLayout order className bytes) : ClassNameLayout order (some className) bytes

/-! ### What can be written -/

/-- The rows and the column pointers of a sparse matrix; other arrays have none. -/
def MatArray.entryIndices : MatArray → List Nat
  | .sparse array => array.rowIndices ++ array.columnPointers
  | _ => []

/-- The parts of an array are as long as its shape asks for, and the numbers in its head, its
indices and the names of its fields fit into what they are written to. -/
structure MatArray.Writable (array : MatArray) : Prop where
  shaped : array.Shaped
  capacity : array.writtenCapacity < wordLimit
  dimensions : ∀ dimension ∈ array.dimensions, dimension < indexLimit
  entries : ∀ index ∈ array.entryIndices, index < indexLimit
  fieldNames : longestName array.fieldNames ≤ fieldNameLimit

variable {order : ByteOrder} {bytes : List UInt8}

/-! ### Heads -/

/-- However the head of a matrix is spelled, it is read as the head that was written. -/
theorem Cursor.matrixHead_of_layout {array : MatArray} (writable : array.Writable)
    (layout : HeadLayout order array bytes) (rest : List UInt8) (offset : Nat) :
    (Cursor.matrixHead ⟨bytes ++ rest, offset, order⟩).result =
      .ok (array.writtenHead offset, ⟨rest, offset + bytes.length, order⟩) := by
  obtain @⟨flags, dimensions, name, flagsSpelled, dimensionsSpelled, nameSpelled⟩ := layout
  have rank : ¬ array.dimensions.length < 2 := Nat.not_lt.mpr array.info.shape.rank_ge_two
  obtain ⟨flagsElement, flagsRead, loaded⟩ := element_of_integersLayout flagsSpelled
    (dimensions ++ (name ++ rest)) offset
  have words : flagsElement.values .uint32 =
      .ok [BitVec.ofNat _ (array.arrayClass.code + array.writtenFlags.word),
        BitVec.ofNat _ array.writtenCapacity] := by
    rw [loaded .uint32 rfl]
    simp only [MatArray.headWords, List.map_cons, List.map_nil, Int.ofNat_eq_natCast,
      BitVec.ofInt_natCast]
  obtain ⟨nameElement, nameRead, named⟩ := element_of_nameLayout nameSpelled rest
    (offset + flags.length + dimensions.length)
  rw [matrixHead, List.append_assoc, List.append_assoc, Reading.result_bind_of_ok flagsRead]
  dsimp only
  rw [Reading.result_lift_bind_of_ok words]
  dsimp only
  rw [Reading.result_bind_of_ok rfl]
  dsimp only
  rw [Reading.result_bind_of_ok
    (indices_of_layout dimensionsSpelled writable.dimensions (name ++ rest) _)]
  dsimp only
  rw [if_neg rank, Reading.result_bind_of_ok nameRead]
  dsimp only
  rw [Reading.result_lift_bind_of_ok named, Reading.result_pure, toNat_word writable.capacity,
    toNat_word (ArrayClass.code_add_word_lt _ _), ArrayClass.code_add_word_mod,
    Flags.ofWord_add_word _ array.arrayClass.code_lt]
  simp only [MatArray.writtenHead, List.length_append, Nat.add_assoc]

/-! ### Numbers and characters -/

theorem Cursor.numericBody_of_layout {numericClass : NumericClass}
    {array : NumericArray numericClass} (shaped : array.Shaped)
    (layout : PartsLayout order numericClass array.real array.imag bytes)
    {info : ArrayInfo} (shape : info.shape = array.info.shape)
    (complex : info.flags.complex = array.isComplex) (rest : List UInt8) (offset : Nat) :
    (numericBody ⟨bytes ++ rest, offset, order⟩ numericClass info).result =
      .ok ({ array with info }, ⟨rest, offset + bytes.length, order⟩) := by
  obtain ⟨arrayInfo, real, imag⟩ := array
  rw [numericBody, shape]
  dsimp only at layout ⊢
  cases layout with
  | real spelled =>
    obtain ⟨element, read, values⟩ := element_of_valuesLayout spelled rest offset
    rw [Reading.result_bind_of_ok read]
    dsimp only
    rw [Reading.result_lift_bind_of_ok (Element.exactly_of_values values shaped.real), complex]
    rfl
  | @complex imag front back realSpelled imagSpelled =>
    obtain ⟨element, read, values⟩ := element_of_valuesLayout realSpelled (back ++ rest) offset
    obtain ⟨other, otherRead, otherValues⟩ := element_of_valuesLayout imagSpelled rest
      (offset + front.length)
    rw [List.append_assoc, Reading.result_bind_of_ok read]
    dsimp only
    rw [Reading.result_lift_bind_of_ok (Element.exactly_of_values values shaped.real), complex,
      NumericArray.isComplex, Option.isSome_some, if_pos rfl, Reading.result_bind_of_ok otherRead]
    dsimp only
    rw [Reading.result_lift_bind_of_ok
      (Element.exactly_of_values otherValues (shaped.imag imag rfl)), List.length_append,
      ← Nat.add_assoc]
    rfl

theorem Cursor.charBody_of_layout {array : CharArray}
    (shaped : array.units.length = array.info.shape.count)
    (layout : ElementLayout order .uint16 (array.units.flatMap (NumericClass.uint16.write order))
      bytes)
    {info : ArrayInfo} (shape : info.shape = array.info.shape) (rest : List UInt8)
    (offset : Nat) :
    (charBody ⟨bytes ++ rest, offset, order⟩ info).result =
      .ok ({ array with info }, ⟨rest, offset + bytes.length, order⟩) := by
  obtain ⟨element, holds, _, read⟩ := element_of_layout layout (by decide) rest offset
  rw [charBody, Reading.result_bind_of_ok read]
  dsimp only
  rw [shape, Reading.result_lift_bind_of_ok (Element.codeUnits_of_holds holds shaped)]
  rfl

/-! ### Sparse matrices -/

theorem Cursor.sparseValues_of_layout {values : List Double} {count : Nat}
    (length : values.length = count) (layout : ValuesLayout order .double values bytes)
    (rest : List UInt8) (offset : Nat) :
    (sparseValues ⟨bytes ++ rest, offset, order⟩ count).result =
      .ok (values, ⟨rest, offset + bytes.length, order⟩) := by
  obtain ⟨element, read, loaded⟩ := element_of_valuesLayout layout rest offset
  rw [sparseValues, Reading.result_bind_of_ok read]
  dsimp only
  rw [Reading.result_lift_bind_of_ok (Element.atLeast_of_values loaded length)]
  rfl

theorem Cursor.sparseBody_of_layout {array : SparseArray} (shaped : array.Shaped)
    (small : ∀ index ∈ array.rowIndices ++ array.columnPointers, index < indexLimit)
    (layout : SparseLayout order array bytes) {info : ArrayInfo}
    (shape : info.shape = array.info.shape) (complex : info.flags.complex = array.isComplex)
    (rest : List UInt8) (offset : Nat) :
    (sparseBody ⟨bytes ++ rest, offset, order⟩ info array.room).result =
      .ok ({ array with info, capacity := array.room },
        ⟨rest, offset + bytes.length, order⟩) := by
  obtain @⟨rows, pointers, values, rowsSpelled, pointersSpelled, valuesSpelled⟩ := layout
  obtain ⟨smallRows, smallPointers⟩ := List.forall_mem_append.mp small
  have inside := find?_reaching_eq_none_iff.mpr shaped.rows
  have room : ¬ array.room < array.rowIndices.length := Nat.not_lt.mpr (Nat.le_max_right _ _)
  rw [sparseBody]
  dsimp only
  rw [List.append_assoc, List.append_assoc,
    Reading.result_bind_of_ok (indices_of_layout rowsSpelled smallRows _ offset)]
  dsimp only
  rw [Reading.result_bind_of_ok (indices_of_layout pointersSpelled smallPointers _ _)]
  dsimp only
  rw [shape, if_neg (not_not.mpr shaped.pointers), if_neg shaped.noDescent, shaped.stop,
    if_neg (Nat.lt_irrefl _), List.take_length, inside]
  dsimp only
  rw [if_neg room]
  obtain ⟨arrayInfo, capacity, columnPointers, rowIndices, real, imag⟩ := array
  dsimp only at valuesSpelled ⊢
  cases valuesSpelled with
  | real spelled =>
    rw [Reading.result_bind_of_ok (sparseValues_of_layout shaped.real spelled _ _)]
    dsimp only
    rw [complex]
    simp only [List.length_append, Nat.add_assoc]
    rfl
  | @complex imag front back realSpelled imagSpelled =>
    rw [List.append_assoc,
      Reading.result_bind_of_ok (sparseValues_of_layout shaped.real realSpelled _ _)]
    dsimp only
    rw [complex, SparseArray.isComplex, Option.isSome_some, if_pos rfl, Reading.result_bind_of_ok
      (sparseValues_of_layout (shaped.imag imag rfl) imagSpelled rest _)]
    simp only [List.length_append, Nat.add_assoc]
    rfl

/-! ### Names of fields -/

theorem decodeLossy_of_nameSlot {length : Nat} {name : String} {slot : List UInt8}
    (filled : NameSlot length name slot) :
    Utf8.decodeLossy (Element.beforeNul slot) = cutName name := by
  obtain ⟨_, filling, rfl⟩ := filled
  have same : Element.beforeNul (Utf8.encode name ++ 0 :: filling) =
      Element.beforeNul (Utf8.encode name) := by
    unfold Element.beforeNul
    rw [List.takeWhile_append]
    split
    · rename_i whole
      rw [List.takeWhile_cons_of_neg (by decide), List.append_nil]
      exact (List.IsPrefix.eq_of_length (List.takeWhile_prefix _) whole).symm
    · rfl
  rw [same, decodeLossy_beforeNul_encode]

theorem length_of_nameSlots {length : Nat} {names : List String} {slots : List (List UInt8)}
    (filled : List.Forall₂ (NameSlot length) names slots) :
    ∀ slot ∈ slots, slot.length = length := by
  induction filled with
  | nil => nofun
  | cons first _ inductionHypothesis =>
    exact List.forall_mem_cons.mpr ⟨first.1, inductionHypothesis⟩

theorem map_decodeLossy_of_nameSlots {length : Nat} {names : List String}
    {slots : List (List UInt8)} (filled : List.Forall₂ (NameSlot length) names slots) :
    (slots.map fun slot => Utf8.decodeLossy (Element.beforeNul slot)) = names.map cutName := by
  induction filled with
  | nil => rfl
  | cons first _ inductionHypothesis =>
    rw [List.map_cons, List.map_cons, decodeLossy_of_nameSlot first, inductionHypothesis]

theorem Element.fieldNames_of_holds {element : Element} {length : Nat} (positive : 0 < length)
    {names : List String} {slots : List (List UInt8)}
    (filled : List.Forall₂ (NameSlot length) names slots)
    (holds : element.Holds order .int8 slots.flatten) :
    (element.fieldNames length).result = .ok (names.map cutName) := by
  have whole := length_of_nameSlots filled
  have size := length_flatMap_of_width length slots id whole
  have cut := pieces_flatMap length slots id whole
  rw [List.flatMap_id] at size cut
  rw [Element.fieldNames]
  dsimp only
  rw [Reading.result_noteIf, holds.size, size, Nat.mul_div_cancel _ positive, Element.bytes,
    holds.bytes, cut, List.map_id, map_decodeLossy_of_nameSlots filled]
  rfl

/-- However the names of fields are spelled, they are read up to their first NUL. -/
theorem Cursor.fieldNames_of_layout {names : List String}
    (short : longestName names ≤ fieldNameLimit) (layout : FieldNamesLayout order names bytes)
    (rest : List UInt8) (offset : Nat) :
    (Cursor.fieldNames ⟨bytes ++ rest, offset, order⟩).result =
      .ok (names.map cutName, ⟨rest, offset + bytes.length, order⟩) := by
  obtain @⟨lengths, slotBytes, slots, lengthsSpelled, slotsFilled, slotsSpelled⟩ := layout
  have small : ∀ length ∈ [longestName names + 1], length < indexLimit := by
    intro length member
    have limit : fieldNameLimit = 63 := rfl
    have bound : indexLimit = 2 ^ 31 := rfl
    rw [List.mem_singleton.mp member]
    omega
  obtain ⟨lengthElement, lengthRead, integers⟩ :=
    element_of_indicesLayout lengthsSpelled small (slotBytes ++ rest) offset
  rw [List.map_singleton] at integers
  obtain ⟨element, holds, _, read⟩ := element_of_layout slotsSpelled (by decide) rest
    (offset + lengths.length)
  have positive : (0 : Int) < Int.ofNat (longestName names + 1) := Int.natCast_succ_pos _
  have found : (element.fieldNames (Int.ofNat (longestName names + 1)).toNat).result =
      .ok (names.map cutName) := Element.fieldNames_of_holds (Nat.succ_pos _) slotsFilled holds
  rw [Cursor.fieldNames]
  dsimp only
  rw [List.append_assoc, Reading.result_bind_of_ok lengthRead]
  dsimp only
  rw [Reading.result_lift_bind_of_ok integers]
  dsimp only
  rw [if_pos positive, Reading.result_bind_of_ok (Reading.result_pure _),
    Reading.result_bind_of_ok read]
  dsimp only
  rw [Reading.result_bind_of_ok found]
  simp only [List.length_append, Nat.add_assoc]
  rfl

/-! ### What the writer gives -/

theorem layout_of_encodeHead {array : MatArray} (written : encodeHead order array = .ok bytes) :
    array.writtenCapacity < wordLimit ∧ (∀ dimension ∈ array.dimensions, dimension < indexLimit) ∧
      HeadLayout order array bytes := by
  obtain ⟨flags, dimensions, name, rfl, capacity, flagsWritten, dimensionsWritten, nameWritten⟩ :=
    parts_of_encodeHead written
  obtain ⟨small, dimensionsSpelled⟩ := layout_of_encodeIndices dimensionsWritten
  have flagsSpelled := integersLayout_of_encodeValues rfl flagsWritten
  have numbers : [BitVec.ofNat _ (array.arrayClass.code + array.writtenFlags.word),
      BitVec.ofNat _ array.writtenCapacity].map NumericClass.uint32.integer =
        array.headWords.map Int.ofNat := by
    have first := toNat_word (array.arrayClass.code_add_word_lt array.writtenFlags)
    have second := toNat_word capacity
    simp only [List.map_cons, List.map_nil, MatArray.headWords]
    exact congrArg₂ (fun first second : Nat => [(first : Int), (second : Int)]) first second
  rw [numbers] at flagsSpelled
  exact ⟨capacity, small, .parts flagsSpelled dimensionsSpelled (layout_of_encodeName nameWritten)⟩

theorem layout_of_encodeParts {numericClass : NumericClass} {real : List numericClass.Value}
    {imag : Option (List numericClass.Value)}
    (written : encodeParts order numericClass real imag = .ok bytes) :
    PartsLayout order numericClass real imag bytes := by
  obtain ⟨front, frontWritten, written⟩ := Outcome.bind_eq_ok.mp written
  cases imag with
  | none => exact Outcome.pure_eq_ok.mp written ▸ .real (layout_of_encodeValues frontWritten)
  | some imag =>
    obtain ⟨back, backWritten, written⟩ := Outcome.bind_eq_ok.mp written
    exact Outcome.pure_eq_ok.mp written ▸
      .complex (layout_of_encodeValues frontWritten) (layout_of_encodeValues backWritten)

theorem layout_of_encodeSparse {array : SparseArray}
    (written : encodeSparse order array = .ok bytes) :
    (∀ index ∈ array.rowIndices ++ array.columnPointers, index < indexLimit) ∧
      SparseLayout order array bytes := by
  obtain ⟨rows, rowsWritten, written⟩ := Outcome.bind_eq_ok.mp written
  obtain ⟨pointers, pointersWritten, written⟩ := Outcome.bind_eq_ok.mp written
  obtain ⟨values, valuesWritten, written⟩ := Outcome.bind_eq_ok.mp written
  rw [← Outcome.pure_eq_ok.mp written, List.append_assoc]
  obtain ⟨smallRows, rowsSpelled⟩ := layout_of_encodeIndices rowsWritten
  obtain ⟨smallPointers, pointersSpelled⟩ := layout_of_encodeIndices pointersWritten
  exact ⟨List.forall_mem_append.mpr ⟨smallRows, smallPointers⟩,
    .parts rowsSpelled pointersSpelled (layout_of_encodeParts valuesWritten)⟩

theorem nameSlot_paddedName {length : Nat} {name : String} (shorter : nameLength name < length) :
    NameSlot length name (paddedName length name) := by
  refine ⟨length_paddedName (Nat.le_of_lt shorter),
    List.replicate (length - nameLength name - 1) 0, ?_⟩
  have filling : length - (Utf8.encode name).length = length - nameLength name - 1 + 1 :=
    (Nat.sub_add_cancel (Nat.sub_pos_of_lt shorter)).symm
  rw [paddedName, filling, List.replicate_succ]

theorem layout_of_writeFieldNames {names : List String}
    (short : longestName names ≤ fieldNameLimit)
    (written : writeFieldNames order names = .ok bytes) : FieldNamesLayout order names bytes := by
  obtain ⟨lengths, lengthsWritten, written⟩ := Outcome.bind_eq_ok.mp written
  obtain ⟨slotBytes, slotsWritten, written⟩ := Outcome.bind_eq_ok.mp written
  have limit : fieldNameLimit = 63 := rfl
  have bound : indexLimit = 2 ^ 31 := rfl
  have lengthsSpelled := integersLayout_of_encodeValues rfl lengthsWritten
  rw [List.map_singleton, integer_int32_ofNat (by omega)] at lengthsSpelled
  have filled : List.Forall₂ (NameSlot (longestName names + 1)) names
      (names.map (paddedName (longestName names + 1))) := by
    rw [List.forall₂_map_right_iff]
    refine List.forall₂_same.mpr fun name member => ?_
    exact nameSlot_paddedName (Nat.lt_succ_of_le (nameLength_le_longestName member))
  rw [List.flatMap_def] at slotsWritten
  exact Outcome.pure_eq_ok.mp written ▸
    .parts lengthsSpelled filled (layout_of_encodeElement slotsWritten)

theorem layout_of_writeClassName {className : Option String}
    (written : writeClassName order className = .ok bytes) :
    ClassNameLayout order className bytes := by
  cases className with
  | none => exact Except.ok.inj written ▸ .struct
  | some className => exact .object (layout_of_encodeName written)

end MatFormat
