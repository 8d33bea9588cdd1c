/-
This file says which bytes spell an array. Its head and what follows it are spelled in any of
their ways, and so are the arrays in its slots, at every depth; an unset slot is an element
without a payload, or the array that unset slots are written as. All these bytes are read as
the same array. As when it is written, the proof goes down the tree by the bound on the depth
that the reader starts from, because a nested payload is always shorter than the one around it.
-/

import MatFormat.Proofs.Cursor
import MatFormat.Proofs.Layout.Matrix

namespace MatFormat

/-! ### Layouts of arrays -/

/-- The payload for a slot: an array, or nothing if the slot is unset. -/
inductive SlotPayload (nested : MatArray → List UInt8 → Prop) :
    Option MatArray → List UInt8 → Prop where
  | empty : SlotPayload nested none []
  | array {slot : Option MatArray} {payload : List UInt8}
      (spelled : nested (slotArray slot) payload) : SlotPayload nested slot payload

/-- Bytes that spell slots one after the other, each as a matrix element. -/
inductive SlotsLayout (order : ByteOrder) (nested : MatArray → List UInt8 → Prop) :
    List (Option MatArray) → List UInt8 → Prop where
  | nil : SlotsLayout order nested [] []
  | cons {slot : Option MatArray} {others : List (Option MatArray)}
      {payload front back : List UInt8} (inside : SlotPayload nested slot payload)
      (spelled : ElementLayout order .matrix payload front)
      (rest : SlotsLayout order nested others back) :
      SlotsLayout order nested (slot :: others) (front ++ back)

/-- Bytes that spell what follows the head of an array. -/
inductive BodyLayout (order : ByteOrder) (nested : MatArray → List UInt8 → Prop) :
    MatArray → List UInt8 → Prop where
  | numeric {numericClass : NumericClass} {array : NumericArray numericClass}
      {body : List UInt8} (spelled : PartsLayout order numericClass array.real array.imag body) :
      BodyLayout order nested (.numeric numericClass array) body
  | char {array : CharArray} {body : List UInt8}
      (spelled : ElementLayout order .uint16
        (array.units.flatMap (NumericClass.uint16.write order)) body) :
      BodyLayout order nested (.char array) body
  | sparse {array : SparseArray} {body : List UInt8}
      (spelled : SparseLayout order array body) : BodyLayout order nested (.sparse array) body
  | cell {array : CellArray MatArray} {body : List UInt8}
      (spelled : SlotsLayout order nested array.cells body) :
      BodyLayout order nested (.cell array) body
  | struct {array : StructArray MatArray} {className names slots : List UInt8}
      (classSpelled : ClassNameLayout order array.className className)
      (namesSpelled : FieldNamesLayout order array.fieldNames names)
      (slotsSpelled : SlotsLayout order nested (slotsByElement array) slots) :
      BodyLayout order nested (.struct array) (className ++ (names ++ slots))

/-- Bytes that spell an array. -/
inductive ArrayLayout (order : ByteOrder) : MatArray → List UInt8 → Prop where
  | intro {array : MatArray} {head body : List UInt8} (headSpelled : HeadLayout order array head)
      (bodySpelled : BodyLayout order (ArrayLayout order) array body) :
      ArrayLayout order array (head ++ body)

variable {order : ByteOrder} {bytes : List UInt8}

/-! ### Slots -/

/-- A reader for nested matrices reads what is spelled for a slot, if it is short. -/
def NestedReads (nested : Cursor → Reading (Option MatArray)) (order : ByteOrder) (room : Nat)
    (slot : Option MatArray) : Prop :=
  ∀ (payload : List UInt8) (offset : Nat), SlotPayload (ArrayLayout order) slot payload →
    payload.length < room → (nested ⟨payload, offset, order⟩).result = .ok (MatArray.keptSlot slot)

section

variable {nested : Cursor → Reading (Option MatArray)} {room : Nat}

theorem NestedReads.mono {slot : Option MatArray} {less : Nat}
    (reads : NestedReads nested order room slot) (le : less ≤ room) :
    NestedReads nested order less slot :=
  fun payload offset inside short => reads payload offset inside (Nat.lt_of_lt_of_le short le)

theorem Cursor.slot_of_layout {slot : Option MatArray} {payload : List UInt8}
    (reads : NestedReads nested order room slot)
    (inside : SlotPayload (ArrayLayout order) slot payload)
    (spelled : ElementLayout order .matrix payload bytes) (short : bytes.length ≤ room)
    (rest : List UInt8) (offset : Nat) :
    (Cursor.slot ⟨bytes ++ rest, offset, order⟩ nested).result =
      .ok (MatArray.keptSlot slot, ⟨rest, offset + bytes.length, order⟩) := by
  obtain ⟨element, holds, _, read⟩ := element_of_layout spelled (by decide) rest offset
  have within := tagSize_add_le_of_layout spelled rfl
  have positive : tagSize = 8 := rfl
  have payloadRead : (nested element.payload).result = .ok (MatArray.keptSlot slot) := by
    rw [holds.payload_eq]
    exact reads payload _ inside (by omega)
  rw [Cursor.slot]
  dsimp only
  rw [Reading.result_bind_of_ok read]
  dsimp only
  rw [if_neg (not_not.mpr holds.type), Reading.result_bind_of_ok payloadRead]
  rfl

/-- Slots that are spelled one after the other are read one after the other. -/
theorem Cursor.slots_of_layout {slots : List (Option MatArray)}
    (reads : ∀ slot ∈ slots, NestedReads nested order room slot)
    (layout : SlotsLayout order (ArrayLayout order) slots bytes) (short : bytes.length ≤ room)
    (rest : List UInt8) (offset : Nat) :
    (Cursor.slots nested slots.length ⟨bytes ++ rest, offset, order⟩).result =
      .ok (slots.map MatArray.keptSlot, ⟨rest, offset + bytes.length, order⟩) := by
  induction layout generalizing offset with
  | nil => rfl
  | @cons slot others payload front back inside spelled _ inductionHypothesis =>
    obtain ⟨first, remaining⟩ := List.forall_mem_cons.mp reads
    rw [List.length_append] at short
    rw [List.length_cons, Cursor.slots, List.append_assoc, Reading.result_bind_of_ok
      (slot_of_layout first inside spelled (by omega) _ offset)]
    dsimp only
    rw [Reading.result_bind_of_ok (inductionHypothesis remaining (by omega) _)]
    simp only [List.length_append, Nat.add_assoc]
    rfl

/-- Every spelled slot takes at least the bytes of a tag, so the early check on their number
passes. -/
theorem length_of_slotsLayout {spelling : MatArray → List UInt8 → Prop}
    {slots : List (Option MatArray)} (layout : SlotsLayout order spelling slots bytes) :
    slots.length * tagSize ≤ bytes.length := by
  induction layout with
  | nil => exact Nat.zero_mul _ ▸ Nat.zero_le _
  | cons _ spelled _ inductionHypothesis =>
    have head := tagSize_le_of_layout spelled
    rw [List.length_cons, List.length_append, Nat.succ_mul]
    omega

/-! ### Cells, structs and objects -/

theorem Cursor.cellBody_of_layout {array : CellArray MatArray}
    (shaped : array.cells.length = array.info.shape.count)
    (reads : ∀ slot ∈ array.cells, NestedReads nested order room slot)
    (layout : SlotsLayout order (ArrayLayout order) array.cells bytes)
    (short : bytes.length ≤ room) {info : ArrayInfo} (shape : info.shape = array.info.shape)
    (rest : List UInt8) (offset : Nat) :
    (cellBody ⟨bytes ++ rest, offset, order⟩ nested info).result =
      .ok (⟨info, array.cells.map MatArray.keptSlot⟩, ⟨rest, offset + bytes.length, order⟩) := by
  have enough : info.shape.count * tagSize ≤
      Cursor.remaining ⟨bytes ++ rest, offset, order⟩ := by
    rw [shape, ← shaped, Cursor.remaining, List.length_append]
    exact (length_of_slotsLayout layout).trans (Nat.le_add_right _ _)
  rw [cellBody, Reading.result_lift_bind_of_ok (checkSlots_of_le enough), cells, shape, ← shaped,
    Reading.result_bind_of_ok (slots_of_layout reads layout short rest offset)]
  rfl

theorem Cursor.structBody_of_layout {array : StructArray MatArray}
    (shaped : ∀ field ∈ array.fields, field.slots.length = array.info.shape.count)
    (reads : ∀ slot ∈ (MatArray.struct array).slots, NestedReads nested order room slot)
    {names slots : List UInt8} (short : longestName array.fieldNames ≤ fieldNameLimit)
    (namesSpelled : FieldNamesLayout order array.fieldNames names)
    (slotsSpelled : SlotsLayout order (ArrayLayout order) (slotsByElement array) slots)
    (within : slots.length ≤ room) {info : ArrayInfo} (shape : info.shape = array.info.shape)
    (className : Option String) (rest : List UInt8) (offset : Nat) :
    (structBody ⟨names ++ (slots ++ rest), offset, order⟩ nested info className).result =
      .ok ({ info, className, fields := array.fields.map fun field =>
          ⟨cutName field.name, field.slots.map MatArray.keptSlot⟩ },
        ⟨rest, offset + names.length + slots.length, order⟩) := by
  have rounds : slotRounds info (array.fieldNames.map cutName) =
      slotRounds array.info array.fieldNames := by
    rw [slotRounds, slotRounds, List.isEmpty_map, shape]
  have enough : saturatingProduct (slotRounds array.info array.fieldNames)
      array.fieldNames.length * tagSize ≤
        Cursor.remaining ⟨slots ++ rest, offset + names.length, order⟩ := by
    have spelled := length_of_slotsLayout slotsSpelled
    rw [length_slotsByElement shaped] at spelled
    rw [Cursor.remaining, List.length_append]
    exact (Nat.mul_le_mul_right _ (Nat.min_le_left _ _)).trans
      (spelled.trans (Nat.le_add_right _ _))
  have readable : ∀ slot ∈ slotsByElement array, NestedReads nested order room slot :=
    fun slot member => reads slot (mem_slots_of_mem_slotsByElement member)
  have slotsRead := slots_of_layout readable slotsSpelled within rest (offset + names.length)
  rw [length_slotsByElement shaped] at slotsRead
  rw [structBody, Reading.result_bind_of_ok (fieldNames_of_layout short namesSpelled _ offset)]
  dsimp only
  rw [rounds, List.length_map, Reading.result_lift_bind_of_ok (checkSlots_of_le enough), fields]
  dsimp only
  rw [rounds, List.length_map, Reading.result_bind_of_ok slotsRead]
  dsimp only
  rw [zipWith_deal_kept shaped]
  rfl

/-- An object is a struct array behind the name of its class. -/
theorem Cursor.objectBody_of_layout {className : String} (layout : NameLayout order className bytes)
    (nested : Cursor → Reading (Option MatArray)) (info : ArrayInfo) (rest : List UInt8)
    (offset : Nat) :
    (objectBody ⟨bytes ++ rest, offset, order⟩ nested info).result =
      (structBody ⟨rest, offset + bytes.length, order⟩ nested info
        (some (cutName className))).result := by
  obtain ⟨element, read, named⟩ := element_of_nameLayout layout rest offset
  rw [objectBody, Reading.result_bind_of_ok read]
  dsimp only
  rw [Reading.result_lift_bind_of_ok named]

/-! ### One array -/

theorem Cursor.structOrObject_of_layout {array : StructArray MatArray}
    (writable : (MatArray.struct array).Writable) {className names slots : List UInt8}
    (classSpelled : ClassNameLayout order array.className className)
    (namesSpelled : FieldNamesLayout order array.fieldNames names)
    (slotsSpelled : SlotsLayout order (ArrayLayout order) (slotsByElement array) slots)
    (reads : ∀ slot ∈ (MatArray.struct array).slots, NestedReads nested order room slot)
    (within : slots.length ≤ room) (offset : Nat) :
    (classBody ⟨className ++ (names ++ slots), offset, order⟩ nested
      (MatArray.struct array).arrayClass (MatArray.struct array).keptInfo 0).result =
        .ok ((MatArray.struct array).kept,
          ⟨[], offset + (className ++ (names ++ slots)).length, order⟩) := by
  have read (className : Option String) (offset : Nat) :=
    structBody_of_layout writable.shaped reads writable.fieldNames namesSpelled slotsSpelled within
      (MatArray.shape_keptInfo (.struct array)) className [] offset
  simp only [List.append_nil] at read
  rw [MatArray.kept_struct, MatArray.arrayClass, StructArray.arrayClass]
  cases named : array.className with
  | none =>
    rw [named] at classSpelled
    cases classSpelled
    rw [List.nil_append, List.length_append, ← Nat.add_assoc]
    exact Reading.result_bind_of_ok (read none offset) _
  | some name =>
    rw [named] at classSpelled
    cases classSpelled with
    | object spelled =>
      have object := objectBody_of_layout spelled nested (MatArray.struct array).keptInfo
        (names ++ slots) offset
      rw [List.length_append, List.length_append, ← Nat.add_assoc, ← Nat.add_assoc]
      exact Reading.result_bind_of_ok (object.trans (read _ _)) _

/-- However what follows the head of an array is spelled, what is kept of the array is read. -/
theorem Cursor.matrixBody_of_layout {array : MatArray} (writable : array.Writable)
    (layout : BodyLayout order (ArrayLayout order) array bytes)
    (reads : ∀ slot ∈ array.slots, NestedReads nested order bytes.length slot)
    (offset start : Nat) :
    (matrixBody ⟨bytes, offset, order⟩ nested (array.writtenHead start)).result =
      .ok (array.kept, ⟨[], offset + bytes.length, order⟩) := by
  rw [MatArray.matrixBody_writtenHead]
  cases layout with
  | @numeric numericClass array _ spelled =>
    have read := numericBody_of_layout writable.shaped spelled
      (MatArray.shape_keptInfo (.numeric numericClass array))
      (MatArray.complex_keptInfo (.numeric numericClass array)) [] offset
    rw [List.append_nil] at read
    exact Reading.result_bind_of_ok read _
  | @char array _ spelled =>
    have read := charBody_of_layout writable.shaped spelled
      (MatArray.shape_keptInfo (.char array)) [] offset
    rw [List.append_nil] at read
    exact Reading.result_bind_of_ok read _
  | @sparse array _ spelled =>
    have read := sparseBody_of_layout writable.shaped writable.entries spelled
      (MatArray.shape_keptInfo (.sparse array)) (MatArray.complex_keptInfo (.sparse array))
      [] offset
    rw [List.append_nil] at read
    exact Reading.result_bind_of_ok read _
  | @cell array _ spelled =>
    have read := cellBody_of_layout writable.shaped reads spelled (Nat.le_refl _)
      (MatArray.shape_keptInfo (.cell array)) [] offset
    rw [List.append_nil] at read
    rw [MatArray.kept_eq]
    exact Reading.result_bind_of_ok read _
  | @struct array className names slots classSpelled namesSpelled slotsSpelled =>
    have within : slots.length ≤ (className ++ (names ++ slots)).length := by
      rw [List.length_append, List.length_append]
      omega
    exact structOrObject_of_layout writable classSpelled namesSpelled slotsSpelled reads within
      offset

end

/-! ### Trees of arrays -/

theorem tagSize_le_of_arrayLayout {array : MatArray} (layout : ArrayLayout order array bytes) :
    tagSize ≤ bytes.length := by
  obtain @⟨array, head, body, headSpelled, _⟩ := layout
  obtain @⟨flags, dimensions, name, flagsSpelled, _, _⟩ := headSpelled
  rw [List.length_append, List.length_append, Nat.add_assoc]
  exact (tagSize_le_of_integersLayout flagsSpelled).trans (Nat.le_add_right _ _)

theorem writable_unsetArray : (MatArray.numeric .double unsetArray).Writable where
  shaped := ⟨rfl, nofun⟩
  capacity := by decide
  dimensions := by decide
  entries := nofun
  fieldNames := Nat.zero_le _

/-- What holds everywhere in an array, and of the array that unset slots are written as, holds
everywhere in what is written for a slot of the array. -/
theorem MatArray.Everywhere.slotArray {property : MatArray → Prop} {array : MatArray}
    (everywhere : array.Everywhere property) (unset : property (.numeric .double unsetArray))
    {slot : Option MatArray} (member : slot ∈ array.slots) :
    (MatFormat.slotArray slot).Everywhere property := by
  cases slot with
  | none => exact .intro _ unset nofun
  | some child => exact everywhere.child ((MatArray.mem_children array child).mpr member)

/-- A reader for nested matrices reads what is no longer than its bound on the depth. -/
theorem nestedReads_nestedMatrix (depth : Nat) (slot : Option MatArray)
    (writable : (slotArray slot).Everywhere MatArray.Writable) :
    NestedReads (Cursor.nestedMatrix depth) order (depth + 1) slot := by
  induction depth generalizing slot with
  | zero =>
    intro payload offset inside short
    cases inside with
    | empty => rw [MatArray.keptSlot_none]; rfl
    | array spelled =>
      have filled := tagSize_le_of_arrayLayout spelled
      have positive : tagSize = 8 := rfl
      omega
  | succ depth inductionHypothesis =>
    intro payload offset inside short
    cases inside with
    | empty => rw [MatArray.keptSlot_none]; rfl
    | array spelled =>
      have filled : ¬ Cursor.atEnd ⟨payload, offset, order⟩ = true :=
        not_atEnd_of_tagSize_le (tagSize_le_of_arrayLayout spelled)
      obtain @⟨array, head, body, headSpelled, bodySpelled⟩ := spelled
      have within : body.length ≤ depth + 1 := by
        rw [List.length_append] at short
        omega
      have read := Cursor.matrixBody_of_layout writable.here bodySpelled
        (fun child member => (inductionHypothesis child
          (writable.slotArray writable_unsetArray member)).mono within)
        (offset + head.length) offset
      rw [Cursor.nestedMatrix, if_neg filled, Reading.result_bind_of_ok
        (Cursor.matrixHead_of_layout writable.here headSpelled _ offset)]
      dsimp only
      rw [Reading.result_bind_of_ok read, keptSlot_eq]
      rfl

/-- However an array is spelled, what is read is what is kept of it, if it is wanted. -/
theorem Cursor.matrix_of_layout {array : MatArray} (writable : array.Everywhere MatArray.Writable)
    (layout : ArrayLayout order array bytes) (wanted : String → Bool) (offset : Nat) :
    (Cursor.matrix ⟨bytes, offset, order⟩ wanted).result =
      .ok (if wanted (cutName array.name) then some array.kept else none) := by
  have filled : ¬ Cursor.atEnd ⟨bytes, offset, order⟩ = true :=
    not_atEnd_of_tagSize_le (tagSize_le_of_arrayLayout layout)
  obtain @⟨array, head, body, headSpelled, bodySpelled⟩ := layout
  have read := matrixBody_of_layout writable.here bodySpelled
    (fun slot member => (nestedReads_nestedMatrix body.length slot
      (writable.slotArray writable_unsetArray member)).mono (Nat.le_succ _))
    (offset + head.length) offset
  rw [Cursor.matrix, if_neg filled,
    Reading.result_bind_of_ok (matrixHead_of_layout writable.here headSpelled _ offset)]
  dsimp only
  rw [MatArray.writtenHead] at read ⊢
  dsimp only
  split
  · exact Reading.result_bind_of_ok read _
  · rfl

/-! ### What the writer gives -/

/-- Slots that could be written hold arrays that could be. -/
theorem encode_of_writtenSlots {slots : List (Option MatArray)}
    (written : joinParts (slots.map (encodeSlot order)) = .ok bytes) {slot : Option MatArray}
    (member : slot ∈ slots) : ∃ payload, (slotArray slot).encode order = .ok payload := by
  induction slots generalizing bytes with
  | nil => exact absurd member List.not_mem_nil
  | cons first others inductionHypothesis =>
    rw [List.map_cons] at written
    obtain ⟨front, back, rfl, frontWritten, backWritten⟩ := joinParts_cons_eq_ok.mp written
    obtain rfl | later := List.mem_cons.mp member
    · rw [encodeSlot_eq] at frontWritten
      obtain ⟨payload, payloadWritten, _⟩ := Outcome.bind_eq_ok.mp frontWritten
      exact ⟨payload, payloadWritten⟩
    · exact inductionHypothesis backWritten later

theorem layout_of_writtenSlots {slots : List (Option MatArray)}
    {spelling : MatArray → List UInt8 → Prop}
    (spells : ∀ slot ∈ slots, ∀ payload, (slotArray slot).encode order = .ok payload →
      spelling (slotArray slot) payload)
    (written : joinParts (slots.map (encodeSlot order)) = .ok bytes) :
    SlotsLayout order spelling slots bytes := by
  induction slots generalizing bytes with
  | nil => exact Except.ok.inj written ▸ .nil
  | cons slot others inductionHypothesis =>
    obtain ⟨first, remaining⟩ := List.forall_mem_cons.mp spells
    rw [List.map_cons] at written
    obtain ⟨front, back, rfl, frontWritten, backWritten⟩ := joinParts_cons_eq_ok.mp written
    rw [encodeSlot_eq] at frontWritten
    obtain ⟨payload, payloadWritten, frontWritten⟩ := Outcome.bind_eq_ok.mp frontWritten
    exact .cons (.array (first payload payloadWritten)) (layout_of_encodeElement frontWritten)
      (inductionHypothesis remaining backWritten)

theorem encode_of_encodeBody {array : MatArray} (shaped : array.Shaped)
    (written : array.encodeBody order = .ok bytes) {slot : Option MatArray}
    (member : slot ∈ array.slots) : ∃ payload, (slotArray slot).encode order = .ok payload := by
  cases array with
  | numeric => exact absurd member List.not_mem_nil
  | char => exact absurd member List.not_mem_nil
  | sparse => exact absurd member List.not_mem_nil
  | cell array => exact encode_of_writtenSlots written member
  | struct array =>
    obtain ⟨names, _, written⟩ := Outcome.bind_eq_ok.mp written
    obtain ⟨slots, slotsWritten, _⟩ := Outcome.bind_eq_ok.mp written
    exact encode_of_writtenSlots slotsWritten (mem_slotsByElement shaped member)

theorem writable_of_encode {array : MatArray} (shaped : array.Shaped)
    (written : array.encode order = .ok bytes) : array.Writable := by
  obtain ⟨head, body, rfl, headWritten, bodyWritten⟩ := MatArray.parts_of_encode written
  obtain ⟨capacity, dimensions, _⟩ := layout_of_encodeHead headWritten
  refine ⟨shaped, capacity, dimensions, ?_, ?_⟩
  · cases array with
    | sparse array => exact (layout_of_encodeSparse bodyWritten).1
    | numeric => nofun
    | char => nofun
    | cell => nofun
    | struct => nofun
  · cases array with
    | struct array =>
      obtain ⟨names, namesWritten, _⟩ := Outcome.bind_eq_ok.mp bodyWritten
      obtain ⟨_, _, _, _, short, _⟩ := parts_of_encodeFieldNames namesWritten
      exact short
    | numeric => exact Nat.zero_le _
    | char => exact Nat.zero_le _
    | cell => exact Nat.zero_le _
    | sparse => exact Nat.zero_le _

/-- An array that could be written fits into what it is written to, at every depth. -/
theorem everywhere_writable_of_encode {array : MatArray}
    (shaped : array.Everywhere MatArray.Shaped) (written : array.encode order = .ok bytes) :
    array.Everywhere MatArray.Writable := by
  induction shaped generalizing bytes with
  | intro array here below inductionHypothesis =>
    refine .intro array (writable_of_encode here written) fun child member => ?_
    obtain ⟨head, body, rfl, _, bodyWritten⟩ := MatArray.parts_of_encode written
    obtain ⟨payload, payloadWritten⟩ := encode_of_encodeBody here bodyWritten
      ((MatArray.mem_children array child).mp member)
    exact inductionHypothesis child member payloadWritten

theorem layout_of_encodeBody {array : MatArray} {spelling : MatArray → List UInt8 → Prop}
    (spells : ∀ slot ∈ array.slots, ∀ payload, (slotArray slot).encode order = .ok payload →
      spelling (slotArray slot) payload)
    (written : array.encodeBody order = .ok bytes) : BodyLayout order spelling array bytes := by
  cases array with
  | numeric numericClass array => exact .numeric (layout_of_encodeParts written)
  | char array => exact .char (layout_of_encodeElement written)
  | sparse array => exact .sparse (layout_of_encodeSparse written).2
  | cell array => exact .cell (layout_of_writtenSlots spells written)
  | struct array =>
    obtain ⟨names, namesWritten, written⟩ := Outcome.bind_eq_ok.mp written
    obtain ⟨slots, slotsWritten, written⟩ := Outcome.bind_eq_ok.mp written
    obtain ⟨classPart, fieldPart, rfl, classWritten, short, fieldsWritten⟩ :=
      parts_of_encodeFieldNames namesWritten
    rw [← Outcome.pure_eq_ok.mp written, List.append_assoc]
    exact .struct (layout_of_writeClassName classWritten)
      (layout_of_writeFieldNames short fieldsWritten)
      (layout_of_writtenSlots
        (fun slot member => spells slot (mem_slots_of_mem_slotsByElement member)) slotsWritten)

theorem layout_of_encode_of_slots {array : MatArray}
    (spells : ∀ slot ∈ array.slots, ∀ payload, (slotArray slot).encode order = .ok payload →
      ArrayLayout order (slotArray slot) payload)
    (written : array.encode order = .ok bytes) : ArrayLayout order array bytes := by
  obtain ⟨head, body, rfl, headWritten, bodyWritten⟩ := MatArray.parts_of_encode written
  exact .intro (layout_of_encodeHead headWritten).2.2 (layout_of_encodeBody spells bodyWritten)

/-- The writer spells an array in one of the ways there are. -/
theorem layout_of_encode {array : MatArray} (written : array.encode order = .ok bytes) :
    ArrayLayout order array bytes := by
  induction array using MatArray.tree_induction generalizing bytes with
  | step array inductionHypothesis =>
    refine layout_of_encode_of_slots (fun slot member payload payloadWritten => ?_) written
    cases slot with
    | none => exact layout_of_encode_of_slots nofun payloadWritten
    | some child =>
      exact inductionHypothesis child ((MatArray.mem_children array child).mpr member)
        payloadWritten

end MatFormat
