/-
This file takes the payload of a written array apart. It is a head and what follows it; slots
are matrix elements one after the other, and what is written for an unset slot is an array of
its own. The slots of a struct array lie element by element and are dealt to the fields again,
and the names of its fields stand behind their length.
-/

import MatFormat.Proofs.Interleave
import MatFormat.Proofs.Matrix.Head

namespace MatFormat

variable {order : ByteOrder}

/-! ### Slots -/

theorem encodeMatrixElement_eq (payload : List UInt8) :
    encodeMatrixElement order payload = encodeElement order .matrix payload := by
  have normal : ¬ (1 ≤ payload.length ∧ payload.length ≤ packedLimit ∧
      DataType.matrix.isPrimitive = true) := fun packs => absurd packs.2.2 Bool.false_ne_true
  rw [encodeElement, if_neg normal]
  rfl

theorem encodeSlots_eq_map (slots : List (Option MatArray)) :
    encodeSlots order slots = slots.map (encodeSlot order) := by
  induction slots with
  | nil => rw [encodeSlots, List.map_nil]
  | cons slot rest inductionHypothesis => rw [encodeSlots, inductionHypothesis, List.map_cons]

theorem encodeFields_eq_map (fields : List (Field MatArray)) :
    encodeFields order fields = fields.map fun field => field.slots.map (encodeSlot order) := by
  induction fields with
  | nil => rw [encodeFields, List.map_nil]
  | cons field rest inductionHypothesis =>
    rw [encodeFields, inductionHypothesis, encodeSlots_eq_map, List.map_cons]

/-- The array that is written for a slot. -/
def slotArray : Option MatArray → MatArray
  | none => .numeric .double unsetArray
  | some array => array

theorem encodeSlot_eq (slot : Option MatArray) :
    encodeSlot order slot =
      ((slotArray slot).encode order >>= fun payload => encodeElement order .matrix payload) := by
  cases slot with
  | none => simp only [encodeSlot, encodeUnset, slotArray, MatArray.encode, encodeMatrixElement_eq]
  | some array => simp only [encodeSlot, slotArray, encodeMatrixElement_eq]

/-- What is written for a slot is kept in the slot. -/
theorem keptSlot_eq (slot : Option MatArray) :
    MatArray.keptSlot slot = (slotArray slot).kept.toSlot := by
  cases slot with
  | none => rw [MatArray.keptSlot_none, slotArray, MatArray.kept_eq]; rfl
  | some array => rw [MatArray.keptSlot_some, slotArray]

theorem joinParts_cons_eq_ok {part : Except Error (List UInt8)}
    {parts : List (Except Error (List UInt8))} {bytes : List UInt8} :
    joinParts (part :: parts) = .ok bytes ↔
      ∃ front back : List UInt8, bytes = front ++ back ∧ part = .ok front ∧
        joinParts parts = .ok back := by
  rw [joinParts, Outcome.bind_eq_ok]
  constructor
  · rintro ⟨front, frontWritten, written⟩
    obtain ⟨back, backWritten, written⟩ := Outcome.bind_eq_ok.mp written
    exact ⟨front, back, (Outcome.pure_eq_ok.mp written).symm, frontWritten, backWritten⟩
  · rintro ⟨front, back, rfl, frontWritten, backWritten⟩
    exact ⟨front, frontWritten, by rw [Outcome.bind_of_ok backWritten]; rfl⟩

theorem Cursor.checkSlots_of_le {cursor : Cursor} {count : Nat}
    (enough : count * tagSize ≤ cursor.remaining) : cursor.checkSlots count = .ok () := by
  have needed : ¬ cursor.remaining < saturatingProduct count tagSize :=
    Nat.not_lt.mpr ((Nat.min_le_left _ _).trans enough)
  rw [checkSlots, if_neg needed]

/-! ### The names of fields -/

theorem foldl_max_le {Item : Type} (measure : Item → Nat) (items : List Item) (start bound : Nat) :
    items.foldl (fun longest item => max longest (measure item)) start ≤ bound ↔
      start ≤ bound ∧ ∀ item ∈ items, measure item ≤ bound := by
  induction items generalizing start with
  | nil => simp
  | cons item rest inductionHypothesis =>
    rw [List.foldl_cons, inductionHypothesis, Nat.max_le, List.forall_mem_cons, and_assoc]

theorem longestName_le (names : List String) (bound : Nat) :
    longestName names ≤ bound ↔ ∀ name ∈ names, nameLength name ≤ bound := by
  rw [longestName, foldl_max_le]
  exact and_iff_right (Nat.zero_le bound)

theorem nameLength_le_longestName {names : List String} {name : String} (member : name ∈ names) :
    nameLength name ≤ longestName names :=
  (longestName_le names _).mp (Nat.le_refl _) name member

theorem length_paddedName {length : Nat} {name : String} (fits : nameLength name ≤ length) :
    (paddedName length name).length = length := by
  unfold nameLength at fits
  rw [paddedName, List.length_append, List.length_replicate]
  omega

/-- The names of the fields are a length and one slot of that length for each name. -/
def writeFieldNames (order : ByteOrder) (fieldNames : List String) : Except Error (List UInt8) := do
  let length := longestName fieldNames + 1
  let lengths ← encodeValues order .int32 [BitVec.ofNat _ length]
  let names ← encodeElement order .int8 (fieldNames.flatMap (paddedName length))
  pure (lengths ++ names)

/-- The name of the class of an object is an element, and a struct array has none. -/
def writeClassName (order : ByteOrder) : Option String → Except Error (List UInt8)
  | none => .ok []
  | some className => encodeName order className

/-- The name of the class and the names of the fields are written one after the other, unless
a field name is longer than the limit. -/
theorem encodeFieldNames_eq (name : String) (className : Option String)
    (fieldNames : List String) :
    encodeFieldNames order name className fieldNames =
      (writeClassName order className >>= fun classPart =>
        match fieldNames.find? fun fieldName => decide (fieldNameLimit < nameLength fieldName) with
        | some fieldName => .error (.invalidArray name (.longFieldName fieldName fieldNameLimit))
        | none =>
          writeFieldNames order fieldNames >>= fun fieldPart => .ok (classPart ++ fieldPart)) := by
  have behind (classPart : List UInt8) :
      (writeFieldNames order fieldNames >>= fun fieldPart => .ok (classPart ++ fieldPart)) = (do
        let lengths ← encodeValues order .int32 [BitVec.ofNat _ (longestName fieldNames + 1)]
        let names ← encodeElement order .int8
          (fieldNames.flatMap (paddedName (longestName fieldNames + 1)))
        pure (classPart ++ lengths ++ names)) := by
    simp only [writeFieldNames, bind_assoc, pure_bind, List.append_assoc]
    rfl
  unfold encodeFieldNames
  simp only [behind]
  cases fieldNames.find? fun fieldName => decide (fieldNameLimit < nameLength fieldName) <;>
    cases className <;> rfl

/-- Field names that could be written are no longer than the limit. -/
theorem parts_of_encodeFieldNames {name : String} {className : Option String}
    {fieldNames : List String} {bytes : List UInt8}
    (written : encodeFieldNames order name className fieldNames = .ok bytes) :
    ∃ classPart fieldPart : List UInt8, bytes = classPart ++ fieldPart ∧
      writeClassName order className = .ok classPart ∧
      longestName fieldNames ≤ fieldNameLimit ∧
      writeFieldNames order fieldNames = .ok fieldPart := by
  rw [encodeFieldNames_eq] at written
  obtain ⟨classPart, classWritten, written⟩ := Outcome.bind_eq_ok.mp written
  cases found : fieldNames.find? fun fieldName =>
    decide (fieldNameLimit < nameLength fieldName) with
  | some fieldName =>
    rw [found] at written
    cases written
  | none =>
    rw [found] at written
    obtain ⟨fieldPart, fieldsWritten, written⟩ := Outcome.bind_eq_ok.mp written
    refine ⟨classPart, fieldPart, (Except.ok.inj written).symm, classWritten, ?_, fieldsWritten⟩
    rw [longestName_le]
    intro fieldName member
    have within := List.find?_eq_none.mp found fieldName member
    exact Nat.le_of_not_lt fun longer => within (decide_eq_true longer)

/-! ### Structs and objects -/

/-- The slots of fields element by element. -/
def slotsByElement (array : StructArray MatArray) : List (Option MatArray) :=
  interleave (Cursor.slotRounds array.info array.fieldNames) (array.fields.map Field.slots)

theorem slotRounds_eq (array : StructArray MatArray) :
    Cursor.slotRounds array.info array.fieldNames =
      if array.fields.isEmpty then 0 else array.info.shape.count := by
  rw [Cursor.slotRounds, StructArray.fieldNames, List.isEmpty_map]

theorem length_slots_eq_rounds {array : StructArray MatArray}
    (shaped : ∀ field ∈ array.fields, field.slots.length = array.info.shape.count) :
    ∀ slots ∈ array.fields.map Field.slots,
      slots.length = Cursor.slotRounds array.info array.fieldNames := by
  intro slots member
  obtain ⟨field, fieldMember, rfl⟩ := List.mem_map.mp member
  have filled : array.fields.isEmpty = false := List.isEmpty_eq_false_iff_exists_mem.mpr
    ⟨field, fieldMember⟩
  rw [slotRounds_eq, filled, shaped field fieldMember]
  rfl

theorem length_slotsByElement {array : StructArray MatArray}
    (shaped : ∀ field ∈ array.fields, field.slots.length = array.info.shape.count) :
    (slotsByElement array).length =
      Cursor.slotRounds array.info array.fieldNames * array.fieldNames.length := by
  rw [slotsByElement, length_interleave (length_slots_eq_rounds shaped), List.length_map,
    StructArray.fieldNames, List.length_map]

theorem mem_slots_of_mem_slotsByElement {array : StructArray MatArray} {slot : Option MatArray}
    (member : slot ∈ slotsByElement array) : slot ∈ (MatArray.struct array).slots := by
  obtain ⟨pile, pileMember, slotMember⟩ := mem_of_mem_interleave member
  obtain ⟨field, fieldMember, rfl⟩ := List.mem_map.mp pileMember
  exact List.mem_flatMap.mpr ⟨field, fieldMember, slotMember⟩

theorem mem_slotsByElement {array : StructArray MatArray}
    (shaped : ∀ field ∈ array.fields, field.slots.length = array.info.shape.count)
    {slot : Option MatArray} (member : slot ∈ (MatArray.struct array).slots) :
    slot ∈ slotsByElement array := by
  obtain ⟨field, fieldMember, slotMember⟩ := List.mem_flatMap.mp member
  exact mem_interleave_of_mem (length_slots_eq_rounds shaped)
    (List.mem_map.mpr ⟨field, fieldMember, rfl⟩) slotMember

/-- Dealing the kept slots gives every field its own again. -/
theorem zipWith_deal_kept {array : StructArray MatArray}
    (shaped : ∀ field ∈ array.fields, field.slots.length = array.info.shape.count) :
    List.zipWith Field.mk (array.fieldNames.map cutName)
        (deal array.fieldNames.length (Cursor.slotRounds array.info array.fieldNames)
          ((slotsByElement array).map MatArray.keptSlot)) =
      array.fields.map fun field =>
        ⟨cutName field.name, field.slots.map MatArray.keptSlot⟩ := by
  have even : ∀ slots ∈ (array.fields.map Field.slots).map (List.map MatArray.keptSlot),
      slots.length = Cursor.slotRounds array.info array.fieldNames := by
    intro slots member
    obtain ⟨whole, wholeMember, rfl⟩ := List.mem_map.mp member
    rw [List.length_map]
    exact length_slots_eq_rounds shaped whole wholeMember
  have dealt := deal_interleave even
  rw [List.length_map, List.length_map] at dealt
  rw [slotsByElement, ← interleave_map, StructArray.fieldNames, List.length_map]
  rw [StructArray.fieldNames] at dealt
  rw [dealt, List.map_map, List.map_map, List.zipWith_map, List.zipWith_self]
  rfl

/-! ### The parts of a payload -/

/-- What is written after the head of an array. -/
def MatArray.encodeBody (order : ByteOrder) : MatArray → Except Error (List UInt8)
  | .numeric numericClass array => encodeParts order numericClass array.real array.imag
  | .char array => encodeValues order .uint16 array.units
  | .cell array => joinParts (array.cells.map (encodeSlot order))
  | .struct array => do
    let names ← encodeFieldNames order array.info.name array.className array.fieldNames
    let slots ← joinParts ((slotsByElement array).map (encodeSlot order))
    pure (names ++ slots)
  | .sparse array => encodeSparse order array

/-- A payload is a head and what follows it. -/
theorem MatArray.encode_eq (array : MatArray) :
    array.encode order = (do
      let head ← encodeHead order array
      let body ← array.encodeBody order
      pure (head ++ body)) := by
  cases array with
  | numeric numericClass array => rw [encode]; rfl
  | char array => rw [encode]; rfl
  | sparse array => rw [encode]; rfl
  | cell array =>
    obtain ⟨info, cells⟩ := array
    rw [encode, encodeSlots_eq_map]
    rfl
  | struct array =>
    obtain ⟨info, className, fields⟩ := array
    have slots : interleave (if fields.isEmpty then 0 else info.shape.count)
        (encodeFields order fields) =
          (slotsByElement ⟨info, className, fields⟩).map (encodeSlot order) := by
      rw [slotsByElement, slotRounds_eq, encodeFields_eq_map, ← interleave_map, List.map_map]
      rfl
    rw [encode, encodeBody]
    dsimp only
    rw [slots]
    simp only [bind_assoc, pure_bind, List.append_assoc]
    rfl

theorem MatArray.parts_of_encode {array : MatArray} {payload : List UInt8}
    (written : array.encode order = .ok payload) :
    ∃ head body : List UInt8, payload = head ++ body ∧ encodeHead order array = .ok head ∧
      array.encodeBody order = .ok body := by
  rw [encode_eq] at written
  obtain ⟨head, headWritten, written⟩ := Outcome.bind_eq_ok.mp written
  obtain ⟨body, bodyWritten, written⟩ := Outcome.bind_eq_ok.mp written
  exact ⟨head, body, (Outcome.pure_eq_ok.mp written).symm, headWritten, bodyWritten⟩

end MatFormat
