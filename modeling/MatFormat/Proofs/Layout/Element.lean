/-
This file says which bytes spell an element. A payload of one to four bytes may stand in its
tag or behind a tag of two words, and the bytes of padding may be any. All these spellings are
read as the same element, up to its place and its form, and reading stops right behind them.
What the writer gives is one of them.
-/

import MatFormat.Proofs.Element

namespace MatFormat

/-- Bytes that spell an element of a type with a payload. -/
inductive ElementLayout (order : ByteOrder) (type : DataType) (payload : List UInt8) :
    List UInt8 → Prop where
  | packed {padding : List UInt8} (primitive : type.isPrimitive = true)
      (positive : 1 ≤ payload.length)
      (filled : payload.length + padding.length = packedLimit) :
      ElementLayout order type payload
        (order.encode 4 (payload.length * 65536 + type.code) ++ payload ++ padding)
  | normal {padding : List UInt8} (fits : payload.length < wordLimit)
      (padded : padding.length = paddingTo8 payload.length) :
      ElementLayout order type payload
        (tagBytes order type payload.length ++ payload ++ padding)

/-- An element of a type that holds a payload, wherever it stands. -/
structure Element.Holds (element : Element) (order : ByteOrder) (type : DataType)
    (payload : List UInt8) : Prop where
  type : element.tag.type = type
  size : element.tag.size = payload.length
  bytes : element.payload.bytes = payload
  order : element.payload.order = order

variable {order : ByteOrder} {type : DataType} {payload bytes : List UInt8}

theorem Element.Holds.payload_eq {element : Element}
    (holds : element.Holds order type payload) :
    element.payload = ⟨payload, element.payload.offset, order⟩ := by
  rw [← holds.bytes, ← holds.order]

/-- An element that stands alone. -/
def Element.single (order : ByteOrder) (type : DataType) (payload : List UInt8) : Element :=
  ⟨⟨type, payload.length, false⟩, ⟨payload, 0, order⟩⟩

theorem Element.holds_single (order : ByteOrder) (type : DataType) (payload : List UInt8) :
    (Element.single order type payload).Holds order type payload :=
  ⟨rfl, rfl, rfl, rfl⟩

/-- The bytes that the writer gives for an element: packed if the payload is a short one of a
primitive type, and otherwise behind a tag of two words, with padding in zeros. -/
inductive WrittenElement (order : ByteOrder) (type : DataType) (payload : List UInt8) :
    List UInt8 → Prop where
  | packed (primitive : type.isPrimitive = true) (positive : 1 ≤ payload.length)
      (short : payload.length ≤ packedLimit) :
      WrittenElement order type payload
        (order.encode 4 (payload.length * 65536 + type.code) ++ payload
          ++ List.replicate (packedLimit - payload.length) 0)
  | normal (unpacked : ¬ (1 ≤ payload.length ∧ payload.length ≤ packedLimit ∧
        type.isPrimitive = true)) (fits : payload.length < wordLimit) :
      WrittenElement order type payload
        (tagBytes order type payload.length ++ payload
          ++ List.replicate (paddingTo8 payload.length) 0)

theorem writtenElement_of_encodeElement (written : encodeElement order type payload = .ok bytes) :
    WrittenElement order type payload bytes := by
  unfold encodeElement at written
  dsimp only at written
  split at written
  · rename_i packs
    rw [← Except.ok.inj written]
    exact .packed packs.2.2 packs.1 packs.2.1
  · rename_i unpacked
    obtain ⟨tag, tagWritten, joined⟩ := Outcome.bind_eq_ok.mp written
    obtain ⟨fits, rfl⟩ := encodeTag_eq_ok.mp tagWritten
    rw [← Outcome.pure_eq_ok.mp joined]
    exact .normal unpacked fits

/-- A packed payload is filled up to a word. -/
theorem length_add_filling (short : payload.length ≤ packedLimit) :
    payload.length + (List.replicate (packedLimit - payload.length) (0 : UInt8)).length =
      packedLimit := by
  rw [List.length_replicate]
  exact Nat.add_sub_cancel' short

/-- The writer spells an element in one of these ways. -/
theorem layout_of_encodeElement (written : encodeElement order type payload = .ok bytes) :
    ElementLayout order type payload bytes := by
  cases writtenElement_of_encodeElement written with
  | packed primitive positive short => exact .packed primitive positive (length_add_filling short)
  | normal _ fits => exact .normal fits List.length_replicate

namespace Cursor

/-! ### Reading -/

/-- A packed element is read without a remark, up to the bytes behind its padding. -/
theorem reading_packed {padding : List UInt8} (primitive : type.isPrimitive = true)
    (positive : 1 ≤ payload.length) (filled : payload.length + padding.length = packedLimit)
    (rest : List UInt8) (offset : Nat) :
    Cursor.element ⟨order.encode 4 (payload.length * 65536 + type.code) ++ payload ++ padding
        ++ rest, offset, order⟩ =
      pure (⟨⟨type, payload.length, true⟩, ⟨payload, offset + 4, order⟩⟩,
        ⟨rest, offset + (order.encode 4 (payload.length * 65536 + type.code) ++ payload
          ++ padding).length, order⟩) := by
  have short : payload.length ≤ packedLimit := filled ▸ Nat.le_add_right _ _
  have read := reading_element_of_tag padding
    (tag_of_packed order type payload.length positive short primitive
      (payload ++ (padding ++ rest)) offset)
    rfl rfl (by rw [Tag.padding, if_pos rfl, ← filled, Nat.add_sub_cancel_left])
  simp only [List.append_assoc, List.length_append, order.length_encode] at read ⊢
  simpa only [Nat.add_assoc] using read

/-- So is an element that is not packed. -/
theorem reading_normal {padding : List UInt8} (fits : payload.length < wordLimit)
    (paddingLength : padding.length = paddingTo8 payload.length) (padded : type ≠ .compressed)
    (rest : List UInt8) (offset : Nat) :
    Cursor.element ⟨tagBytes order type payload.length ++ payload ++ padding ++ rest, offset,
        order⟩ =
      pure (⟨⟨type, payload.length, false⟩, ⟨payload, offset + tagSize, order⟩⟩,
        ⟨rest, offset + (tagBytes order type payload.length ++ payload ++ padding).length,
          order⟩) := by
  have written := encodeTag_of_lt order type fits
  have read := reading_element_of_tag padding
    (tag_of_written written (payload ++ (padding ++ rest)) offset)
    rfl rfl (by simp [Tag.padding, padded, paddingLength])
  simp only [List.append_assoc, List.length_append, length_encodeTag written] at read ⊢
  simpa only [Nat.add_assoc] using read

/-- However an element is spelled, it is read with its type and its payload, and reading stops
right behind its padding. Only a primitive type can be packed. -/
theorem element_of_layout (layout : ElementLayout order type payload bytes)
    (padded : type ≠ .compressed) (rest : List UInt8) (offset : Nat) :
    ∃ element : Element, element.Holds order type payload ∧
      (type.isPrimitive = false → element.tag.packed = false) ∧
      (Cursor.element ⟨bytes ++ rest, offset, order⟩).result =
        .ok (element, ⟨rest, offset + bytes.length, order⟩) := by
  cases layout with
  | packed primitive positive filled =>
    exact ⟨_, ⟨rfl, rfl, rfl, rfl⟩, fun other => absurd primitive (other ▸ Bool.false_ne_true),
      congrArg Reading.result (reading_packed primitive positive filled rest offset)⟩
  | normal fits paddingLength =>
    exact ⟨_, ⟨rfl, rfl, rfl, rfl⟩, fun _ => rfl,
      congrArg Reading.result (reading_normal fits paddingLength padded rest offset)⟩

end Cursor

/-! ### Lengths -/

/-- No spelled element is shorter than a tag. -/
theorem tagSize_le_of_layout (layout : ElementLayout order type payload bytes) :
    tagSize ≤ bytes.length := by
  have two : tagSize = 8 := rfl
  have limit : packedLimit = 4 := rfl
  cases layout with
  | packed primitive positive filled =>
    rw [List.length_append, List.length_append, order.length_encode]
    omega
  | normal fits padded =>
    rw [List.length_append, List.length_append, length_tagBytes]
    omega

/-- A spelled element that cannot be packed takes at least its tag and its payload. -/
theorem tagSize_add_le_of_layout (layout : ElementLayout order type payload bytes)
    (unpacked : type.isPrimitive = false) : tagSize + payload.length ≤ bytes.length := by
  have two : tagSize = 8 := rfl
  cases layout with
  | packed primitive => exact absurd primitive (unpacked ▸ Bool.false_ne_true)
  | normal fits padded =>
    rw [List.length_append, List.length_append, length_tagBytes]
    omega

end MatFormat
