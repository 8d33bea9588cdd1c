/-
This file takes apart what reading an element consumes: the tag in front of the payload, the
payload, and the padding behind it, of which only the end of the bytes can cut something off.
A packed tag is four bytes long and has a payload, any other is eight bytes long, so no element
is shorter than five bytes, and none that cannot be packed is shorter than eight. Where bytes
follow, the padding is there in full, and every element has taken eight bytes.
-/

import MatFormat.Proofs.Cursor

namespace MatFormat

namespace Cursor

variable {cursor rest : Cursor}

/-! ### Bytes that are passed over -/

/-- A cursor that some bytes further on becomes another one. -/
structure Passes (cursor : Cursor) (passed : List UInt8) (rest : Cursor) : Prop where
  bytes : cursor.bytes = passed ++ rest.bytes
  offset : rest.offset = cursor.offset + passed.length
  order : rest.order = cursor.order

theorem Passes.trans {middle : Cursor} {front back : List UInt8}
    (first : cursor.Passes front middle) (second : middle.Passes back rest) :
    cursor.Passes (front ++ back) rest where
  bytes := by rw [first.bytes, second.bytes, List.append_assoc]
  offset := by rw [second.offset, first.offset, List.length_append, Nat.add_assoc]
  order := second.order.trans first.order

theorem Passes.remaining_eq {passed : List UInt8} (passes : cursor.Passes passed rest) :
    cursor.remaining = passed.length + rest.remaining := by
  rw [remaining, passes.bytes, List.length_append, remaining]

theorem passes_of_take {count : Nat} {taken : List UInt8}
    (read : cursor.take count = .ok (taken, rest)) :
    cursor.Passes taken rest ∧ taken.length = count := by
  obtain ⟨enough, rfl, rfl⟩ := take_eq_ok.mp read
  have length := List.length_take_of_le enough
  exact ⟨⟨(List.take_append_drop count cursor.bytes).symm, by rw [length], rfl⟩, length⟩

theorem passes_of_number {width value : Nat} (read : cursor.number width = .ok (value, rest)) :
    ∃ taken : List UInt8, cursor.Passes taken rest ∧ taken.length = width := by
  obtain ⟨⟨taken, afterNumber⟩, taking, read⟩ := Outcome.bind_eq_ok.mp read
  cases read
  exact ⟨taken, passes_of_take taking⟩

theorem passes_of_split {payload : Cursor} {count : Nat}
    (read : cursor.split count = .ok (payload, rest)) :
    cursor.Passes payload.bytes rest ∧ payload.remaining = count ∧
      payload.offset = cursor.offset ∧ payload.order = cursor.order := by
  obtain ⟨⟨taken, afterPayload⟩, taking, read⟩ := Outcome.bind_eq_ok.mp read
  cases read
  obtain ⟨passes, length⟩ := passes_of_take taking
  exact ⟨passes, length, rfl, rfl⟩

/-- What can be missing of the bytes to pass over is missing at the end only. -/
theorem passes_skipAtMost (cursor : Cursor) (count : Nat) :
    ∃ skipped : List UInt8, cursor.Passes skipped (cursor.skipAtMost count).2 ∧
      (skipped.length = count ∨ (cursor.skipAtMost count).2.remaining = 0) := by
  rw [skipAtMost, List.splitAt_eq]
  refine ⟨cursor.bytes.take count, ⟨(List.take_append_drop count cursor.bytes).symm, rfl, rfl⟩, ?_⟩
  dsimp only
  rw [remaining, List.length_drop, List.length_take]
  omega

/-! ### Tags -/

/-- The length of a tag in its form. The packed form is there for short payloads of numbers only. -/
inductive TagForm (tag : Tag) : (length : Nat) → Prop where
  | packed (packs : tag.packed = true) (primitive : tag.type.isPrimitive = true)
      (positive : 1 ≤ tag.size) (short : tag.size ≤ packedLimit) : TagForm tag 4
  | normal (unpacked : tag.packed = false) : TagForm tag tagSize

theorem passes_of_tag {tag : Tag} (read : cursor.tag = .ok (tag, rest)) :
    ∃ front : List UInt8, cursor.Passes front rest ∧ TagForm tag front.length := by
  obtain ⟨⟨word, afterWord⟩, wordRead, read⟩ := Outcome.bind_eq_ok.mp read
  obtain ⟨first, wordPassed, wordLength⟩ := passes_of_number wordRead
  dsimp only at read
  split at read
  · rename_i positive
    split at read
    · cases read
    · rename_i short
      split at read
      · cases read
      · split at read
        · cases read
        · rename_i primitive
          cases read
          refine ⟨first, wordPassed, ?_⟩
          rw [wordLength]
          exact .packed rfl (by simpa using primitive) (Nat.pos_of_ne_zero positive)
            (Nat.le_of_not_lt short)
  · obtain ⟨⟨size, afterSize⟩, sizeRead, read⟩ := Outcome.bind_eq_ok.mp read
    obtain ⟨second, sizePassed, sizeLength⟩ := passes_of_number sizeRead
    dsimp only at read
    split at read
    · cases read
    · cases read
      refine ⟨first ++ second, wordPassed.trans sizePassed, ?_⟩
      rw [List.length_append, wordLength, sizeLength]
      exact .normal rfl

/-! ### Elements -/

/-- An element as it stands in front of a cursor: its tag, its payload, and its padding as far as
there are bytes for it. -/
structure Takes (cursor : Cursor) (element : Element) (rest : Cursor) : Prop where
  whole : element.tag.size = element.payload.remaining
  parts : ∃ front padding : List UInt8,
    cursor.Passes (front ++ element.payload.bytes ++ padding) rest ∧
    element.payload.offset = cursor.offset + front.length ∧
    element.payload.order = cursor.order ∧
    TagForm element.tag front.length ∧
    (padding.length = element.tag.padding ∨ rest.remaining = 0)

/-- What is read as an element are its tag, its payload and its padding. -/
theorem takes_of_element {element : Element}
    (read : cursor.element.result = .ok (element, rest)) : cursor.Takes element rest := by
  rw [result_element] at read
  obtain ⟨⟨tag, afterTag⟩, tagRead, read⟩ := Outcome.bind_eq_ok.mp read
  obtain ⟨⟨payload, afterPayload⟩, payloadRead, read⟩ := Outcome.bind_eq_ok.mp read
  cases read
  obtain ⟨front, tagPassed, form⟩ := passes_of_tag tagRead
  obtain ⟨payloadPassed, whole, offset, order⟩ := passes_of_split payloadRead
  obtain ⟨padding, paddingPassed, full⟩ := passes_skipAtMost afterPayload tag.padding
  exact ⟨whole.symm, front, padding, (tagPassed.trans payloadPassed).trans paddingPassed,
    offset.trans tagPassed.offset, order.trans tagPassed.order, form, full⟩

variable {element : Element}

/-- An element takes at least five bytes, and its payload is shorter than what it takes. -/
theorem Takes.five_le (takes : cursor.Takes element rest) :
    rest.remaining + 5 ≤ cursor.remaining := by
  obtain ⟨whole, front, padding, passes, _, _, form, _⟩ := takes
  rw [passes.remaining_eq, List.length_append, List.length_append]
  change _ ≤ front.length + element.payload.remaining + padding.length + _
  have size : tagSize = 8 := rfl
  generalize front.length = length at form
  cases form <;> omega

/-- An element that cannot be packed takes its tag of eight bytes and its payload. -/
theorem Takes.of_not_primitive (takes : cursor.Takes element rest)
    (other : element.tag.type.isPrimitive = false) :
    rest.remaining + element.payload.remaining + 8 ≤ cursor.remaining := by
  obtain ⟨_, front, padding, passes, _, _, form, _⟩ := takes
  rw [passes.remaining_eq, List.length_append, List.length_append]
  change _ ≤ front.length + element.payload.remaining + padding.length + _
  have size : tagSize = 8 := rfl
  generalize front.length = length at form
  cases form with
  | packed packs primitive =>
    rw [other] at primitive
    cases primitive
  | normal => omega

/-- A matrix and a compressed element take at least eight bytes. -/
theorem Takes.tagSize_le (takes : cursor.Takes element rest)
    (kind : element.tag.type = .matrix ∨ element.tag.type = .compressed) :
    rest.remaining + tagSize ≤ cursor.remaining := by
  have other : element.tag.type.isPrimitive = false := by
    rcases kind with isMatrix | isCompressed
    · rw [isMatrix]
      rfl
    · rw [isCompressed]
      rfl
  have taken := takes.of_not_primitive other
  have size : tagSize = 8 := rfl
  omega

/-- An element that something follows has taken eight bytes. -/
theorem Takes.eight_le (takes : cursor.Takes element rest) (followed : 0 < rest.remaining) :
    rest.remaining + 8 ≤ cursor.remaining := by
  obtain ⟨whole, front, padding, passes, _, _, form, full⟩ := takes
  have filled := full.resolve_right (Nat.ne_of_gt followed)
  rw [passes.remaining_eq, List.length_append, List.length_append]
  change _ ≤ front.length + element.payload.remaining + padding.length + _
  have size : tagSize = 8 := rfl
  have limit : packedLimit = 4 := rfl
  generalize front.length = length at form
  cases form with
  | packed packs _ _ short =>
    rw [Tag.padding, if_pos packs] at filled
    omega
  | normal => omega

end Cursor

end MatFormat
