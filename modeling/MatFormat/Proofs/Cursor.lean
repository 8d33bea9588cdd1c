/-
This file says what reading takes from a cursor. Taking bytes leaves those after them, a tag
and with it every element takes at least one, and what an element is read to does not depend
on what is remarked about its padding.
-/

import MatFormat.Element
import MatFormat.Proofs.Outcome

namespace MatFormat

namespace Cursor

/-! ### Bytes -/

theorem atEnd_iff {cursor : Cursor} : cursor.atEnd = true ↔ cursor.remaining = 0 :=
  List.isEmpty_iff_length_eq_zero

theorem take_eq_ok {cursor rest : Cursor} {count : Nat} {taken : List UInt8} :
    cursor.take count = .ok (taken, rest) ↔
      count ≤ cursor.remaining ∧ taken = cursor.bytes.take count ∧
        rest = ⟨cursor.bytes.drop count, cursor.offset + count, cursor.order⟩ := by
  by_cases enough : count ≤ cursor.remaining
  · rw [take_of_le cursor count enough]
    constructor
    · rintro same
      cases same
      exact ⟨enough, rfl, rfl⟩
    · rintro ⟨_, rfl, rfl⟩
      rfl
  · rw [take_of_lt cursor count (Nat.lt_of_not_le enough)]
    constructor
    · nofun
    · rintro ⟨fits, _⟩
      exact absurd fits enough

theorem remaining_of_take {cursor rest : Cursor} {count : Nat} {taken : List UInt8}
    (read : cursor.take count = .ok (taken, rest)) :
    rest.remaining + count = cursor.remaining := by
  obtain ⟨enough, _, rfl⟩ := take_eq_ok.mp read
  rw [remaining, List.length_drop]
  exact Nat.sub_add_cancel enough

theorem remaining_of_number {cursor rest : Cursor} {width value : Nat}
    (read : cursor.number width = .ok (value, rest)) :
    rest.remaining + width = cursor.remaining := by
  obtain ⟨⟨taken, afterNumber⟩, taken, read⟩ := Outcome.bind_eq_ok.mp read
  cases read
  exact remaining_of_take taken

theorem remaining_of_split {cursor payload rest : Cursor} {count : Nat}
    (read : cursor.split count = .ok (payload, rest)) :
    rest.remaining + count = cursor.remaining := by
  obtain ⟨⟨taken, afterPayload⟩, taken, read⟩ := Outcome.bind_eq_ok.mp read
  cases read
  exact remaining_of_take taken

theorem length_of_split {cursor payload rest : Cursor} {count : Nat}
    (read : cursor.split count = .ok (payload, rest)) : payload.remaining = count := by
  obtain ⟨⟨taken, afterPayload⟩, taking, read⟩ := Outcome.bind_eq_ok.mp read
  obtain ⟨enough, rfl, _⟩ := take_eq_ok.mp taking
  cases read
  exact List.length_take_of_le enough

/-! ### Elements -/

theorem remaining_of_tag {cursor rest : Cursor} {tag : Tag}
    (read : cursor.tag = .ok (tag, rest)) : rest.remaining < cursor.remaining := by
  obtain ⟨⟨word, afterWord⟩, wordRead, read⟩ := Outcome.bind_eq_ok.mp read
  have wordTaken := remaining_of_number wordRead
  dsimp only at read
  split at read
  · split at read
    · cases read
    · split at read
      · cases read
      · split at read
        · cases read
        · cases read
          omega
  · obtain ⟨⟨size, afterSize⟩, sizeRead, read⟩ := Outcome.bind_eq_ok.mp read
    have sizeTaken := remaining_of_number sizeRead
    dsimp only at read
    split at read
    · cases read
    · cases read
      omega

theorem remaining_skipAtMost_le (cursor : Cursor) (count : Nat) :
    (cursor.skipAtMost count).2.remaining ≤ cursor.remaining := by
  rw [skipAtMost, List.splitAt_eq, remaining, List.length_drop]
  exact Nat.sub_le _ _

/-- What an element is read to, whatever is remarked. -/
theorem result_element (cursor : Cursor) :
    cursor.element.result = (do
      let (tag, cursor) ← cursor.tag
      let (payload, cursor) ← cursor.split tag.size
      pure (⟨tag, payload⟩, (cursor.skipAtMost tag.padding).2)) := by
  rw [element, Reading.result_bind]
  refine congrArg (cursor.tag >>= ·) (funext fun tagged => ?_)
  rw [Reading.result_bind]
  refine congrArg (tagged.2.split tagged.1.size >>= ·) (funext fun payload => ?_)
  exact Reading.result_noteIf _ _ _

/-- An element takes the bytes of its payload, as many as its tag says, and those of its tag. -/
theorem payload_add_remaining_of_element {cursor rest : Cursor} {element : Element}
    (read : cursor.element.result = .ok (element, rest)) :
    element.tag.size = element.payload.remaining ∧
      element.payload.remaining + rest.remaining < cursor.remaining := by
  rw [result_element] at read
  obtain ⟨⟨tag, afterTag⟩, tagRead, read⟩ := Outcome.bind_eq_ok.mp read
  obtain ⟨⟨payload, afterPayload⟩, payloadRead, read⟩ := Outcome.bind_eq_ok.mp read
  cases read
  have whole := length_of_split payloadRead
  have tagTaken := remaining_of_tag tagRead
  have payloadTaken := remaining_of_split payloadRead
  have padding := remaining_skipAtMost_le afterPayload tag.padding
  refine ⟨whole.symm, ?_⟩
  dsimp only
  omega

/-- Fewer bytes are left after an element than before it. -/
theorem remaining_of_element {cursor rest : Cursor} {element : Element}
    (read : cursor.element.result = .ok (element, rest)) : rest.remaining < cursor.remaining :=
  Nat.lt_of_le_of_lt (Nat.le_add_left _ _) (payload_add_remaining_of_element read).2

end Cursor

theorem not_atEnd_of_tagSize_le {cursor : Cursor} (filled : tagSize ≤ cursor.remaining) :
    ¬ cursor.atEnd = true := by
  rw [Cursor.atEnd_iff]
  exact Nat.ne_of_gt (Nat.lt_of_lt_of_le (by decide) filled)

end MatFormat
