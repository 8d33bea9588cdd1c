/-
This file proves that the early check on the number of slots refuses nothing that could be read.
A slot is a matrix element, which takes eight bytes whatever is nested in it, so as many slots as
were read take eight bytes each. The check asks for no more than that: a product that is held at
the largest count is never above the product itself. Where the check passes, on the other hand,
nothing was held, because that count is more than any run of bytes has.
-/

import MatFormat.Checked.Arithmetic
import MatFormat.Proofs.Consumption
import MatFormat.Proofs.Matrix.Slots
import MatFormat.Proofs.Matrix.ValueCount

namespace MatFormat

namespace Cursor

variable {cursor rest : Cursor} {nested : Cursor → Reading (Option MatArray)}

/-! ### Bytes of slots -/

/-- A slot takes at least a tag, whatever the reader of nested matrices makes of its payload. -/
theorem tagSize_le_of_slot {slot : Option MatArray}
    (read : (cursor.slot nested).result = .ok (slot, rest)) :
    rest.remaining + tagSize ≤ cursor.remaining := by
  obtain ⟨⟨element, afterElement⟩, elementRead, read⟩ := Reading.result_bind_eq_ok.mp read
  obtain ⟨isMatrix, read⟩ := Reading.result_refusal_eq_ok.mp read
  obtain ⟨array, _, read⟩ := Reading.result_bind_eq_ok.mp read
  cases read
  exact (takes_of_element elementRead).tagSize_le (.inl (not_not.mp isMatrix))

/-- Slots that were read one after the other take as many tags. -/
theorem mul_tagSize_le_of_slots {count : Nat} {found : List (Option MatArray)}
    (read : (slots nested count cursor).result = .ok (found, rest)) :
    rest.remaining + count * tagSize ≤ cursor.remaining := by
  induction count generalizing cursor found with
  | zero =>
    cases read
    rw [Nat.zero_mul]
    exact Nat.le_refl _
  | succ count inductionHypothesis =>
    obtain ⟨⟨first, afterFirst⟩, firstRead, read⟩ := Reading.result_bind_eq_ok.mp read
    obtain ⟨⟨others, afterOthers⟩, othersRead, read⟩ := Reading.result_bind_eq_ok.mp read
    cases read
    have firstTaken := tagSize_le_of_slot firstRead
    have othersTaken := inductionHypothesis othersRead
    rw [Nat.succ_mul]
    omega

/-! ### The check -/

theorem checkSlots_eq_ok {count : Nat} :
    cursor.checkSlots count = .ok () ↔ saturatingProduct count tagSize ≤ cursor.remaining := by
  unfold checkSlots
  dsimp only
  split
  · rename_i missing
    exact ⟨nofun, fun enough => absurd missing (Nat.not_lt.mpr enough)⟩
  · rename_i enough
    exact ⟨fun _ => Nat.le_of_not_lt enough, fun _ => rfl⟩

/-- A product that is not held is exact, and one below the largest count is not held. -/
theorem saturatingProduct_eq {first second : Nat}
    (below : saturatingProduct first second < countLimit - 1) :
    saturatingProduct first second = first * second := by
  unfold saturatingProduct at *
  omega

/-- A check that passes tells that its slots have room in the bytes that are left. -/
theorem le_of_checkSlots {count : Nat} (short : cursor.remaining < Checked.allocationLimit)
    (passed : cursor.checkSlots count = .ok ()) :
    saturatingProduct count tagSize = count * tagSize ∧ count ≤ cursor.remaining / tagSize := by
  have enough := checkSlots_eq_ok.mp passed
  have limits : Checked.allocationLimit < countLimit - 1 := by decide
  have exact : saturatingProduct count tagSize = count * tagSize := saturatingProduct_eq (by omega)
  exact ⟨exact, (Nat.le_div_iff_mul_le (by decide)).mpr (exact ▸ enough)⟩

/-- So do the slots of all fields, the number of which is not held either. -/
theorem mul_le_of_checkSlots {rounds fields : Nat}
    (short : cursor.remaining < Checked.allocationLimit)
    (passed : cursor.checkSlots (saturatingProduct rounds fields) = .ok ()) :
    saturatingProduct rounds fields = rounds * fields ∧
      rounds * fields ≤ cursor.remaining / tagSize := by
  have fits := (le_of_checkSlots short passed).2
  have limits : Checked.allocationLimit < countLimit - 1 := by decide
  have exact : saturatingProduct rounds fields = rounds * fields :=
    saturatingProduct_eq (Nat.lt_of_le_of_lt (fits.trans (Nat.div_le_self _ _)) (by omega))
  exact ⟨exact, exact ▸ fits⟩

/-! ### Readers without the check -/

/-- Read the names and the slots of a struct array, however many there are said to be. -/
def namesAndFields (cursor : Cursor) (nested : Cursor → Reading (Option MatArray))
    (info : ArrayInfo) (className : Option String) : Reading (StructArray MatArray × Cursor) := do
  let (names, cursor) ← cursor.fieldNames
  cursor.fields nested info className names

/-- The cells that are read without the check are those that are read with it. -/
theorem cellBody_eq_ok_iff {info : ArrayInfo} {read : CellArray MatArray × Cursor} :
    (cursor.cellBody nested info).result = .ok read ↔
      (cursor.cells nested info).result = .ok read := by
  constructor
  · intro checked
    obtain ⟨_, _, unchecked⟩ := Reading.result_bind_eq_ok.mp checked
    exact unchecked
  · intro unchecked
    obtain ⟨⟨found, afterSlots⟩, slotsRead, _⟩ := Reading.result_bind_eq_ok.mp unchecked
    have taken := mul_tagSize_le_of_slots slotsRead
    rw [cellBody, Reading.result_lift_bind_of_ok (checkSlots_of_le (by omega))]
    exact unchecked

/-- So are the fields of a struct array. -/
theorem structBody_eq_ok_iff {info : ArrayInfo} {className : Option String}
    {read : StructArray MatArray × Cursor} :
    (cursor.structBody nested info className).result = .ok read ↔
      (cursor.namesAndFields nested info className).result = .ok read := by
  constructor
  · intro checked
    obtain ⟨names, namesRead, checked⟩ := Reading.result_bind_eq_ok.mp checked
    obtain ⟨_, _, unchecked⟩ := Reading.result_bind_eq_ok.mp checked
    exact Reading.result_bind_eq_ok.mpr ⟨names, namesRead, unchecked⟩
  · intro unchecked
    obtain ⟨⟨names, afterNames⟩, namesRead, unchecked⟩ := Reading.result_bind_eq_ok.mp unchecked
    obtain ⟨⟨found, afterSlots⟩, slotsRead, _⟩ := Reading.result_bind_eq_ok.mp unchecked
    have taken := mul_tagSize_le_of_slots slotsRead
    have held : saturatingProduct (slotRounds info names) names.length ≤
        slotRounds info names * names.length := Nat.min_le_left _ _
    have room := Nat.mul_le_mul_right tagSize held
    rw [structBody, Reading.result_bind_of_ok namesRead]
    dsimp only
    rw [Reading.result_lift_bind_of_ok (checkSlots_of_le (by omega))]
    exact unchecked

/-- The early check refuses nothing that could be read. Every slot takes eight bytes, so cells and
fields are read with the check exactly where they are read without it, to the same array and the
same place. Where the check passes, in a run of bytes that memory can hold, no product in it was
held at the largest count, and there are no more slots than eight bytes each leave room for. -/
theorem slotCheck_refuses_nothing (nested : Cursor → Reading (Option MatArray))
    (info : ArrayInfo) (cursor : Cursor) :
    (∀ (slot : Option MatArray) (rest : Cursor),
      (cursor.slot nested).result = .ok (slot, rest) → rest.remaining + 8 ≤ cursor.remaining) ∧
    (∀ read, (cursor.cellBody nested info).result = .ok read ↔
      (cursor.cells nested info).result = .ok read) ∧
    (∀ className read, (cursor.structBody nested info className).result = .ok read ↔
      (cursor.namesAndFields nested info className).result = .ok read) ∧
    (cursor.remaining < 2 ^ 63 →
      (cursor.checkSlots info.shape.count = .ok () →
        saturatingProduct info.shape.count 8 = info.shape.count * 8 ∧
          info.shape.count ≤ cursor.remaining / 8) ∧
      ∀ (names : List String) (rest : Cursor), cursor.fieldNames.result = .ok (names, rest) →
        rest.checkSlots (saturatingProduct (slotRounds info names) names.length) = .ok () →
        saturatingProduct (slotRounds info names) names.length =
            slotRounds info names * names.length ∧
          slotRounds info names * names.length ≤ rest.remaining / 8) := by
  refine ⟨fun slot rest read => tagSize_le_of_slot read, fun read => cellBody_eq_ok_iff,
    fun className read => structBody_eq_ok_iff, fun short => ⟨le_of_checkSlots short, ?_⟩⟩
  intro names rest namesRead passed
  have taken := pays_fieldNames cursor _ namesRead
  exact mul_le_of_checkSlots (Nat.lt_of_le_of_lt (Nat.le_of_add_left_le taken) short) passed

/-- The names of two fields, and the unset slots of two elements behind them. -/
def twoFields : Cursor :=
  .ofBytes ([5, 0, 4, 0, 2, 0, 0, 0, 1, 0, 4, 0, 97, 0, 98, 0] ++
    (List.replicate 4 [14, 0, 0, 0, 0, 0, 0, 0]).flatten) .little

/-- What is known of two elements in a column before their fields are. -/
def pairInfo : ArrayInfo := ⟨"", ⟨[2, 1, 1], by decide, by decide, by decide⟩, {}⟩

theorem slotCheck_refuses_nothing_twoFields :
    ∃ (names : List String) (rest afterSlot : Cursor) (slot : Option MatArray)
      (read : StructArray MatArray × Cursor),
      twoFields.fieldNames.result = .ok (names, rest) ∧
      (rest.slot (nestedMatrix 0)).result = .ok (slot, afterSlot) ∧
      afterSlot.remaining + 8 ≤ rest.remaining ∧
      saturatingProduct (slotRounds pairInfo names) names.length =
        slotRounds pairInfo names * names.length ∧
      slotRounds pairInfo names * names.length ≤ rest.remaining / 8 ∧
      (twoFields.structBody (nestedMatrix 0) pairInfo none).result = .ok read := by
  have check := slotCheck_refuses_nothing (nestedMatrix 0) pairInfo twoFields
  obtain ⟨exact, fits⟩ := (check.2.2.2 (by decide)).2 ["a", "b"] ⟨_, _, _⟩ rfl rfl
  exact ⟨["a", "b"], _, _, _, _, rfl, rfl,
    (slotCheck_refuses_nothing (nestedMatrix 0) pairInfo _).1 _ _ rfl, exact, fits,
    (check.2.2.1 none _).mpr rfl⟩

end Cursor

end MatFormat
