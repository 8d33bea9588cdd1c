/-
This file proves that no part of a matrix ends between two multiples of eight bytes, however
it is spelled. Every element is padded in full, and a matrix is made of elements only, so the
payload of a matrix needs no padding of its own: the element of a written array ends where its
payload does.
-/

import MatFormat.Proofs.Matrix.RoundTrip

namespace MatFormat

/-- A run of bytes that is a whole number of words of eight bytes. -/
def Aligned (bytes : List UInt8) : Prop := bytes.length % 8 = 0

theorem Aligned.nil : Aligned [] := rfl

theorem Aligned.append {front back : List UInt8} (first : Aligned front) (second : Aligned back) :
    Aligned (front ++ back) := by
  unfold Aligned at *
  rw [List.length_append]
  omega

/-- What is padded to a multiple of eight needs no more padding. -/
theorem Aligned.paddingTo8_eq {bytes : List UInt8} (aligned : Aligned bytes) :
    paddingTo8 bytes.length = 0 := by
  rw [paddingTo8, aligned]

variable {order : ByteOrder} {bytes : List UInt8}

/-! ### Elements -/

theorem aligned_of_elementLayout {type : DataType} {payload : List UInt8}
    (layout : ElementLayout order type payload bytes) : Aligned bytes := by
  have limit : packedLimit = 4 := rfl
  have size : tagSize = 8 := rfl
  cases layout with
  | packed primitive positive filled =>
    rw [Aligned, List.length_append, List.length_append, order.length_encode]
    omega
  | normal fits padded =>
    rw [Aligned, List.length_append, List.length_append, length_tagBytes, padded, paddingTo8]
    omega

theorem aligned_of_integersLayout {numbers : List Int}
    (layout : IntegersLayout order numbers bytes) : Aligned bytes := by
  obtain ⟨_, _, _, _, _, _, spelled⟩ := layout
  exact aligned_of_elementLayout spelled

theorem aligned_of_valuesLayout {numericClass : NumericClass} {values : List numericClass.Value}
    (layout : ValuesLayout order numericClass values bytes) : Aligned bytes := by
  cases layout with
  | own spelled => exact aligned_of_elementLayout spelled
  | integers _ spelled => exact aligned_of_integersLayout spelled

/-! ### Parts of a payload -/

theorem aligned_of_headLayout {array : MatArray} (layout : HeadLayout order array bytes) :
    Aligned bytes := by
  obtain ⟨flagsSpelled, dimensionsSpelled, nameSpelled⟩ := layout
  exact (aligned_of_integersLayout flagsSpelled).append
    ((aligned_of_integersLayout dimensionsSpelled).append (aligned_of_elementLayout nameSpelled))

theorem aligned_of_partsLayout {numericClass : NumericClass} {real : List numericClass.Value}
    {imag : Option (List numericClass.Value)}
    (layout : PartsLayout order numericClass real imag bytes) : Aligned bytes := by
  cases layout with
  | real spelled => exact aligned_of_valuesLayout spelled
  | complex realSpelled imagSpelled =>
    exact (aligned_of_valuesLayout realSpelled).append (aligned_of_valuesLayout imagSpelled)

theorem aligned_of_sparseLayout {array : SparseArray} (layout : SparseLayout order array bytes) :
    Aligned bytes := by
  obtain ⟨rowsSpelled, pointersSpelled, valuesSpelled⟩ := layout
  exact (aligned_of_integersLayout rowsSpelled).append
    ((aligned_of_integersLayout pointersSpelled).append (aligned_of_partsLayout valuesSpelled))

theorem aligned_of_fieldNamesLayout {names : List String}
    (layout : FieldNamesLayout order names bytes) : Aligned bytes := by
  obtain ⟨lengthsSpelled, _, slotsSpelled⟩ := layout
  exact (aligned_of_integersLayout lengthsSpelled).append (aligned_of_elementLayout slotsSpelled)

theorem aligned_of_classNameLayout {className : Option String}
    (layout : ClassNameLayout order className bytes) : Aligned bytes := by
  cases layout with
  | struct => exact .nil
  | object spelled => exact aligned_of_elementLayout spelled

/-- Slots are aligned whatever is nested in them, because each is padded as an element. -/
theorem aligned_of_slotsLayout {spelling : MatArray → List UInt8 → Prop}
    {slots : List (Option MatArray)} (layout : SlotsLayout order spelling slots bytes) :
    Aligned bytes := by
  induction layout with
  | nil => exact .nil
  | cons _ spelled _ inductionHypothesis =>
    exact (aligned_of_elementLayout spelled).append inductionHypothesis

/-! ### Whole arrays -/

/-- However a matrix is spelled, its payload is aligned. -/
theorem aligned_of_arrayLayout {array : MatArray} (layout : ArrayLayout order array bytes) :
    Aligned bytes := by
  obtain ⟨headSpelled, bodySpelled⟩ := layout
  refine (aligned_of_headLayout headSpelled).append ?_
  cases bodySpelled with
  | numeric spelled => exact aligned_of_partsLayout spelled
  | char spelled => exact aligned_of_elementLayout spelled
  | sparse spelled => exact aligned_of_sparseLayout spelled
  | cell spelled => exact aligned_of_slotsLayout spelled
  | struct classSpelled namesSpelled slotsSpelled =>
    exact (aligned_of_classNameLayout classSpelled).append
      ((aligned_of_fieldNamesLayout namesSpelled).append (aligned_of_slotsLayout slotsSpelled))

/-- The element of an array is a tag and a payload without any padding. -/
theorem parts_of_element {array : MatArray} (written : array.element order = .ok bytes) :
    ∃ tag payload : List UInt8, bytes = tag ++ payload ∧
      encodeTag order .matrix payload.length = .ok tag := by
  rw [MatArray.element, encodeSlot] at written
  obtain ⟨payload, payloadWritten, written⟩ := Outcome.bind_eq_ok.mp written
  obtain ⟨tag, tagWritten, written⟩ := Outcome.bind_eq_ok.mp written
  refine ⟨tag, payload, ?_, tagWritten⟩
  have aligned := aligned_of_arrayLayout (layout_of_encode payloadWritten)
  rw [← Outcome.pure_eq_ok.mp written, aligned.paddingTo8_eq]
  exact List.append_nil _

end MatFormat
