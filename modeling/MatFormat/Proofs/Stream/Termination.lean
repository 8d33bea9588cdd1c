/-
This file proves that reading comes to its end on any bytes. A stream and the inflated content of
a compressed element go on only behind a matrix or a compressed element, which takes eight bytes;
what is nested in a matrix is shorter than it by a level. So each of these recursions is over
after as many turns as the bytes allow, whatever would happen beyond them, and the bounds that
the readers count down are never what ends them.
-/

import MatFormat.Proofs.Matrix.Nesting
import MatFormat.Proofs.Stream.Run

namespace MatFormat

variable {inflate : Inflater} {wanted : String → Bool}

/-! ### Inflated streams -/

namespace Cursor

/-- Read the next matrix of an inflated stream with a reader for those after it. -/
def inflatedStep (wanted : String → Bool)
    (others : Cursor → Reading (List MatArray × Option Error)) (cursor : Cursor) :
    Reading (List MatArray × Option Error) :=
  if cursor.atEnd then pure ([], none)
  else do
    match ← (cursor.inflatedMatrix wanted).attempt with
    | .error error => pure ([], some error)
    | .ok (array, cursor) =>
      let (arrays, failure) ← others cursor
      pure (array.toList ++ arrays, failure)

/-- A matrix of an inflated stream takes eight bytes. -/
theorem tagSize_le_of_inflatedMatrix {cursor rest : Cursor} {slot : Option MatArray}
    (read : (cursor.inflatedMatrix wanted).result = .ok (slot, rest)) :
    rest.remaining + tagSize ≤ cursor.remaining := by
  obtain ⟨⟨element, afterElement⟩, elementRead, read⟩ := Reading.result_bind_eq_ok.mp read
  dsimp only at read
  split at read
  · cases read
  · rename_i isMatrix
    obtain ⟨found, _, read⟩ := Reading.result_bind_eq_ok.mp read
    cases read
    exact (takes_of_element elementRead).tagSize_le (.inl (not_not.mp isMatrix))

theorem descends_inflatedStep : Descends (inflatedStep wanted) remaining tagSize := by
  intro cursor first second agree
  unfold inflatedStep
  split
  · rfl
  · refine Reading.bind_congr_of_ok fun outcome attempted => ?_
    cases outcome with
    | error error => rfl
    | ok read =>
      obtain ⟨slot, rest⟩ := read
      dsimp only
      rw [agree rest (tagSize_le_of_inflatedMatrix (Except.ok.inj attempted))]

/-- Reading an inflated stream ends before its bytes do. -/
theorem endsWithin_inflatedMatrices {cursor : Cursor} {bound : Nat}
    (covered : cursor.remaining ≤ bound) :
    EndsWithin (inflatedStep wanted) (cursor.remaining / tagSize + 1) cursor
      (inflatedMatrices wanted bound cursor) := by
  have enough : cursor.remaining < tagSize * (cursor.remaining / tagSize + 1) :=
    Nat.lt_mul_div_succ _ (by decide)
  have ends : EndsWithin (inflatedStep wanted) (bound + 1) cursor
      (inflatedMatrices wanted bound cursor) := by
    refine descends_inflatedStep.endsWithin_counted (by decide) (fun _ => rfl) ?_
      (show cursor.remaining ≤ bound + 0 from covered)
    exact fun _ none _ => if_pos (atEnd_iff.mpr (Nat.le_zero.mp none))
  exact descends_inflatedStep.endsWithin ends enough

end Cursor

/-! ### Streams -/

namespace ArrayStream

/-- Yield the next item, with a reader for the streams after the next element. -/
def nextStep (inflate : Inflater) (cancelled : Bool) (wanted : String → Bool)
    (later : ArrayStream → Reading (Option (Except Error MatArray) × ArrayStream)) :
    ArrayStream → Reading (Option (Except Error MatArray) × ArrayStream)
  | ⟨array :: ready, continuation⟩ => pure (some (.ok array), ⟨ready, continuation⟩)
  | ⟨[], .failing error⟩ => pure (some (.error error), ended)
  | ⟨[], .ended⟩ => pure (none, ended)
  | ⟨[], .reading cursor⟩ => do
    let stream ← advance inflate cursor cancelled wanted
    later stream

/-- Collect all arrays, with a reader for the streams after the next element. -/
def arraysStep (inflate : Inflater) (wanted : String → Bool)
    (later : ArrayStream → Reading (List MatArray)) : ArrayStream → Reading (List MatArray)
  | ⟨_, .failing error⟩ => throw error
  | ⟨ready, .ended⟩ => pure ready
  | ⟨ready, .reading cursor⟩ => do
    let stream ← advance inflate cursor false wanted
    let rest ← later stream
    pure (ready ++ rest)

/-- The bytes that a stream can still read, and eight more as long as it has not ended. -/
def span (stream : ArrayStream) : Nat :=
  match stream.continuation with
  | .reading cursor => cursor.remaining + tagSize
  | _ => 0

theorem span_le (stream : ArrayStream) : stream.span ≤ stream.bound + tagSize := by
  obtain ⟨ready, continuation⟩ := stream
  cases continuation with
  | reading cursor => exact Nat.le_refl _
  | failing error => exact Nat.zero_le _
  | ended => exact Nat.zero_le _

/-- A stream that goes on has read an element of eight bytes. -/
theorem span_of_advance {cursor : Cursor} {cancelled : Bool} {stream : ArrayStream}
    (read : (advance inflate cursor cancelled wanted).result = .ok stream) :
    stream.span + tagSize ≤ cursor.remaining + tagSize := by
  rw [result_advance, result_topLevel] at read
  obtain ⟨ready, continuation⟩ := stream
  cases continuation with
  | reading rest =>
    obtain ⟨element, elementRead, kind⟩ :=
      exists_element_of_elementStream (eq_ok_of_following (Except.ok.inj read))
    exact Nat.add_le_add_right ((Cursor.takes_of_element elementRead).tagSize_le kind) tagSize
  | failing error => exact Nat.add_le_add_right (Nat.zero_le _) tagSize
  | ended => exact Nat.add_le_add_right (Nat.zero_le _) tagSize

theorem descends_nextStep (cancelled : Bool) (wanted : String → Bool) :
    Descends (nextStep inflate cancelled wanted) span tagSize := by
  rintro ⟨_ | ⟨array, ready⟩, continuation⟩ first second agree
  · cases continuation with
    | failing error | ended => rfl
    | reading cursor =>
      exact Reading.bind_congr_of_ok fun stream read => agree stream (span_of_advance read)
  · rfl

theorem descends_arraysStep (wanted : String → Bool) :
    Descends (arraysStep inflate wanted) span tagSize := by
  rintro ⟨ready, continuation⟩ first second agree
  cases continuation with
  | failing error | ended => rfl
  | reading cursor =>
    refine Reading.bind_congr_of_ok fun stream read => ?_
    rw [agree stream (span_of_advance read)]

/-- A recursion over streams that counts its turns down ends before the bytes do. -/
theorem endsWithin_bound {Output : Type} {step : (ArrayStream → Output) → ArrayStream → Output}
    (descends : Descends step span tagSize) {counted : Nat → ArrayStream → Output}
    (next : ∀ count, counted (count + 1) = step (counted count))
    (last : ∀ stream, stream.span ≤ tagSize → EndsWithin step 2 stream (counted 0 stream))
    (stream : ArrayStream) :
    EndsWithin step (stream.bound / tagSize + 2) stream (counted stream.bound stream) := by
  refine descends.endsWithin (descends.endsWithin_counted (by decide) next last stream.span_le) ?_
  have longest := stream.span_le
  unfold tagSize at *
  omega

/-- An empty cursor ends a stream. -/
theorem advance_of_span_le {ready : List MatArray} {cursor : Cursor}
    (empty : span ⟨ready, .reading cursor⟩ ≤ tagSize) (cancelled : Bool) (wanted : String → Bool) :
    advance inflate cursor cancelled wanted = pure ended := by
  refine if_pos (Cursor.atEnd_iff.mpr ?_)
  exact Nat.le_zero.mp (Nat.le_of_add_le_add_right (empty.trans_eq (Nat.zero_add _).symm))

/-- Asking a stream for an item ends before its bytes do. -/
theorem endsWithin_next (inflate : Inflater) (stream : ArrayStream) (cancelled : Bool)
    (wanted : String → Bool) :
    EndsWithin (nextStep inflate cancelled wanted) (stream.bound / tagSize + 2) stream
      (stream.next inflate cancelled wanted) := by
  refine endsWithin_bound (descends_nextStep cancelled wanted) (fun bound => ?_) ?_ stream
  · funext ⟨ready, continuation⟩
    cases ready <;> cases continuation <;> rfl
  · rintro ⟨_ | ⟨array, ready⟩, continuation⟩ empty beyond
    · cases continuation with
      | failing error | ended => rfl
      | reading cursor =>
        change (advance inflate cursor cancelled wanted >>=
          nextStep inflate cancelled wanted beyond) = _
        rw [advance_of_span_le empty]
        rfl
    · rfl

/-- Collecting the arrays of a stream ends before its bytes do. -/
theorem endsWithin_arrays (inflate : Inflater) (stream : ArrayStream) (wanted : String → Bool) :
    EndsWithin (arraysStep inflate wanted) (stream.bound / tagSize + 2) stream
      (stream.arrays inflate wanted) := by
  refine endsWithin_bound (descends_arraysStep wanted) (fun bound => ?_) ?_ stream
  · funext ⟨ready, continuation⟩
    cases continuation <;> rfl
  · rintro ⟨ready, continuation⟩ empty beyond
    cases continuation with
    | failing error | ended => rfl
    | reading cursor =>
      change (advance inflate cursor false wanted >>= fun stream =>
        arraysStep inflate wanted beyond stream >>= fun rest => pure (ready ++ rest)) = _
      rw [advance_of_span_le empty]
      change pure (ready ++ []) = _
      rw [List.append_nil]
      rfl

end ArrayStream

/-- Reading ends on any bytes. Every element takes at least five bytes, or eight if it is a matrix
or compressed, and its payload stands inside them, behind its tag. So what is nested in a matrix,
the matrices of an inflated stream and the elements of a file are each read in as many turns as
their bytes allow, and an array that was read is no deeper than there is room in its payload. -/
theorem reading_ends :
    (∀ (cursor rest : Cursor) (element : Element), cursor.element.result = .ok (element, rest) →
      cursor.Takes element rest ∧
      element.payload.remaining + rest.remaining < cursor.remaining ∧
      rest.remaining + 5 ≤ cursor.remaining ∧
      (element.tag.type = .matrix ∨ element.tag.type = .compressed →
        rest.remaining + 8 ≤ cursor.remaining)) ∧
    (∀ (payload : Cursor) (depth : Nat), payload.remaining ≤ depth →
      EndsWithin Cursor.nestedStep (payload.remaining / 32 + 1) payload
        (Cursor.nestedMatrix depth payload)) ∧
    (∀ (payload : Cursor) (wanted : String → Bool) (beyond : Cursor → Reading (Option MatArray)),
      Cursor.matrixStep (Cursor.nestedStep^[payload.remaining / 32] beyond) payload wanted =
        payload.matrix wanted) ∧
    (∀ (cursor : Cursor) (wanted : String → Bool) (bound : Nat), cursor.remaining ≤ bound →
      EndsWithin (Cursor.inflatedStep wanted) (cursor.remaining / 8 + 1) cursor
        (Cursor.inflatedMatrices wanted bound cursor)) ∧
    (∀ (inflate : Inflater) (stream : ArrayStream) (cancelled : Bool) (wanted : String → Bool),
      EndsWithin (ArrayStream.nextStep inflate cancelled wanted) (stream.bound / 8 + 2) stream
        (stream.next inflate cancelled wanted)) ∧
    (∀ (inflate : Inflater) (stream : ArrayStream) (wanted : String → Bool),
      EndsWithin (ArrayStream.arraysStep inflate wanted) (stream.bound / 8 + 2) stream
        (stream.arrays inflate wanted)) ∧
    (∀ (payload : Cursor) (array : MatArray),
      (∃ wanted, (payload.matrix wanted).result = .ok (some array)) ∨
        (∃ depth, (Cursor.nestedMatrix depth payload).result = .ok (some array)) →
      32 * (array.depth - 1) < payload.remaining) := by
  refine ⟨fun cursor rest element read => ?_, fun payload depth covered => ?_,
    Cursor.matrixStep_endsWithin,
    fun cursor wanted bound covered => Cursor.endsWithin_inflatedMatrices covered,
    ArrayStream.endsWithin_next, ArrayStream.endsWithin_arrays, ?_⟩
  · have takes := Cursor.takes_of_element read
    exact ⟨takes, (Cursor.payload_add_remaining_of_element read).2, takes.five_le,
      takes.tagSize_le⟩
  · exact Cursor.endsWithin_nestedMatrix covered (Nat.lt_mul_div_succ _ (by decide))
  · rintro payload array (⟨wanted, read⟩ | ⟨depth, read⟩)
    · exact Cursor.givesShallow_matrix wanted payload array read
    · exact Cursor.givesShallow_nestedMatrix depth payload array read

/-- A cell that holds an empty array of cells. -/
def cellInCell : Cursor :=
  .ofBytes [6, 0, 0, 0, 8, 0, 0, 0, 1, 0, 0, 0, 0, 0, 0, 0,
    5, 0, 0, 0, 8, 0, 0, 0, 1, 0, 0, 0, 1, 0, 0, 0, 1, 0, 1, 0, 99, 0, 0, 0,
    14, 0, 0, 0, 40, 0, 0, 0, 6, 0, 0, 0, 8, 0, 0, 0, 1, 0, 0, 0, 0, 0, 0, 0,
    5, 0, 0, 0, 8, 0, 0, 0, 0, 0, 0, 0, 0, 0, 0, 0, 1, 0, 0, 0, 0, 0, 0, 0] .little

theorem reading_ends_cellInCell :
    ∃ array : MatArray, (cellInCell.matrix fun _ => true).result = .ok (some array) ∧
      array.depth = 2 ∧ 32 * (array.depth - 1) < cellInCell.remaining := by
  obtain ⟨array, read, depth⟩ : ∃ array : MatArray,
      (cellInCell.matrix fun _ => true).result = .ok (some array) ∧ array.depth = 2 := by
    refine ⟨_, rfl, ?_⟩
    rw [MatArray.depth_eq]
    change 1 + max (MatArray.depth _) 0 = 2
    rw [MatArray.depth_eq]
    rfl
  exact ⟨array, read, depth, reading_ends.2.2.2.2.2.2 cellInCell array (.inl ⟨_, read⟩)⟩

end MatFormat
