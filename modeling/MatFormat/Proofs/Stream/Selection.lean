/-
This file proves that asking for some arrays gives those of all arrays. A matrix that is not
wanted is passed over and a wanted one is read as if everything were wanted, so the two
streams stay at the same place in the bytes. The stream of wanted arrays can only go on
where the other one stops at an error, which lies in an array that is not wanted.
-/

import MatFormat.Proofs.Stream.Run

namespace MatFormat

variable {inflate : Inflater} {wanted : String → Bool}

/-- Of some arrays those whose names are wanted. -/
def chosen (wanted : String → Bool) (arrays : List MatArray) : List MatArray :=
  arrays.filter fun array => wanted array.name

theorem chosen_append (first second : List MatArray) :
    chosen wanted (first ++ second) = chosen wanted first ++ chosen wanted second :=
  List.filter_append ..

/-! ### Matrices -/

namespace Cursor

theorem info_of_classBody {nested : Cursor → Reading (Option MatArray)} {cursor rest : Cursor}
    {arrayClass : ArrayClass} {info : ArrayInfo} {capacity : Nat} {array : MatArray}
    (read : (cursor.classBody nested arrayClass info capacity).result = .ok (array, rest)) :
    array.info = info := by
  have anything : Gives nested fun _ => True := fun _ _ _ => trivial
  cases arrayClass with
  | numeric numericClass =>
    obtain ⟨⟨array, afterBody⟩, body, read⟩ := Reading.result_bind_eq_ok.mp read
    cases read
    exact (of_numericBody body).1
  | char =>
    obtain ⟨⟨array, afterBody⟩, body, read⟩ := Reading.result_bind_eq_ok.mp read
    cases read
    exact (of_charBody body).1
  | sparse =>
    obtain ⟨⟨array, afterBody⟩, body, read⟩ := Reading.result_bind_eq_ok.mp read
    cases read
    exact (of_sparseBody body).1
  | cell =>
    obtain ⟨⟨array, afterBody⟩, body, read⟩ := Reading.result_bind_eq_ok.mp read
    cases read
    exact (of_cellBody anything body).1
  | struct =>
    obtain ⟨⟨array, afterBody⟩, body, read⟩ := Reading.result_bind_eq_ok.mp read
    cases read
    exact (of_structBody anything body).1
  | object =>
    obtain ⟨⟨array, afterBody⟩, body, read⟩ := Reading.result_bind_eq_ok.mp read
    cases read
    obtain ⟨⟨element, afterClass⟩, _, body⟩ := Reading.result_bind_eq_ok.mp body
    obtain ⟨className, _, body⟩ := Reading.result_bind_eq_ok.mp body
    exact (of_structBody anything body).1

/-- An array has the name in the head of its matrix. -/
theorem name_of_matrixBody {nested : Cursor → Reading (Option MatArray)} {cursor rest : Cursor}
    {head : MatrixHead} {array : MatArray}
    (read : (cursor.matrixBody nested head).result = .ok (array, rest)) :
    array.name = head.name := by
  unfold matrixBody at read
  split at read
  · cases read
  · split at read
    · cases read
    · exact congrArg ArrayInfo.name (info_of_classBody read)

/-- What the payload of a matrix is read to, whatever is remarked. -/
theorem result_matrix (payload : Cursor) :
    (payload.matrix wanted).result =
      if payload.atEnd then .ok none
      else (do
        let (head, cursor) ← payload.matrixHead.result
        if wanted head.name then
          let (array, _) ← (cursor.matrixBody (nestedMatrix cursor.remaining) head).result
          pure (some array)
        else pure none) := by
  unfold matrix
  split
  · rfl
  · rw [Reading.result_bind]
    refine congrArg (payload.matrixHead.result >>= ·) (funext fun read => ?_)
    dsimp only
    split
    · rw [Reading.result_bind]
      rfl
    · rfl

/-- Only arrays whose names are wanted are read. -/
theorem gives_wanted (wanted : String → Bool) :
    Gives (fun payload => payload.matrix wanted) fun array => wanted array.name = true := by
  intro payload array read
  dsimp only at read
  rw [result_matrix] at read
  split at read
  · cases read
  · obtain ⟨⟨head, afterHead⟩, _, read⟩ := Outcome.bind_eq_ok.mp read
    dsimp only at read
    split at read
    · rename_i asked
      obtain ⟨⟨found, afterBody⟩, body, read⟩ := Outcome.bind_eq_ok.mp read
      cases read
      rw [name_of_matrixBody body]
      exact asked
    · cases read

/-- An array that can be read is read if it is wanted, and passed over if it is not. -/
theorem matrix_of_all {payload : Cursor} {slot : Option MatArray}
    (read : (payload.matrix fun _ => true).result = .ok slot) :
    (payload.matrix wanted).result = .ok (slot.filter fun array => wanted array.name) := by
  rw [result_matrix] at read ⊢
  split at read
  · rename_i empty
    cases read
    rw [if_pos empty]
    rfl
  · rename_i filled
    obtain ⟨⟨head, afterHead⟩, headRead, read⟩ := Outcome.bind_eq_ok.mp read
    obtain ⟨⟨array, afterBody⟩, body, read⟩ := Outcome.bind_eq_ok.mp read
    cases read
    rw [if_neg filled, Outcome.bind_of_ok headRead]
    dsimp only
    cases asked : wanted head.name with
    | true =>
      rw [if_pos rfl, Outcome.bind_of_ok body, Option.filter_some, name_of_matrixBody body, asked]
      rfl
    | false =>
      rw [if_neg Bool.false_ne_true, Option.filter_some, name_of_matrixBody body, asked]
      rfl

end Cursor

/-! ### Everything a stream yields -/

/-- What is yielded of everything when only some arrays are wanted: those of them that come
before an error, and exactly those of them where there is no error. -/
structure Yield.Selects (wanted : String → Bool) (everything selected : Yield) : Prop where
  before : chosen wanted everything.arrays <+: selected.arrays
  complete : everything.failure = none →
    selected.failure = none ∧ selected.arrays = chosen wanted everything.arrays

namespace Yield

/-- Arrays that are ready before everything else are selected before everything else. -/
theorem Selects.after {everything selected : Yield} (selects : Selects wanted everything selected)
    (ready : List MatArray) :
    Selects wanted (everything.after ready) (selected.after (chosen wanted ready)) where
  before := by
    rw [Yield.after, Yield.after, chosen_append]
    exact (List.prefix_append_right_inj _).mpr selects.before
  complete := by
    intro fine
    obtain ⟨failure, arrays⟩ := selects.complete fine
    exact ⟨failure, by rw [Yield.after, Yield.after, chosen_append, arrays]⟩

end Yield

theorem chosen_toList (slot : Option MatArray) :
    (slot.filter fun array => wanted array.name).toList = chosen wanted slot.toList := by
  cases slot with
  | none => rfl
  | some array =>
    rw [Option.filter_some, chosen, Option.toList_some, List.filter_singleton]
    cases wanted array.name <;> rfl

namespace Cursor

theorem inflatedMatrix_of_all {cursor rest : Cursor} {slot : Option MatArray}
    (read : (cursor.inflatedMatrix fun _ => true).result = .ok (slot, rest)) :
    (cursor.inflatedMatrix wanted).result =
      .ok (slot.filter fun array => wanted array.name, rest) := by
  rw [result_inflatedMatrix] at read ⊢
  obtain ⟨⟨element, afterElement⟩, elementRead, read⟩ := Outcome.bind_eq_ok.mp read
  rw [Outcome.bind_of_ok elementRead]
  dsimp only at read ⊢
  split at read
  · cases read
  · rename_i matrix
    obtain ⟨found, matrixRead, read⟩ := Outcome.bind_eq_ok.mp read
    cases read
    rw [if_neg matrix, Outcome.bind_of_ok (matrix_of_all matrixRead)]
    rfl

theorem inflatedYield_selects (bound : Nat) (cursor : Cursor) :
    Yield.Selects wanted (inflatedYield (fun _ => true) bound cursor)
      (inflatedYield wanted bound cursor) := by
  induction bound generalizing cursor with
  | zero => exact ⟨List.prefix_refl _, fun _ => ⟨rfl, rfl⟩⟩
  | succ bound inductionHypothesis =>
    unfold inflatedYield
    split
    · exact ⟨List.prefix_refl _, fun _ => ⟨rfl, rfl⟩⟩
    · cases read : (cursor.inflatedMatrix fun _ => true).result with
      | error error =>
        exact ⟨List.nil_prefix, fun complete => absurd complete (Option.some_ne_none error)⟩
      | ok found =>
        obtain ⟨slot, rest⟩ := found
        rw [inflatedMatrix_of_all read]
        dsimp only
        rw [chosen_toList]
        exact (inductionHypothesis rest).after slot.toList

end Cursor

namespace ArrayStream

/-- Two streams that select: both go on at the same place or are ended, with the wanted ones
among the ready arrays, or the stream of all arrays is about to fail. -/
inductive Selects (wanted : String → Bool) : (everything selected : ArrayStream) → Prop where
  | reading (ready : List MatArray) (cursor : Cursor) :
    Selects wanted ⟨ready, .reading cursor⟩ ⟨chosen wanted ready, .reading cursor⟩
  | ended (ready : List MatArray) :
    Selects wanted ⟨ready, .ended⟩ ⟨chosen wanted ready, .ended⟩
  | failing (ready : List MatArray) (error : Error) (selected : ArrayStream)
    (before : chosen wanted ready <+: selected.ready) :
    Selects wanted ⟨ready, .failing error⟩ selected

theorem resumed_selects {everything selected : Yield}
    (selects : everything.Selects wanted selected) (cursor : Cursor) :
    Selects wanted (resumed everything cursor) (resumed selected cursor) := by
  obtain ⟨arrays, failure⟩ := everything
  cases failure with
  | none =>
    obtain ⟨noFailure, same⟩ := selects.complete rfl
    rw [resumed, resumed, noFailure, same]
    exact .reading arrays cursor
  | some error => exact .failing arrays error _ selects.before

/-- One element: the streams after it select if that of all arrays could be read. -/
theorem topLevel_selects (wanted : String → Bool) {cursor : Cursor} {everything : ArrayStream}
    (read : (cursor.topLevel inflate fun _ => true).result = .ok everything) :
    ∃ selected, (cursor.topLevel inflate wanted).result = .ok selected ∧
      everything.Selects wanted selected := by
  rw [result_topLevel] at read ⊢
  obtain ⟨⟨element, rest⟩, elementRead, read⟩ := Outcome.bind_eq_ok.mp read
  rw [elementStream, Outcome.bind_of_ok elementRead]
  dsimp only at read ⊢
  split at read
  · obtain ⟨slot, matrixRead, read⟩ := Outcome.bind_eq_ok.mp read
    cases read
    rw [Outcome.bind_of_ok (Cursor.matrix_of_all matrixRead), chosen_toList]
    exact ⟨_, rfl, .reading slot.toList rest⟩
  · obtain ⟨content, inflated, read⟩ := Outcome.bind_eq_ok.mp read
    cases read
    rw [Outcome.bind_of_ok inflated]
    exact ⟨_, rfl, resumed_selects (Cursor.inflatedYield_selects _ _) rest⟩
  · cases read

theorem following_selects (wanted : String → Bool) (cursor : Cursor) :
    Selects wanted (following (cursor.topLevel inflate fun _ => true).result false cursor)
      (following (cursor.topLevel inflate wanted).result false cursor) := by
  unfold following
  split
  · exact .ended []
  · split
    · exact .ended []
    · rw [if_neg Bool.false_ne_true, if_neg Bool.false_ne_true]
      cases read : (cursor.topLevel inflate fun _ => true).result with
      | error error => exact .failing [] error _ List.nil_prefix
      | ok everything =>
        obtain ⟨selected, selectedRead, selects⟩ := topLevel_selects wanted read
        rw [selectedRead]
        exact selects

theorem ready_prefix_everything (stream : ArrayStream) :
    stream.ready <+: (everything inflate wanted stream).arrays := by
  rw [everything_ready]
  exact List.prefix_append stream.ready _

/-- Of everything a stream yields, what is wanted is yielded when only that is asked for. -/
theorem everything_selects {all selected : ArrayStream} (selects : all.Selects wanted selected) :
    (everything inflate (fun _ => true) all).Selects wanted
      (everything inflate wanted selected) := by
  cases selects with
  | reading ready cursor =>
    rw [everything, everything]
    exact (everything_selects (following_selects wanted cursor)).after ready
  | ended ready =>
    rw [everything, everything]
    exact ⟨List.prefix_refl _, fun _ => ⟨rfl, rfl⟩⟩
  | failing ready error selected before =>
    rw [everything]
    exact ⟨before.trans (ready_prefix_everything selected),
      fun complete => absurd complete (Option.some_ne_none error)⟩
termination_by all.measure
decreasing_by exact measure_following_lt inflate _ false cursor

end ArrayStream

end MatFormat
