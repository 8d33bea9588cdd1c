/-
This file proves that a stream yields nothing but what the reader of matrices gave it. What
holds of every array that is read from the payload of a matrix holds of every array that is
ready in a stream, and so of every array it yields, however often it is asked and whenever it
is cancelled.
-/

import MatFormat.Proofs.Matrix.Sound
import MatFormat.Stream

namespace MatFormat

variable {inflate : Inflater} {wanted : String → Bool} {property : MatArray → Prop}
  (gives : Cursor.Gives (fun payload => payload.matrix wanted) property)

namespace ArrayStream

/-- The items that a stream yields when it is asked once for each entry of a schedule, which
tells whether the stream is cancelled by then. -/
def items (inflate : Inflater) (wanted : String → Bool) :
    (schedule : List Bool) → ArrayStream → Reading (List (Option (Except Error MatArray)))
  | [], _ => pure []
  | cancelled :: schedule, stream => do
    let (item, stream) ← stream.next inflate cancelled wanted
    let rest ← items inflate wanted schedule stream
    pure (item :: rest)

/-- A property holds of every array that is ready in a stream. -/
def AllReady (property : MatArray → Prop) (stream : ArrayStream) : Prop :=
  ∀ array ∈ stream.ready, property array

end ArrayStream

namespace Cursor

include gives

theorem of_inflatedMatrix {cursor rest : Cursor} {slot : Option MatArray}
    (read : (cursor.inflatedMatrix wanted).result = .ok (slot, rest)) :
    ∀ array ∈ slot, property array := by
  obtain ⟨⟨element, afterElement⟩, _, read⟩ := Reading.result_bind_eq_ok.mp read
  dsimp only at read
  split at read
  · cases read
  · obtain ⟨found, matrixRead, read⟩ := Reading.result_bind_eq_ok.mp read
    cases read
    intro array member
    rw [Option.mem_def.mp member] at matrixRead
    exact gives element.payload array matrixRead

theorem of_inflatedMatrices {bound : Nat} {cursor : Cursor} {arrays : List MatArray}
    {failure : Option Error}
    (read : (inflatedMatrices wanted bound cursor).result = .ok (arrays, failure)) :
    ∀ array ∈ arrays, property array := by
  induction bound generalizing cursor arrays with
  | zero =>
    cases read
    nofun
  | succ bound inductionHypothesis =>
    unfold inflatedMatrices at read
    split at read
    · cases read
      nofun
    · obtain ⟨outcome, attempted, read⟩ := Reading.result_bind_eq_ok.mp read
      have first := Except.ok.inj attempted
      cases outcome with
      | error fault =>
        cases read
        nofun
      | ok found =>
        obtain ⟨slot, afterSlot⟩ := found
        obtain ⟨⟨others, laterFailure⟩, othersRead, read⟩ := Reading.result_bind_eq_ok.mp read
        cases read
        intro array member
        rcases List.mem_append.mp member with here | later
        · exact of_inflatedMatrix gives first array (Option.mem_toList.mp here)
        · exact inductionHypothesis othersRead array later

theorem allReady_of_topLevel {cursor : Cursor} {stream : ArrayStream}
    (read : (cursor.topLevel inflate wanted).result = .ok stream) : stream.AllReady property := by
  obtain ⟨⟨element, afterElement⟩, _, read⟩ := Reading.result_bind_eq_ok.mp read
  dsimp only at read
  split at read
  · obtain ⟨slot, matrixRead, read⟩ := Reading.result_bind_eq_ok.mp read
    cases read
    intro array member
    rw [Option.mem_def.mp (Option.mem_toList.mp member)] at matrixRead
    exact gives element.payload array matrixRead
  · obtain ⟨content, _, read⟩ := Reading.result_bind_eq_ok.mp read
    obtain ⟨⟨arrays, failure⟩, arraysRead, read⟩ := Reading.result_bind_eq_ok.mp read
    cases failure with
    | none =>
      cases read
      exact of_inflatedMatrices gives arraysRead
    | some fault =>
      cases read
      exact of_inflatedMatrices gives arraysRead
  · cases read

end Cursor

namespace ArrayStream

include gives

theorem allReady_of_advance {cursor : Cursor} {cancelled : Bool} {stream : ArrayStream}
    (read : (advance inflate cursor cancelled wanted).result = .ok stream) :
    stream.AllReady property := by
  unfold advance at read
  split at read
  · cases read
    nofun
  · split at read
    · cases read
      nofun
    · split at read
      · cases read
        nofun
      · obtain ⟨outcome, attempted, read⟩ := Reading.result_bind_eq_ok.mp read
        have first := Except.ok.inj attempted
        cases outcome with
        | error fault =>
          cases read
          nofun
        | ok found =>
          cases read
          exact Cursor.allReady_of_topLevel gives first

/-- Asking a stream once: the array it yields was ready or was read, and so is what is ready
afterwards. -/
theorem of_nextWithin {cancelled : Bool} {bound : Nat} {stream after : ArrayStream}
    {item : Option (Except Error MatArray)} (ready : stream.AllReady property)
    (read : (nextWithin inflate cancelled wanted bound stream).result = .ok (item, after)) :
    (∀ array, item = some (.ok array) → property array) ∧ after.AllReady property := by
  fun_induction nextWithin inflate cancelled wanted bound stream with
  | case1 bound array held continuation =>
    cases read
    exact ⟨fun other yielded => ready other (by cases yielded; exact List.mem_cons_self),
      fun other member => ready other (List.mem_cons_of_mem _ member)⟩
  | case2 | case3 | case4 =>
    cases read
    exact ⟨nofun, nofun⟩
  | case5 bound cursor inductionHypothesis =>
    obtain ⟨next, advanced, read⟩ := Reading.result_bind_eq_ok.mp read
    exact inductionHypothesis next (allReady_of_advance gives advanced) read

/-- Every array that a stream yields on a schedule was ready or was read. -/
theorem of_items {schedule : List Bool} {stream : ArrayStream}
    {results : List (Option (Except Error MatArray))} (ready : stream.AllReady property)
    (read : (items inflate wanted schedule stream).result = .ok results) :
    ∀ array, some (.ok array) ∈ results → property array := by
  induction schedule generalizing stream results with
  | nil =>
    cases read
    nofun
  | cons cancelled schedule inductionHypothesis =>
    obtain ⟨⟨item, after⟩, first, read⟩ := Reading.result_bind_eq_ok.mp read
    obtain ⟨others, later, read⟩ := Reading.result_bind_eq_ok.mp read
    cases read
    obtain ⟨yielded, stillReady⟩ := of_nextWithin gives ready first
    intro array member
    rcases List.mem_cons.mp member with here | there
    · exact yielded array here.symm
    · exact inductionHypothesis stillReady later array there

end ArrayStream

/-- Nothing is ready in the stream of a file that was just opened. -/
theorem allReady_of_openStream {bytes : List UInt8} {header : Header} {stream : ArrayStream}
    (opened : (openStream bytes).result = .ok (header, stream)) : stream.AllReady property := by
  obtain ⟨found, _, opened⟩ := Reading.result_bind_eq_ok.mp opened
  cases opened
  intro array member
  cases member

end MatFormat
