/-
This file tells what a file delivers, element by element, with no stream in it. A matrix
delivers its array if it is wanted, a compressed element the arrays of all the matrices that
it spells. The calls that fetch these arrays pass before the next element is looked at, so
their number decides which flag of the schedule counts there. An error ends everything, but
the arrays that were decoded before it come first. The stream of a file yields just that, and
it reads nothing any more once it has yielded an error or nothing.
-/

import Mathlib.Logic.Relation
import MatFormat.Proofs.Stream.Compression
import MatFormat.Proofs.Stream.Schedule

namespace MatFormat

namespace Cursor

variable {wanted : String → Bool}

/-! ### Inflated streams -/

/-- What an inflated stream delivers: the arrays of its matrices, which are read one after the
other up to its end or to the first error. -/
inductive Inflates (wanted : String → Bool) : Cursor → Yield → Prop where
  | ended {cursor : Cursor} (ends : cursor.atEnd = true) : Inflates wanted cursor ⟨[], none⟩
  | failing {cursor : Cursor} {error : Error} (more : ¬ cursor.atEnd = true)
      (read : (cursor.inflatedMatrix wanted).result = .error error) :
      Inflates wanted cursor ⟨[], some error⟩
  | matrix {cursor rest : Cursor} {slot : Option MatArray} {yield : Yield}
      (more : ¬ cursor.atEnd = true)
      (read : (cursor.inflatedMatrix wanted).result = .ok (slot, rest))
      (later : Inflates wanted rest yield) :
      Inflates wanted cursor (yield.after slot.toList)

/-- With no fewer turns than there are bytes, an inflated stream is read to what it delivers. -/
theorem inflates_inflatedYield {bound : Nat} {cursor : Cursor}
    (enough : cursor.remaining ≤ bound) :
    Inflates wanted cursor (inflatedYield wanted bound cursor) := by
  induction bound generalizing cursor with
  | zero => exact .ended (atEnd_iff.mpr (Nat.le_zero.mp enough))
  | succ bound inductionHypothesis =>
    unfold inflatedYield
    split
    · rename_i ends
      exact .ended ends
    · rename_i more
      cases read : (cursor.inflatedMatrix wanted).result with
      | error error => exact .failing more read
      | ok found =>
        have fewer := remaining_of_inflatedMatrix read
        exact .matrix more read (inductionHypothesis (by omega))

theorem Inflates.eq_inflatedYield {bound : Nat} {cursor : Cursor} {yield : Yield}
    (inflates : Inflates wanted cursor yield) (enough : cursor.remaining ≤ bound) :
    inflatedYield wanted bound cursor = yield := by
  induction inflates generalizing bound with
  | ended ends =>
    cases bound with
    | zero => rfl
    | succ bound => rw [inflatedYield, if_pos ends]
  | failing more read =>
    obtain ⟨fewer, rfl⟩ := Nat.exists_eq_succ_of_ne_zero fun none =>
      more (atEnd_iff.mpr (Nat.le_zero.mp (none ▸ enough)))
    rw [inflatedYield, if_neg more, read]
  | matrix more read later inductionHypothesis =>
    have fewer := remaining_of_inflatedMatrix read
    obtain ⟨less, rfl⟩ := Nat.exists_eq_succ_of_ne_zero fun none =>
      more (atEnd_iff.mpr (Nat.le_zero.mp (none ▸ enough)))
    rw [inflatedYield, if_neg more, read]
    dsimp only
    rw [inductionHypothesis (by omega)]

/-! ### Files -/

/-- An element of a file is read without an error, and reading goes on behind it. -/
def LeadsTo (inflate : Inflater) (wanted : String → Bool) (cursor rest : Cursor) : Prop :=
  ∃ ready, (cursor.topLevel inflate wanted).result = .ok ⟨ready, .reading rest⟩

/-- What the elements of a file deliver from a cursor on, where a schedule tells for every call
whether the stream is cancelled by then. -/
inductive Delivers (inflate : Inflater) (wanted : String → Bool) :
    (schedule : Nat → Bool) → Cursor → Yield → Prop where
  | ended {schedule : Nat → Bool} {cursor : Cursor} (ends : ¬ cursor.HasMore) :
      Delivers inflate wanted schedule cursor ⟨[], none⟩
  | cancelled {schedule : Nat → Bool} {cursor : Cursor} (more : cursor.HasMore)
      (raised : schedule 0 = true) : Delivers inflate wanted schedule cursor ⟨[], some .cancelled⟩
  | failing {schedule : Nat → Bool} {cursor : Cursor} {error : Error} (more : cursor.HasMore)
      (lowered : schedule 0 = false)
      (read : (cursor.topLevel inflate wanted).result = .error error) :
      Delivers inflate wanted schedule cursor ⟨[], some error⟩
  | matrix {schedule : Nat → Bool} {cursor rest : Cursor} {element : Element}
      {slot : Option MatArray} {yield : Yield} (more : cursor.HasMore)
      (lowered : schedule 0 = false) (found : cursor.element.result = .ok (element, rest))
      (type : element.tag.type = .matrix)
      (read : (element.payload.matrix wanted).result = .ok slot)
      (later :
        Delivers inflate wanted (fun call => schedule (slot.toList.length + call)) rest yield) :
      Delivers inflate wanted schedule cursor (yield.after slot.toList)
  | compressed {schedule : Nat → Bool} {cursor rest : Cursor} {element : Element}
      {content : List UInt8} {arrays : List MatArray} {yield : Yield} (more : cursor.HasMore)
      (lowered : schedule 0 = false) (found : cursor.element.result = .ok (element, rest))
      (type : element.tag.type = .compressed)
      (spelled : (element.payload.inflate inflate).result = .ok content)
      (inflates : Inflates wanted (.ofBytes content rest.order) ⟨arrays, none⟩)
      (later : Delivers inflate wanted (fun call => schedule (arrays.length + call)) rest yield) :
      Delivers inflate wanted schedule cursor (yield.after arrays)
  | compressedFailing {schedule : Nat → Bool} {cursor rest : Cursor} {element : Element}
      {content : List UInt8} {arrays : List MatArray} {error : Error} (more : cursor.HasMore)
      (lowered : schedule 0 = false) (found : cursor.element.result = .ok (element, rest))
      (type : element.tag.type = .compressed)
      (spelled : (element.payload.inflate inflate).result = .ok content)
      (inflates : Inflates wanted (.ofBytes content rest.order) ⟨arrays, some error⟩) :
      Delivers inflate wanted schedule cursor ⟨arrays, some error⟩

variable {inflate : Inflater} {schedule : Nat → Bool} {order : ByteOrder} {rest : List UInt8}
  {offset : Nat} {yield : Yield}

theorem Delivers.of_matrixElement {element : MatrixElement} {slot : Option MatArray}
    (lowered : schedule 0 = false)
    (read : (Cursor.matrix ⟨element.payload, offset + tagSize, order⟩ wanted).result = .ok slot)
    (later : Delivers inflate wanted (fun call => schedule (slot.toList.length + call))
      ⟨rest, offset + (element.bytes order).length, order⟩ yield) :
    Delivers inflate wanted schedule ⟨element.bytes order ++ rest, offset, order⟩
      (yield.after slot.toList) :=
  .matrix (hasMore_append (element.tagSize_le order) rest offset order) lowered
    (element_of_matrixElement element rest offset) rfl read later

theorem Delivers.of_compressedRun {stream : List UInt8} (fits : stream.length < wordLimit)
    {elements : List MatrixElement} (lowered : schedule 0 = false)
    (spelled : inflate stream = .ok (elements.flatMap (MatrixElement.bytes order)))
    {arrays : List MatArray}
    (read : locatedYield order wanted (located order 0 elements) = ⟨arrays, none⟩)
    (later : Delivers inflate wanted (fun call => schedule (arrays.length + call))
      ⟨rest, offset + (tagBytes order .compressed stream.length ++ stream).length, order⟩ yield) :
    Delivers inflate wanted schedule
      ⟨tagBytes order .compressed stream.length ++ stream ++ rest, offset, order⟩
      (yield.after arrays) := by
  have tagged := tagSize_le_tagBytes_append order .compressed stream
  have content : (Cursor.inflate ⟨stream, offset + tagSize, order⟩ inflate).result =
      .ok (elements.flatMap (MatrixElement.bytes order)) := by
    rw [Cursor.inflate, spelled]
    rfl
  have inflates := @inflates_inflatedYield wanted _
    (.ofBytes (elements.flatMap (MatrixElement.bytes order)) order) (Nat.le_refl _)
  rw [ofBytes, remaining, inflatedYield_elements elements (length_le_elements elements),
    read] at inflates
  exact .compressed (hasMore_append tagged rest offset order) lowered
    (element_of_compressedRun fits rest offset) rfl content inflates later

end Cursor

namespace ArrayStream

variable {inflate : Inflater} {wanted : String → Bool} {schedule : Nat → Bool} {cursor : Cursor}

/-- An element that is read to a stream is followed by what that stream yields. -/
theorem YieldsOn.topLevel (more : cursor.HasMore) (lowered : schedule 0 = false)
    {stream : ArrayStream} (read : (cursor.topLevel inflate wanted).result = .ok stream)
    {yield : Yield} (yields : stream.YieldsOn inflate wanted schedule yield) :
    YieldsOn inflate wanted schedule ⟨[], .reading cursor⟩ yield := by
  refine .reading ?_
  rw [following_of_hasMore more, lowered, read]
  exact yields

/-- What a matrix element is read to. -/
theorem topLevel_of_matrix {element : Element} {rest : Cursor} {slot : Option MatArray}
    (found : cursor.element.result = .ok (element, rest)) (type : element.tag.type = .matrix)
    (read : (element.payload.matrix wanted).result = .ok slot) :
    (cursor.topLevel inflate wanted).result = .ok ⟨slot.toList, .reading rest⟩ := by
  rw [result_topLevel, elementStream, Outcome.bind_of_ok found]
  dsimp only
  rw [type]
  dsimp only
  rw [Outcome.bind_of_ok read]
  rfl

/-- What a compressed element is read to. -/
theorem topLevel_of_inflates {element : Element} {rest : Cursor} {content : List UInt8}
    {yield : Yield} (found : cursor.element.result = .ok (element, rest))
    (type : element.tag.type = .compressed)
    (spelled : (element.payload.inflate inflate).result = .ok content)
    (inflates : Cursor.Inflates wanted (.ofBytes content rest.order) yield) :
    (cursor.topLevel inflate wanted).result = .ok (resumed yield rest) := by
  rw [result_topLevel, elementStream, Outcome.bind_of_ok found]
  dsimp only
  rw [type]
  dsimp only
  rw [Outcome.bind_of_ok spelled, inflates.eq_inflatedYield (Nat.le_refl content.length)]
  rfl

/-- A stream yields what its elements deliver. -/
theorem yieldsOn_of_delivers {yield : Yield}
    (delivers : cursor.Delivers inflate wanted schedule yield) :
    YieldsOn inflate wanted schedule ⟨[], .reading cursor⟩ yield := by
  induction delivers with
  | ended ends =>
    refine .reading ?_
    rw [following_of_not_hasMore ends]
    exact yieldsOn_ended _
  | cancelled more raised =>
    refine .reading ?_
    rw [following_of_hasMore more, raised]
    exact yieldsOn_failing _ _
  | failing more lowered read =>
    refine .reading ?_
    rw [following_of_hasMore more, lowered, read]
    exact yieldsOn_failing _ _
  | @matrix schedule cursor rest element slot yield more lowered found type read later
      inductionHypothesis =>
    exact .topLevel more lowered (topLevel_of_matrix found type read)
      (.ready slot.toList inductionHypothesis)
  | @compressed schedule cursor rest element content arrays yield more lowered found type spelled
      inflates later inductionHypothesis =>
    exact .topLevel more lowered (topLevel_of_inflates found type spelled inflates)
      (.ready arrays inductionHypothesis)
  | @compressedFailing schedule cursor rest element content arrays error more lowered found type
      spelled inflates =>
    have fails :
        YieldsOn inflate wanted schedule ⟨arrays, .failing error⟩ ⟨arrays, some error⟩ := by
      rw [← Yield.after_nil]
      exact .ready arrays (yieldsOn_failing _ error)
    exact .topLevel more lowered (topLevel_of_inflates found type spelled inflates) fails

end ArrayStream

/-- Every cursor delivers something on every schedule. -/
theorem Cursor.exists_delivers (inflate : Inflater) (wanted : String → Bool)
    (schedule : Nat → Bool) (cursor : Cursor) :
    ∃ yield, cursor.Delivers inflate wanted schedule yield := by
  induction size : cursor.remaining using Nat.strong_induction_on generalizing cursor schedule with
  | _ remaining inductionHypothesis =>
    by_cases more : cursor.HasMore
    · cases flag : schedule 0 with
      | true => exact ⟨_, .cancelled more flag⟩
      | false =>
        cases read : (cursor.topLevel inflate wanted).result with
        | error error => exact ⟨_, .failing more flag read⟩
        | ok stream =>
          rw [ArrayStream.result_topLevel] at read
          obtain ⟨⟨element, rest⟩, found, read⟩ := Outcome.bind_eq_ok.mp read
          have nearer := remaining_of_element found
          have later (schedule : Nat → Bool) :=
            inductionHypothesis _ (size ▸ nearer) schedule rest rfl
          dsimp only at read
          split at read
          · rename_i type
            obtain ⟨slot, matrixRead, _⟩ := Outcome.bind_eq_ok.mp read
            obtain ⟨yield, delivers⟩ := later fun call => schedule (slot.toList.length + call)
            exact ⟨_, .matrix more flag found type matrixRead delivers⟩
          · rename_i type
            obtain ⟨content, spelled, _⟩ := Outcome.bind_eq_ok.mp read
            have inflates := @inflates_inflatedYield wanted _ (ofBytes content rest.order)
              (Nat.le_refl _)
            generalize inflatedYield wanted _ (ofBytes content rest.order) = yield at inflates
            obtain ⟨arrays, failure⟩ := yield
            cases failure with
            | some error => exact ⟨_, .compressedFailing more flag found type spelled inflates⟩
            | none =>
              obtain ⟨yield, delivers⟩ := later fun call => schedule (arrays.length + call)
              exact ⟨_, .compressed more flag found type spelled inflates delivers⟩
          · cases read
    · exact ⟨_, .ended more⟩

/-! ### The protocol -/

/-- The stream of a file yields, on every schedule, what the elements of the file deliver: some
arrays, then an error if there is one, and then nothing, however often it is asked. As soon as
it has yielded anything but an array it is ended, and an ended stream reads nothing. -/
theorem yields_delivered (inflate : Inflater) (wanted : String → Bool) {bytes : List UInt8}
    {header : Header} {stream : ArrayStream}
    (opened : (openStream bytes).result = .ok (header, stream)) (schedule : Nat → Bool) :
    ∃ (cursor : Cursor) (yield : Yield), stream = ⟨[], .reading cursor⟩ ∧
      cursor.Delivers inflate wanted schedule yield ∧
      (∀ count : Nat, ∃ after : ArrayStream,
        (stream.run inflate wanted (ArrayStream.calls schedule count)).result =
          .ok ((List.range count).map fun index => yield.items[index]?, after) ∧
        (yield.arrays.length < count → after = .ended)) ∧
      ∀ cancelled : Bool,
        ArrayStream.ended.next inflate cancelled wanted = ⟨[], .ok (none, .ended)⟩ := by
  obtain ⟨_, rfl⟩ := openStream_eq_ok.mp opened
  obtain ⟨yield, delivers⟩ := Cursor.exists_delivers inflate wanted schedule
    ((Cursor.ofBytes bytes header.order).skipAtMost headerSize).2
  exact ⟨_, yield, rfl, delivers, ArrayStream.yieldsOn_of_delivers delivers,
    ArrayStream.next_ended⟩

theorem yields_delivered_mixedRuns :
    ∃ (header : Header) (stream : ArrayStream),
      (openStream (Header.encode "" .little ++
        mixedRuns.flatMap (ElementRun.bytes .little))).result = .ok (header, stream) ∧
      ∃ (cursor : Cursor) (yield : Yield), stream = ⟨[], .reading cursor⟩ ∧
        cursor.Delivers Zlib.inflater (fun _ => true) (fun call => decide (call = 2)) yield ∧
        (∀ count : Nat, ∃ after : ArrayStream,
          (stream.run Zlib.inflater (fun _ => true)
              (ArrayStream.calls (fun call => decide (call = 2)) count)).result =
            .ok ((List.range count).map fun index => yield.items[index]?, after) ∧
          (yield.arrays.length < count → after = .ended)) ∧
        ∀ cancelled : Bool,
          ArrayStream.ended.next Zlib.inflater cancelled (fun _ => true) =
            ⟨[], .ok (none, .ended)⟩ :=
  ⟨_, _, openStream_encode "" _, yields_delivered _ _ (openStream_encode "" _) _⟩

end MatFormat
