/-
This file proves that the elements of a file are read without a trap on every platform. An
inflated stream is a buffer like any other, so its matrices are read as those of the file are,
and each of them takes bytes, so the turns that are given for them are never used up. An
element is read to what the stream of the file reads it to, with the inflater of the platform.
-/

import MatFormat.Checked.Stream
import MatFormat.Proofs.Checked.Matrix
import MatFormat.Proofs.Stream.Run

namespace MatFormat

namespace Checked

/-! ### The header -/

/-- Two bytes that are inside a run, one after the other. -/
theorem pair_ok {bytes : List UInt8} (place : Nat) (inside : place + 2 ≤ bytes.length) :
    ∃ first second : UInt8, item bytes place = .ok first ∧ item bytes (place + 1) = .ok second ∧
      (bytes.drop place).take 2 = [first, second] := by
  have here : place < bytes.length := by omega
  have next : place + 1 < bytes.length := by omega
  refine ⟨bytes[place], bytes[place + 1], item_of_lt here, item_of_lt next, ?_⟩
  rw [List.drop_eq_getElem_cons here, List.drop_eq_getElem_cons next]
  rfl

theorem agrees_header (bytes : List UInt8) :
    Agrees Eq (header bytes) (Header.read bytes).result := by
  refine .choice Iff.rfl (fun _ => .error _) fun long => ?_
  obtain ⟨first, second, firstOk, secondOk, marker⟩ :=
    pair_ok markerOffset (Nat.le_trans (by decide) (Nat.le_of_not_lt long))
  obtain ⟨third, fourth, thirdOk, fourthOk, version⟩ :=
    pair_ok versionOffset (Nat.le_trans (by decide) (Nat.le_of_not_lt long))
  rw [marker, version]
  refine .step firstOk (.step secondOk ?_)
  cases ByteOrder.ofMarker? [first, second] with
  | none => exact .error _
  | some order =>
    refine .step thirdOk (.step fourthOk ?_)
    refine .choice Iff.rfl (fun _ => .error _) fun _ => ?_
    have text : descriptionSize ≤ bytes.length :=
      Nat.le_trans (by decide) (Nat.le_of_not_lt long)
    exact .step (slice_of_le (Nat.zero_le _) text) (.step (before_eq _ _) (.ok rfl))

/-! ### Compressed elements -/

namespace Sees

variable {limit slotSize : Nat} {window : Window} {cursor : Cursor}

theorem ofBytes {bytes : List UInt8} (fits : bytes.length < allocationLimit)
    (order : ByteOrder) : Sees bytes.length (.ofBytes bytes order) (.ofBytes bytes order) :=
  ⟨Nat.zero_le _, (Nat.zero_add _).symm ▸ fits, rfl, rfl, rfl, Nat.le_refl _⟩

theorem agrees_inflatedMatrix (sees : Sees limit window cursor) (narrow : slotSize ≤ slotLimit)
    (wanted : String → Bool) :
    Agrees (Follows limit Eq) (window.inflatedMatrix slotSize wanted)
      (cursor.inflatedMatrix wanted).result := by
  refine .step sees.offset_ok ?_
  refine sees.agrees_element.reading fun (part, window) (element, rest) ⟨isPart, sees⟩ => ?_
  dsimp only
  rw [isPart.tag]
  refine .choice Iff.rfl (fun _ => .error _) fun _ => ?_
  have short : element.payload.remaining < wordLimit := isPart.whole ▸ isPart.short
  exact (isPart.payload.exact.agrees_matrix short narrow wanted).reading fun array _ same =>
    .ok ⟨same, sees⟩

/-- The matrices of an inflated stream are put into the queue, up to the first error. -/
theorem enqueue_ok (sees : Sees limit window cursor) (narrow : slotSize ≤ slotLimit)
    (wanted : String → Bool) {turns : Nat} (enough : cursor.remaining ≤ turns) (queue : Queue) :
    enqueue slotSize wanted turns window queue =
      .ok (queue ++ (cursor.inflatedYield wanted turns).items) := by
  induction turns generalizing window cursor queue with
  | zero =>
    rw [enqueue, sees.atEnd_eq, if_pos (Cursor.atEnd_iff.mpr (Nat.le_zero.mp enough))]
    exact congrArg Except.ok (List.append_nil queue).symm
  | succ turns inductionHypothesis =>
    rw [enqueue, Cursor.inflatedYield, sees.atEnd_eq]
    split
    · exact congrArg Except.ok (List.append_nil queue).symm
    · have agrees := sees.agrees_inflatedMatrix narrow wanted
      generalize window.inflatedMatrix slotSize wanted = computed at agrees ⊢
      cases outcome : (cursor.inflatedMatrix wanted).result with
      | error fault =>
        rw [outcome] at agrees
        cases agrees with
        | error together =>
          rw [together]
          rfl
      | ok read =>
        rw [outcome] at agrees
        cases agrees with
        | ok together =>
          rename_i first
          obtain ⟨array, window⟩ := first
          obtain ⟨slot, rest⟩ := read
          obtain ⟨same, sees⟩ := together
          dsimp only at same sees ⊢
          have fewer := Cursor.remaining_of_inflatedMatrix outcome
          rw [same, inductionHypothesis sees (by omega), Yield.items_after, List.append_assoc]

end Sees

/-! ### Elements -/

/-- The payload of a compressed element is given to the platform whole. -/
theorem IsPart.agrees_inflated {limit : Nat} {part : Part} {element : Element}
    (isPart : IsPart limit part element) (platform : Platform) :
    Agrees (fun content bytes => content.bytes = bytes) (inflated platform part)
      (element.payload.inflate platform.inflater).result := by
  have short : element.bytes.length < wordLimit :=
    Nat.lt_of_le_of_lt (Nat.le_of_eq isPart.whole) isPart.short
  have words : wordLimit * 4 < allocationLimit := by decide
  obtain ⟨rest, taken⟩ := isPart.take_ok
  have reserved : reserve (Cursor.saturatingProduct element.bytes.length 4) 1 = .ok () := by
    refine reserve_of_lt ?_
    rw [Cursor.saturatingProduct]
    omega
  refine .step taken (.step isPart.offset_ok (.step reserved ?_))
  rw [Cursor.inflate, Platform.inflater]
  dsimp only [Element.bytes]
  cases platform.inflate element.payload.bytes with
  | error reason => exact .error _
  | ok content => exact .ok rfl

namespace Elements

/-- The items that wait and the window of some elements are those of a stream. -/
inductive Shows : Elements → ArrayStream → Prop where
  | reading {window : Window} {cursor : Cursor} (ready : List MatArray)
      (sees : Sees cursor.remaining window cursor) :
      Shows ⟨window, ready.map .ok, false⟩ ⟨ready, .reading cursor⟩
  | failing (window : Window) (ready : List MatArray) (error : Error) (done : Bool) :
      Shows ⟨window, ready.map .ok ++ [.error error], done⟩ ⟨ready, .failing error⟩
  | ended (window : Window) {done : Bool} (finished : (done || window.atEnd) = true) :
      Shows ⟨window, [], done⟩ .ended

/-- What an inflated stream yields waits, and then the elements go on unless it failed. -/
theorem shows_resumed {window : Window} {cursor : Cursor}
    (sees : Sees cursor.remaining window cursor) (yield : Yield) :
    Shows ⟨window, yield.items, false⟩ (.resumed yield cursor) := by
  obtain ⟨arrays, failure⟩ := yield
  cases failure with
  | none =>
    show Shows ⟨window, arrays.map .ok ++ [], false⟩ ⟨arrays, .reading cursor⟩
    rw [List.append_nil]
    exact .reading arrays sees
  | some error => exact .failing window arrays error false

/-- The next element is read to what it is in the stream of the file. -/
theorem agrees_step (platform : Platform) (wanted : String → Bool) {window : Window}
    {cursor : Cursor} (sees : Sees cursor.remaining window cursor) :
    Agrees Shows (step platform wanted ⟨window, [], false⟩)
      (cursor.topLevel platform.inflater wanted).result := by
  rw [ArrayStream.result_topLevel]
  refine .step sees.offset_ok ?_
  refine sees.agrees_element.bind fun (part, window) (element, rest) ⟨isPart, sees⟩ => ?_
  have short : element.payload.remaining < wordLimit := isPart.whole ▸ isPart.short
  have matrix := isPart.payload.exact.agrees_matrix short platform.narrow wanted
  dsimp only
  rw [isPart.tag]
  cases element.tag.type with
  | matrix =>
    refine matrix.bind_same fun array => ?_
    exact .ok (.reading array.toList sees.exact)
  | compressed =>
    refine (isPart.agrees_inflated platform).bind fun content _ same => ?_
    subst same
    have queued : enqueue platform.slotSize wanted content.bytes.length
        (.ofBytes content.bytes window.order) [] =
          .ok (Cursor.inflatedYield wanted content.bytes.length
            (.ofBytes content.bytes rest.order)).items := by
      rw [sees.order]
      exact (Sees.ofBytes content.fits window.order).enqueue_ok platform.narrow wanted
        (Nat.le_refl _) []
    exact .step queued (.ok (shows_resumed sees.exact _))
  | _ => exact .error _

end Elements

end Checked

end MatFormat
