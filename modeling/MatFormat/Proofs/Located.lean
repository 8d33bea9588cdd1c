/-
This file tells where reading fails. A reader that starts inside some bytes looks at no
others, so an error that has a place has it inside these bytes or right behind them, and what
is said to be missing is more than what is there. Errors that tell of other things, such as a
cancellation, never come from reading an element. All this is a contract of the reader, with
the bytes that places are measured against held fixed, so it is shown for the reading of
elements and then holds of matrices.
-/

import MatFormat.Proofs.Matrix.Contract
import MatFormat.Proofs.Stream.Run

namespace MatFormat

namespace Cursor

/-- Whether an offset stands inside the bytes of a cursor or right behind them. -/
def Covers (outer : Cursor) (offset : Nat) : Prop :=
  outer.offset ≤ offset ∧ offset ≤ outer.offset + outer.remaining

/-- Whether the bytes of a cursor stand inside those of another one. -/
def Inside (inner outer : Cursor) : Prop :=
  ∃ front back, outer.bytes = front ++ inner.bytes ++ back ∧
    inner.offset = outer.offset + front.length ∧ inner.order = outer.order

theorem Inside.refl (cursor : Cursor) : cursor.Inside cursor :=
  ⟨[], [], (List.append_nil _).symm, rfl, rfl⟩

theorem Inside.trans {inner middle outer : Cursor} (first : inner.Inside middle)
    (second : middle.Inside outer) : inner.Inside outer := by
  obtain ⟨front, back, bytes, offset, order⟩ := first
  obtain ⟨outerFront, outerBack, outerBytes, outerOffset, outerOrder⟩ := second
  refine ⟨outerFront ++ front, back ++ outerBack, ?_, ?_, order.trans outerOrder⟩
  · rw [outerBytes, bytes]
    simp only [List.append_assoc]
  · rw [offset, outerOffset, List.length_append, Nat.add_assoc]

theorem Inside.covers {inner outer : Cursor} (inside : inner.Inside outer) :
    outer.Covers inner.offset := by
  obtain ⟨front, back, bytes, offset, _⟩ := inside
  rw [Covers, offset, remaining, bytes, List.append_assoc, List.length_append]
  omega

theorem inside_take (cursor : Cursor) (count : Nat) :
    Inside ⟨cursor.bytes.take count, cursor.offset, cursor.order⟩ cursor :=
  ⟨[], cursor.bytes.drop count, (List.take_append_drop count cursor.bytes).symm, rfl, rfl⟩

theorem inside_drop {cursor : Cursor} {count : Nat} (enough : count ≤ cursor.remaining) :
    Inside ⟨cursor.bytes.drop count, cursor.offset + count, cursor.order⟩ cursor := by
  refine ⟨cursor.bytes.take count, [], ?_, ?_, rfl⟩
  · rw [List.append_nil, List.take_append_drop]
  · rw [List.length_take_of_le enough]

end Cursor

/-- Whether reading the bytes of a cursor may end in an error. -/
def Error.Within (outer : Cursor) : Error → Prop
  | malformed offset _ => outer.Covers offset
  | truncated offset needed available => outer.Covers offset ∧ available < needed
  | corruptCompressed offset _ => outer.Covers offset
  | unsupportedClass _ => True
  | dimensionMismatch _ _ _ => False
  | invalidArray _ _ => False
  | cancelled => False

/-- An outcome of reading the bytes of a cursor: an error that this may end in, or a value with
a property. -/
abbrev Located (outer : Cursor) {Value : Type} (good : Value → Prop) :
    Except Error Value → Prop :=
  Settles (Error.Within outer) good

variable {outer : Cursor}

namespace Cursor

variable {cursor : Cursor}

/-! ### Bytes and elements -/

theorem located_take (inside : cursor.Inside outer) (count : Nat) :
    Located outer (fun read => Inside ⟨read.1, cursor.offset, cursor.order⟩ outer ∧
      read.2.Inside outer) (cursor.take count) := by
  by_cases enough : count ≤ cursor.remaining
  · rw [take_of_le cursor count enough]
    exact .ok ⟨(inside_take cursor count).trans inside, (inside_drop enough).trans inside⟩
  · have short := Nat.lt_of_not_le enough
    rw [take_of_lt cursor count short]
    exact .error ⟨inside.covers, short⟩

theorem located_number (inside : cursor.Inside outer) (width : Nat) :
    Located outer (fun read => read.2.Inside outer) (cursor.number width) :=
  (located_take inside width).bind fun _ taken => .ok taken.2

theorem located_split (inside : cursor.Inside outer) (count : Nat) :
    Located outer (fun read => read.1.Inside outer ∧ read.2.Inside outer) (cursor.split count) :=
  (located_take inside count).bind fun _ taken => .ok taken

theorem inside_skipAtMost (cursor : Cursor) (count : Nat) :
    (cursor.skipAtMost count).2.Inside cursor := by
  rw [skipAtMost, List.splitAt_eq]
  refine ⟨cursor.bytes.take count, [], ?_, rfl, rfl⟩
  rw [List.append_nil, List.take_append_drop]

theorem located_tag (inside : cursor.Inside outer) :
    Located outer (fun read => read.2.Inside outer) cursor.tag := by
  refine (located_number inside 4).bind fun ⟨word, afterWord⟩ afterInside => ?_
  dsimp only
  split
  · split
    · exact .error inside.covers
    · split
      · exact .error inside.covers
      · split
        · exact .error inside.covers
        · exact .ok afterInside
  · refine (located_number afterInside 4).bind fun ⟨size, afterSize⟩ afterInside => ?_
    dsimp only
    split
    · exact .error inside.covers
    · exact .ok afterInside

theorem located_element (inside : cursor.Inside outer) :
    Located outer (fun read => read.1.payload.Inside outer ∧ read.2.Inside outer)
      cursor.element.result := by
  rw [result_element]
  refine (located_tag inside).bind fun ⟨tag, afterTag⟩ afterInside => ?_
  refine (located_split afterInside tag.size).bind
    fun ⟨payload, rest⟩ ⟨payloadInside, restInside⟩ => ?_
  exact .ok ⟨payloadInside, (inside_skipAtMost rest tag.padding).trans restInside⟩

/-! ### Matrices -/

/-- Places stay inside the bytes that reading started from, and errors have theirs there. -/
def enclosing (outer : Cursor) : Contract where
  place cursor := cursor.Inside outer
  payload cursor := cursor.Inside outer
  allowed := Error.Within outer
  remarked _ := True
  payload_of_place := id
  malformed inside _ := inside.covers
  truncated inside short := ⟨inside.covers, short⟩
  unsupportedClass _ := trivial
  remark _ := trivial
  element inside := by
    refine ⟨fun _ _ => trivial, ?_⟩
    have located := located_element inside
    cases read : Reading.result _ with
    | error error => exact .error (located.permitted read)
    | ok found =>
      obtain ⟨payloadInside, restInside⟩ := located.holds read
      exact .ok ⟨payloadInside, fun _ => payloadInside, restInside⟩

/-- A matrix fails to be read only inside its payload. -/
theorem located_matrix {payload : Cursor} (inside : payload.Inside outer)
    (wanted : String → Bool) : Located outer (fun _ => True) (payload.matrix wanted).result :=
  ((enclosing outer).keeps_matrix inside wanted).settles

theorem located_inflatedMatrix (inside : cursor.Inside outer) (wanted : String → Bool) :
    Located outer (fun read => read.2.Inside outer) (cursor.inflatedMatrix wanted).result :=
  ((enclosing outer).keeps_inflatedMatrix inside wanted).settles

/-! ### Elements of a file -/

theorem located_inflate {payload : Cursor} (inside : payload.Inside outer)
    (inflate : Inflater) : Located outer (fun _ => True) (payload.inflate inflate).result := by
  unfold Cursor.inflate
  split
  · exact .error inside.covers
  · exact .ok trivial

/-- The error that ends an inflated stream has its place there. -/
theorem located_inflatedMatrices (wanted : String → Bool) (bound : Nat)
    (inside : cursor.Inside outer) :
    Located outer (fun read => ∀ error ∈ read.2, error.Within outer)
      (inflatedMatrices wanted bound cursor).result := by
  induction bound generalizing cursor with
  | zero => exact .ok (by nofun)
  | succ bound inductionHypothesis =>
    refine .choice (fun _ => .ok (by nofun)) fun _ => ?_
    rw [Reading.result_bind_of_ok (Reading.result_attempt _)]
    have located := located_inflatedMatrix inside wanted
    cases read : (cursor.inflatedMatrix wanted).result with
    | error error =>
      refine .ok fun failure same => ?_
      exact Option.mem_some_iff.mp same ▸ located.permitted read
    | ok found =>
      exact (inductionHypothesis (located.holds read)).reading fun _ holds => .ok holds

/-- Where reading goes on, or what it ends in: a place inside some bytes, or an error that comes
from them or from the stream that a compressed element spells. -/
def Continues (outer : Cursor) : Continuation → Prop
  | .reading rest => rest.Inside outer
  | .failing error => error.Within outer ∨ ∃ content order, error.Within (.ofBytes content order)
  | .ended => True

/-- An element of a file is read, or fails to be, inside it or in the stream that it spells. -/
theorem located_topLevel (inside : cursor.Inside outer) (inflate : Inflater)
    (wanted : String → Bool) :
    Located outer (fun stream => outer.Continues stream.continuation)
      (cursor.topLevel inflate wanted).result := by
  refine (located_element inside).reading fun ⟨element, rest⟩ ⟨payloadInside, restInside⟩ => ?_
  dsimp only
  split
  · exact (located_matrix payloadInside wanted).reading fun _ _ => .ok restInside
  · refine (located_inflate payloadInside inflate).reading fun content _ => ?_
    have read := @result_inflatedMatrices wanted content.length
      (ofBytes content rest.order)
    have streamLocated := (located_inflatedMatrices wanted content.length
      (Inside.refl (ofBytes content rest.order))).holds read
    rw [Reading.result_bind_of_ok read]
    dsimp only at streamLocated ⊢
    split
    · exact .ok restInside
    · rename_i error failed
      exact .ok (.inr ⟨content, rest.order, streamLocated error failed⟩)
  · exact .error inside.covers

end Cursor

/-! ### Streams -/

namespace ArrayStream

variable {inflate : Inflater} {wanted : String → Bool} {cursor : Cursor}

theorem continues_following (inside : cursor.Inside outer) :
    outer.Continues
      (following (cursor.topLevel inflate wanted).result false cursor).continuation := by
  have located := Cursor.located_topLevel inside inflate wanted
  unfold following
  split
  · trivial
  · split
    · trivial
    · rw [if_neg Bool.false_ne_true]
      split
      · rename_i error failed
        exact .inl (located.permitted failed)
      · rename_i stream read
        exact located.holds read

/-- The error that ends a stream has its place in the bytes of the stream, or in a stream that a
compressed element spells. -/
theorem within_everything {stream : ArrayStream} (continues : outer.Continues stream.continuation)
    {error : Error} (failed : (everything inflate wanted stream).failure = some error) :
    error.Within outer ∨ ∃ content order, error.Within (.ofBytes content order) := by
  fun_induction everything inflate wanted stream with
  | case1 ready cursor inductionHypothesis =>
    exact inductionHypothesis (continues_following continues) failed
  | case2 ready other =>
    cases failed
    exact continues
  | case3 => cases failed

end ArrayStream

/-- No error that reading ends in is a cancellation. -/
theorem Error.Within.ne_cancelled {error : Error} (within : error.Within outer) :
    error ≠ .cancelled := by
  rintro rfl
  exact within

end MatFormat
