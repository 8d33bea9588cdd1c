/-
This file says what a stream yields as a whole. Each element takes bytes, so a stream that is
never cancelled comes to its end: it yields some arrays, then perhaps an error, and then
nothing, however often it is asked. Reading all arrays of a stream gives these arrays, or the
error if there is one.
-/

import MatFormat.Proofs.Cursor
import MatFormat.Proofs.Stream.Yields

namespace MatFormat

/-- What a stream yields: arrays, then an error if there is one. -/
structure Yield where
  arrays : List MatArray
  failure : Option Error

namespace Yield

/-- The arrays and the error as the items that they are yielded as. -/
def items (yield : Yield) : List (Except Error MatArray) :=
  yield.arrays.map .ok ++ yield.failure.toList.map .error

/-- The arrays as a value, unless there is an error. -/
def result (yield : Yield) : Except Error (List MatArray) :=
  match yield.failure with
  | none => .ok yield.arrays
  | some error => .error error

/-- What is yielded when some arrays come first. -/
def after (ready : List MatArray) (yield : Yield) : Yield :=
  { yield with arrays := ready ++ yield.arrays }

theorem items_after (ready : List MatArray) (yield : Yield) :
    (yield.after ready).items = ready.map .ok ++ yield.items := by
  rw [items, items, after, List.map_append, List.append_assoc]

/-- What comes after some arrays does not change the items that are these arrays. -/
theorem getElem?_items_after {ready : List MatArray} {index : Nat} (before : index < ready.length)
    (first second : Yield) :
    (first.after ready).items[index]? = (second.after ready).items[index]? := by
  have here : index < (ready.map (Except.ok (ε := Error))).length :=
    Nat.lt_of_lt_of_eq before (List.length_map _).symm
  rw [items_after, items_after, List.getElem?_append_left here, List.getElem?_append_left here]

theorem after_nil (ready : List MatArray) (failure : Option Error) :
    after ready ⟨[], failure⟩ = ⟨ready, failure⟩ :=
  congrArg (Yield.mk · failure) (List.append_nil ready)

theorem after_empty (yield : Yield) : yield.after [] = yield := rfl

theorem after_after (first second : List MatArray) (yield : Yield) :
    (yield.after second).after first = yield.after (first ++ second) :=
  congrArg (Yield.mk · yield.failure) (List.append_assoc _ _ _).symm

/-- The items tell what is yielded. -/
theorem eq_of_items {first second : Yield} (same : first.items = second.items) :
    first = second := by
  obtain ⟨arrays, failure⟩ := first
  obtain ⟨others, otherFailure⟩ := second
  induction arrays generalizing others with
  | nil =>
    cases others with
    | nil => cases failure <;> cases otherFailure <;> cases same <;> rfl
    | cons other others => cases failure <;> cases same
  | cons array arrays inductionHypothesis =>
    cases others with
    | nil => cases otherFailure <;> cases same
    | cons other others =>
      obtain ⟨first, rest⟩ := List.cons.inj same
      cases first
      cases inductionHypothesis others rest
      rfl

end Yield

/-! ### Inflated streams -/

namespace Cursor

variable {wanted : String → Bool}

/-- Everything that an inflated stream yields. -/
def inflatedYield (wanted : String → Bool) : (bound : Nat) → (cursor : Cursor) → Yield
  | 0, _ => ⟨[], none⟩
  | bound + 1, cursor =>
    if cursor.atEnd then ⟨[], none⟩
    else
      match (cursor.inflatedMatrix wanted).result with
      | .error error => ⟨[], some error⟩
      | .ok (array, cursor) => (inflatedYield wanted bound cursor).after array.toList

theorem result_inflatedMatrices (bound : Nat) (cursor : Cursor) :
    (inflatedMatrices wanted bound cursor).result =
      .ok ((inflatedYield wanted bound cursor).arrays,
        (inflatedYield wanted bound cursor).failure) := by
  induction bound generalizing cursor with
  | zero => rfl
  | succ bound inductionHypothesis =>
    unfold inflatedMatrices inflatedYield
    split
    · rfl
    · rw [Reading.result_bind_of_ok (Reading.result_attempt _)]
      cases (cursor.inflatedMatrix wanted).result with
      | error error => rfl
      | ok read =>
        dsimp only
        rw [Reading.result_bind_of_ok (inductionHypothesis read.2)]
        rfl

theorem remaining_of_inflatedMatrix {cursor rest : Cursor} {slot : Option MatArray}
    (read : (cursor.inflatedMatrix wanted).result = .ok (slot, rest)) :
    rest.remaining < cursor.remaining := by
  obtain ⟨⟨element, afterElement⟩, elementRead, read⟩ := Reading.result_bind_eq_ok.mp read
  dsimp only at read
  split at read
  · cases read
  · obtain ⟨found, _, read⟩ := Reading.result_bind_eq_ok.mp read
    cases read
    exact remaining_of_element elementRead

/-- What the next matrix of an inflated stream is read to, whatever is remarked. -/
theorem result_inflatedMatrix (cursor : Cursor) :
    (cursor.inflatedMatrix wanted).result = (do
      let (element, rest) ← cursor.element.result
      if element.tag.type ≠ .matrix then
        throw (.malformed cursor.offset (.inflatedType element.tag.type))
      let array ← (element.payload.matrix wanted).result
      pure (array, rest)) := by
  rw [inflatedMatrix, Reading.result_bind]
  refine congrArg (cursor.element.result >>= ·) (funext fun read => ?_)
  dsimp only
  split
  · rfl
  · rw [Reading.result_bind]
    rfl

/-! ### Bytes that are left -/

/-- Whether bytes are left that are no padding. -/
def HasMore (cursor : Cursor) : Prop := ¬ cursor.atEnd = true ∧ ¬ cursor.atPadding = true

instance (cursor : Cursor) : Decidable cursor.HasMore :=
  inferInstanceAs (Decidable (¬ cursor.atEnd = true ∧ ¬ cursor.atPadding = true))

theorem hasMore_of_tagSize_le {cursor : Cursor} (filled : tagSize ≤ cursor.remaining) :
    cursor.HasMore := by
  refine ⟨not_atEnd_of_tagSize_le filled, ?_⟩
  rw [atPadding, decide_eq_false (Nat.not_lt.mpr filled)]
  exact Bool.false_ne_true

theorem hasMore_append {head : List UInt8} (long : tagSize ≤ head.length) (rest : List UInt8)
    (offset : Nat) (order : ByteOrder) : HasMore ⟨head ++ rest, offset, order⟩ := by
  refine hasMore_of_tagSize_le (long.trans ?_)
  rw [remaining, List.length_append]
  exact Nat.le_add_right _ _

end Cursor

/-! ### Streams -/

/-- A stream yields its items one by one and then nothing, however often it is asked. -/
def ArrayStream.Yields (inflate : Inflater) (wanted : String → Bool) (stream : ArrayStream)
    (yield : Yield) : Prop :=
  ∀ count : Nat, (items inflate wanted (List.replicate count false) stream).result =
    .ok ((List.range count).map fun index => yield.items[index]?)

namespace ArrayStream

variable {inflate : Inflater} {wanted : String → Bool}

/-! ### The next element -/

/-- The stream that yields what an inflated stream does, then goes on reading at a cursor
unless there was an error. -/
def resumed (yield : Yield) (cursor : Cursor) : ArrayStream where
  ready := yield.arrays
  continuation :=
    match yield.failure with
    | none => .reading cursor
    | some error => .failing error

/-- The stream that the next element of a file is read to, with nothing remarked. -/
def elementStream (inflate : Inflater) (wanted : String → Bool) (cursor : Cursor) :
    Except Error ArrayStream := do
  let (element, rest) ← cursor.element.result
  match element.tag.type with
  | .matrix => do
    let array ← (element.payload.matrix wanted).result
    pure ⟨array.toList, .reading rest⟩
  | .compressed => do
    let content ← (element.payload.inflate inflate).result
    pure (resumed (Cursor.inflatedYield wanted content.length (.ofBytes content rest.order)) rest)
  | type => throw (.malformed cursor.offset (.topLevelType type))

/-- What the next element of a file is read to, whatever is remarked. -/
theorem result_topLevel (cursor : Cursor) :
    (cursor.topLevel inflate wanted).result = elementStream inflate wanted cursor := by
  rw [Cursor.topLevel, Reading.result_bind]
  refine congrArg (cursor.element.result >>= ·) (funext fun read => ?_)
  obtain ⟨⟨tag, payload⟩, rest⟩ := read
  dsimp only
  cases tag.type with
  | matrix =>
    dsimp only
    rw [Reading.result_bind]
    rfl
  | compressed =>
    dsimp only
    rw [Reading.result_bind]
    refine congrArg ((payload.inflate inflate).result >>= ·) (funext fun content => ?_)
    rw [Reading.result_bind_of_ok (Cursor.result_inflatedMatrices _ _), resumed]
    cases (Cursor.inflatedYield wanted content.length _).failure <;> rfl
  | _ => rfl

/-- A stream goes on behind the element that was read, which is a matrix or compressed. -/
theorem exists_element_of_elementStream {cursor rest : Cursor} {ready : List MatArray}
    (read : elementStream inflate wanted cursor = .ok ⟨ready, .reading rest⟩) :
    ∃ element : Element, cursor.element.result = .ok (element, rest) ∧
      (element.tag.type = .matrix ∨ element.tag.type = .compressed) := by
  obtain ⟨⟨element, afterElement⟩, elementRead, read⟩ := Outcome.bind_eq_ok.mp read
  dsimp only at read
  split at read
  · rename_i isMatrix
    obtain ⟨slot, _, read⟩ := Outcome.bind_eq_ok.mp read
    cases read
    exact ⟨element, elementRead, .inl isMatrix⟩
  · rename_i isCompressed
    obtain ⟨content, _, read⟩ := Outcome.bind_eq_ok.mp read
    have goesOn := congrArg ArrayStream.continuation (Outcome.pure_eq_ok.mp read)
    dsimp only [resumed] at goesOn
    split at goesOn
    · cases goesOn
      exact ⟨element, elementRead, .inr isCompressed⟩
    · cases goesOn
  · cases read

/-- Fewer bytes are left behind an element. -/
theorem remaining_of_elementStream {cursor rest : Cursor} {ready : List MatArray}
    (read : elementStream inflate wanted cursor = .ok ⟨ready, .reading rest⟩) :
    rest.remaining < cursor.remaining := by
  obtain ⟨element, elementRead, _⟩ := exists_element_of_elementStream read
  exact Cursor.remaining_of_element elementRead

/-- The stream from a cursor on, once the next element is read to an outcome. -/
def following (outcome : Except Error ArrayStream) (cancelled : Bool) (cursor : Cursor) :
    ArrayStream :=
  if cursor.atEnd then ended
  else if cursor.atPadding then ended
  else if cancelled then failing .cancelled
  else
    match outcome with
    | .error error => failing error
    | .ok stream => stream

theorem following_of_atEnd {outcome : Except Error ArrayStream} {cancelled : Bool}
    {cursor : Cursor} (atEnd : cursor.atEnd = true) :
    following outcome cancelled cursor = ended := if_pos atEnd

theorem following_of_not_hasMore {cursor : Cursor} (ends : ¬ cursor.HasMore)
    (outcome : Except Error ArrayStream) (cancelled : Bool) :
    following outcome cancelled cursor = ended := by
  unfold following
  split
  · rfl
  · rename_i more
    split
    · rfl
    · rename_i unpadded
      exact absurd ⟨more, unpadded⟩ ends

theorem following_of_hasMore {cursor : Cursor} (more : cursor.HasMore)
    (outcome : Except Error ArrayStream) (cancelled : Bool) :
    following outcome cancelled cursor =
      if cancelled then failing .cancelled
      else
        match outcome with
        | .error error => failing error
        | .ok stream => stream := by
  rw [following.eq_def, if_neg more.1, if_neg more.2]

theorem result_advance (cursor : Cursor) (cancelled : Bool) :
    (advance inflate cursor cancelled wanted).result =
      .ok (following (cursor.topLevel inflate wanted).result cancelled cursor) := by
  unfold advance following
  split
  · rfl
  · split
    · rfl
    · split
      · rfl
      · rw [Reading.result_bind_of_ok (Reading.result_attempt _)]
        cases (cursor.topLevel inflate wanted).result <;> rfl

/-- A stream goes on reading only where an element was read. -/
theorem eq_ok_of_following {outcome : Except Error ArrayStream} {cancelled : Bool}
    {cursor rest : Cursor} {ready : List MatArray}
    (goesOn : following outcome cancelled cursor = ⟨ready, .reading rest⟩) :
    outcome = .ok ⟨ready, .reading rest⟩ := by
  unfold following at goesOn
  split at goesOn
  · cases goesOn
  · split at goesOn
    · cases goesOn
    · split at goesOn
      · cases goesOn
      · split at goesOn
        · cases goesOn
        · rw [goesOn]

/-! ### Everything a stream yields -/

/-- What the reading of elements is measured by. -/
def measure : ArrayStream → Nat
  | ⟨_, .reading cursor⟩ => cursor.remaining + 1
  | _ => 0

theorem bound_eq (stream : ArrayStream) : stream.bound = stream.measure - 1 := by
  obtain ⟨ready, continuation⟩ := stream
  cases continuation <;> rfl

/-- Reading an element brings the end of the stream nearer. -/
theorem measure_following_lt (inflate : Inflater) (wanted : String → Bool) (cancelled : Bool)
    (cursor : Cursor) :
    (following (cursor.topLevel inflate wanted).result cancelled cursor).measure <
      cursor.remaining + 1 := by
  cases after : following (cursor.topLevel inflate wanted).result cancelled cursor with
  | mk ready continuation =>
    cases continuation with
    | reading rest =>
      have read := eq_ok_of_following after
      rw [result_topLevel] at read
      exact Nat.succ_lt_succ (remaining_of_elementStream read)
    | failing error => exact Nat.succ_pos _
    | ended => exact Nat.succ_pos _

theorem bound_following_le (wanted : String → Bool) (cancelled : Bool) {cursor : Cursor}
    {bound : Nat} (enough : cursor.remaining ≤ bound + 1) :
    (following (cursor.topLevel inflate wanted).result cancelled cursor).bound ≤ bound := by
  have nearer := measure_following_lt inflate wanted cancelled cursor
  rw [bound_eq]
  omega

/-- Everything that a stream yields when it is never cancelled. -/
def everything (inflate : Inflater) (wanted : String → Bool) : ArrayStream → Yield
  | ⟨ready, .reading cursor⟩ =>
    (everything inflate wanted
      (following (cursor.topLevel inflate wanted).result false cursor)).after ready
  | ⟨ready, .failing error⟩ => ⟨ready, some error⟩
  | ⟨ready, .ended⟩ => ⟨ready, none⟩
termination_by stream => stream.measure
decreasing_by exact measure_following_lt inflate wanted false cursor

theorem everything_ready (wanted : String → Bool) (ready : List MatArray)
    (continuation : Continuation) :
    everything inflate wanted ⟨ready, continuation⟩ =
      (everything inflate wanted ⟨[], continuation⟩).after ready := by
  cases continuation with
  | reading cursor => rw [everything, everything]; rfl
  | failing error => rw [everything, everything, Yield.after, List.append_nil]
  | ended => rw [everything, everything, Yield.after, List.append_nil]

theorem everything_cons (array : MatArray) (ready : List MatArray) (continuation : Continuation) :
    everything inflate wanted ⟨array :: ready, continuation⟩ =
      (everything inflate wanted ⟨ready, continuation⟩).after [array] := by
  rw [everything_ready wanted (array :: ready), everything_ready wanted ready]
  rfl

theorem everything_failing (wanted : String → Bool) (ready : List MatArray) (error : Error) :
    everything inflate wanted ⟨ready, .failing error⟩ = ⟨ready, some error⟩ := by
  rw [everything]

theorem everything_ended (wanted : String → Bool) :
    everything inflate wanted ended = ⟨[], none⟩ := by
  rw [ended, everything]

/-- Where bytes are left that are no padding, everything is what the next element is read
to. -/
theorem everything_of_hasMore {cursor : Cursor} (more : cursor.HasMore) :
    everything inflate wanted ⟨[], .reading cursor⟩ =
      match (cursor.topLevel inflate wanted).result with
      | .error error => ⟨[], some error⟩
      | .ok stream => everything inflate wanted stream := by
  rw [everything, following_of_hasMore more, if_neg Bool.false_ne_true]
  cases (cursor.topLevel inflate wanted).result with
  | error error => exact congrArg (Yield.after []) (everything_failing wanted [] error)
  | ok stream => rfl

theorem everything_of_not_hasMore {cursor : Cursor} (ends : ¬ cursor.HasMore) :
    everything inflate wanted ⟨[], .reading cursor⟩ = ⟨[], none⟩ := by
  rw [everything, following_of_not_hasMore ends, everything_ended, Yield.after_empty]

/-- A stream without an error that has no bytes left yields what is ready. -/
theorem everything_of_bound_zero {ready : List MatArray} {continuation : Continuation}
    (live : ∀ error, continuation = .failing error → False)
    (empty : bound ⟨ready, continuation⟩ = 0) :
    everything inflate wanted ⟨ready, continuation⟩ = ⟨ready, none⟩ := by
  cases continuation with
  | reading cursor =>
    rw [everything, following_of_atEnd (Cursor.atEnd_iff.mpr empty), everything_ended,
      Yield.after, List.append_nil]
  | failing error => exact absurd rfl (live error)
  | ended => rw [everything]

/-- What holds of every array that is ready or is read holds of everything. -/
theorem of_everything {property : MatArray → Prop}
    (gives : Cursor.Gives (fun payload => payload.matrix wanted) property) {stream : ArrayStream}
    (ready : stream.AllReady property) : ∀ array ∈ (everything inflate wanted stream).arrays,
      property array := by
  fun_induction everything inflate wanted stream with
  | case1 arrays cursor inductionHypothesis =>
    have later := inductionHypothesis (allReady_of_advance gives (result_advance cursor false))
    intro array member
    rcases List.mem_append.mp member with here | there
    · exact ready array here
    · exact later array there
  | case2 => exact ready
  | case3 => exact ready

/-- Asking a stream once gives the first of everything it yields and leaves the others. -/
theorem result_nextWithin (wanted : String → Bool) {bound : Nat} {stream : ArrayStream}
    (enough : stream.bound ≤ bound) :
    ∃ after : ArrayStream, (nextWithin inflate false wanted bound stream).result =
        .ok ((everything inflate wanted stream).items.head?, after) ∧
      (everything inflate wanted after).items = (everything inflate wanted stream).items.tail := by
  fun_induction nextWithin inflate false wanted bound stream with
  | case1 bound array ready continuation =>
    exact ⟨⟨ready, continuation⟩, by rw [everything_cons]; rfl, by rw [everything_cons]; rfl⟩
  | case2 bound error =>
    exact ⟨ended, by rw [everything]; rfl, by rw [everything_ended, everything]; rfl⟩
  | case3 continuation live =>
    have nothing : everything inflate wanted ⟨[], continuation⟩ = ⟨[], none⟩ :=
      everything_of_bound_zero live (Nat.le_zero.mp enough)
    exact ⟨ended, by rw [nothing]; rfl, by rw [nothing, everything_ended]; rfl⟩
  | case4 =>
    exact ⟨ended, by rw [everything]; rfl, by rw [everything_ended, everything]; rfl⟩
  | case5 bound cursor inductionHypothesis =>
    obtain ⟨after, yielded, others⟩ :=
      inductionHypothesis _ (bound_following_le wanted false enough)
    refine ⟨after, ?_, ?_⟩
    · rw [Reading.result_bind_of_ok (result_advance cursor false), yielded, everything]
      rfl
    · rw [others, everything]
      rfl

/-- A stream yields everything it has to yield, and nothing after that. -/
theorem yields_everything (inflate : Inflater) (wanted : String → Bool) (stream : ArrayStream) :
    stream.Yields inflate wanted (everything inflate wanted stream) := by
  intro count
  induction count generalizing stream with
  | zero => rfl
  | succ count inductionHypothesis =>
    obtain ⟨after, yielded, others⟩ := result_nextWithin wanted (Nat.le_refl stream.bound)
    rw [List.replicate_succ, items, next, Reading.result_bind_of_ok yielded]
    dsimp only
    rw [Reading.result_bind_of_ok (inductionHypothesis after), Reading.result_pure, others,
      List.range_succ_eq_map, List.map_cons, List.map_map, List.head?_eq_getElem?]
    refine congrArg (fun rest => Except.ok (_ :: rest)) (List.map_congr_left fun index _ => ?_)
    rw [List.getElem?_tail, Function.comp_apply]

/-- A stream yields one thing only. -/
theorem Yields.unique {stream : ArrayStream} {first second : Yield}
    (yields : stream.Yields inflate wanted first) (others : stream.Yields inflate wanted second) :
    first = second := by
  refine Yield.eq_of_items (List.ext_getElem? fun index => ?_)
  have same := Except.ok.inj ((yields (index + 1)).symm.trans (others (index + 1)))
  exact List.map_inj_left.mp same index (List.mem_range.mpr (Nat.lt_succ_self index))

theorem result_arraysWithin {bound : Nat} {stream : ArrayStream} (enough : stream.bound ≤ bound) :
    (arraysWithin inflate wanted bound stream).result =
      (everything inflate wanted stream).result := by
  fun_induction arraysWithin inflate wanted bound stream with
  | case1 bound ready error => rw [everything]; rfl
  | case2 ready continuation live =>
    rw [everything_of_bound_zero live (Nat.le_zero.mp enough)]
    rfl
  | case3 bound ready => rw [everything]; rfl
  | case4 bound ready cursor inductionHypothesis =>
    rw [Reading.result_bind_of_ok (result_advance cursor false), Reading.result_bind,
      inductionHypothesis _ (bound_following_le wanted false enough), everything]
    generalize everything inflate wanted
      (following (cursor.topLevel inflate wanted).result false cursor) = yield
    obtain ⟨arrays, failure⟩ := yield
    cases failure with
    | none => rfl
    | some error => rfl

/-- All arrays of a stream are everything it yields, unless an error is among it. -/
theorem result_arrays (wanted : String → Bool) (stream : ArrayStream) :
    (stream.arrays inflate wanted).result = (everything inflate wanted stream).result :=
  result_arraysWithin (Nat.le_refl stream.bound)

end ArrayStream

/-- The stream of a file starts after its header. -/
theorem openStream_eq_ok {bytes : List UInt8} {header : Header} {stream : ArrayStream} :
    (openStream bytes).result = .ok (header, stream) ↔
      (Header.read bytes).result = .ok header ∧
        stream = ⟨[], .reading ((Cursor.ofBytes bytes header.order).skipAtMost headerSize).2⟩ := by
  rw [openStream, Reading.result_bind_eq_ok]
  constructor
  · rintro ⟨found, read, opened⟩
    cases opened
    exact ⟨read, rfl⟩
  · rintro ⟨read, rfl⟩
    exact ⟨header, read, rfl⟩

end MatFormat
