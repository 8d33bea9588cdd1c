/-
This file compares a run that is cancelled before one of its calls with the run that never is.
Up to that call both are the same run. From there on the cancelled one reads nothing: its calls
are told without any reader of elements. They yield the arrays that the element read last has
left ready, which takes a compressed one, and then end in the error or the end that was due
already, or else in the cancellation that takes the place of the bytes that are left. So
cancelling only cuts a run short.
-/

import MatFormat.Proofs.Located
import MatFormat.Proofs.Stream.Delivery

namespace MatFormat

/-! ### Calls of a cancelled stream -/

/-- The error that a stream without ready arrays ends in once it is cancelled, if it ends in
any. -/
def Continuation.cutShort : Continuation → Option Error
  | .reading cursor => if cursor.HasMore then some .cancelled else none
  | .failing error => some error
  | .ended => none

namespace ArrayStream

/-- Yield the next item of a stream that reads no element: an array that is ready, or how the
stream ends where it is. -/
def nextReady : ArrayStream → Reading (Option (Except Error MatArray) × ArrayStream)
  | ⟨array :: ready, continuation⟩ => pure (some (.ok array), ⟨ready, continuation⟩)
  | ⟨[], .failing error⟩ => pure (some (.error error), ended)
  | ⟨[], .ended⟩ => pure (none, ended)
  | ⟨[], .reading cursor⟩ =>
    if cursor.atEnd then pure (none, ended)
    else if cursor.atPadding then do
      Reading.note (.trailingPadding cursor.remaining)
      pure (none, ended)
    else do
      Reading.note (.cancelled cursor.offset)
      pure (some (.error .cancelled), ended)

/-- Ask a stream that reads no element a number of times. -/
def runReady : (count : Nat) → ArrayStream →
    Reading (List (Option (Except Error MatArray)) × ArrayStream)
  | 0, stream => pure ([], stream)
  | count + 1, stream => do
    let (item, stream) ← stream.nextReady
    let (rest, stream) ← runReady count stream
    pure (item :: rest, stream)

variable {inflate : Inflater} {wanted : String → Bool}

/-- A cancelled call reads no element. -/
theorem next_cancelled (stream : ArrayStream) :
    stream.next inflate true wanted = stream.nextReady := by
  obtain ⟨_ | ⟨array, ready⟩, continuation⟩ := stream
  · cases continuation with
    | failing error | ended => rfl
    | reading cursor =>
      rw [next, bound, nextReady]
      dsimp only
      cases size : cursor.remaining with
      | zero =>
        rw [if_pos (Cursor.atEnd_iff.mpr size)]
        rfl
      | succ bound =>
        rw [nextWithin, advance]
        split
        · cases bound <;> rfl
        · split
          · rw [size]
            cases bound <;> rfl
          · cases bound <;> rfl
  · rw [next, nextWithin, nextReady]

/-- Cancelled calls read no element. -/
theorem run_of_cancelled (count : Nat) (stream : ArrayStream) :
    run inflate wanted (calls (fun _ => true) count) stream = runReady count stream := by
  induction count generalizing stream with
  | zero => rfl
  | succ count inductionHypothesis =>
    rw [calls_succ, run, runReady, next_cancelled]
    refine congrArg (stream.nextReady >>= ·) (funext fun answer => ?_)
    dsimp only
    rw [inductionHypothesis]

theorem answer_cutShort (continuation : Continuation) :
    answer inflate wanted true ⟨[], continuation⟩ =
      (continuation.cutShort.map .error, ended) := by
  cases continuation with
  | failing error => rw [answer]; rfl
  | ended => rw [answer]; rfl
  | reading cursor =>
    rw [answer, Continuation.cutShort]
    by_cases more : cursor.HasMore
    · rw [following_of_hasMore more, if_pos rfl, failing, answer, if_pos more]
      rfl
    · rw [following_of_not_hasMore more, ended, answer, if_neg more]
      rfl

/-- A cancelled stream yields what is ready, and then ends. -/
theorem yieldsOn_cutShort (ready : List MatArray) (continuation : Continuation) :
    YieldsOn inflate wanted (fun _ => true) ⟨ready, continuation⟩
      ⟨ready, continuation.cutShort⟩ := by
  rw [← Yield.after_nil]
  exact .ready ready (.last (answer_cutShort continuation))

/-- The calls of a schedule that cancels before one of them. -/
theorem calls_cancelledBefore (count more : Nat) :
    calls (fun call => decide (count ≤ call)) (count + more) =
      calls (fun _ => false) count ++ calls (fun _ => true) more := by
  rw [calls, List.range_add, List.map_append, List.map_map]
  refine congrArg₂ (· ++ ·) (List.map_congr_left fun call before => ?_)
    (List.map_congr_left fun call _ => ?_)
  · exact decide_eq_false (Nat.not_le.mpr (List.mem_range.mp before))
  · exact decide_eq_true (Nat.le_add_right count call)

/-- A run that is cancelled before one of its calls is the run that never is up to there, and
reads nothing from there on. -/
theorem run_cancelledBefore (count more : Nat) (stream : ArrayStream) :
    run inflate wanted (calls (fun call => decide (count ≤ call)) (count + more)) stream = (do
      let (items, after) ← run inflate wanted (calls (fun _ => false) count) stream
      let (rest, last) ← runReady more after
      pure (items ++ rest, last)) := by
  rw [calls_cancelledBefore, run_append]
  simp only [run_of_cancelled]

/-! ### The calls before -/

/-- A stream that is cancelled before a call has yielded the first of everything by then, and
goes on as a cancelled stream, unless it has yielded everything and is ended. -/
theorem yieldsOn_cancelled (inflate : Inflater) (wanted : String → Bool) (count : Nat)
    (stream : ArrayStream) :
    ∃ after : ArrayStream,
      (stream.answers inflate wanted (calls (fun _ => false) count)).2 = after ∧
      ((∃ first : List MatArray, first.length = count ∧
          everything inflate wanted stream = (everything inflate wanted after).after first ∧
          stream.YieldsOn inflate wanted (fun call => decide (count ≤ call))
            ⟨first ++ after.ready, after.continuation.cutShort⟩) ∨
        (everything inflate wanted stream).arrays.length < count ∧ after = ended ∧
          stream.YieldsOn inflate wanted (fun call => decide (count ≤ call))
            (everything inflate wanted stream)) := by
  induction count generalizing stream with
  | zero =>
    refine ⟨stream, rfl, .inl ⟨[], rfl, (Yield.after_empty _).symm, ?_⟩⟩
    simp only [Nat.zero_le, decide_true]
    exact yieldsOn_cutShort stream.ready stream.continuation
  | succ count inductionHypothesis =>
    have lowered : decide (count + 1 ≤ 0) = false := decide_eq_false (Nat.not_succ_le_zero count)
    rw [calls_succ, answers]
    rcases @everything_of_answer inflate wanted stream with
      ⟨array, next, answered, yielded⟩ | ⟨failure, answered, yielded⟩
    · obtain ⟨after, behind, compared⟩ := inductionHypothesis next
      rw [answered]
      refine ⟨after, behind, ?_⟩
      have onward {yield : Yield}
          (later : next.YieldsOn inflate wanted (fun call => decide (count ≤ call)) yield) :
          stream.YieldsOn inflate wanted (fun call => decide (count + 1 ≤ call))
            (yield.after [array]) := by
        refine YieldsOn.array (by rw [lowered]; exact answered) ?_
        simp only [Nat.add_le_add_iff_right]
        exact later
      rcases compared with ⟨first, length, split, yields⟩ | ⟨exhausted, ends, yields⟩
      · refine .inl ⟨array :: first, congrArg Nat.succ length, ?_, onward yields⟩
        rw [yielded, split, Yield.after_after]
        rfl
      · rw [yielded]
        exact .inr ⟨Nat.succ_lt_succ exhausted, ends, onward yields⟩
    · rw [answered, yielded]
      refine ⟨ended, congrArg Prod.snd (answers_ended wanted _), .inr ⟨Nat.succ_pos count, rfl, ?_⟩⟩
      exact .last (by rw [lowered]; exact answered)

end ArrayStream

/-! ### The arrays that are ready -/

namespace ArrayStream

variable {inflate : Inflater} {wanted : String → Bool} {start cursor : Cursor}

/-- The arrays that are ready are left over from the element that was read last: a compressed
one at a place that reading has come to from a cursor. They are the last of those that it
spells, and the stream goes on behind it, or with the error in it. -/
def LeftOver (inflate : Inflater) (wanted : String → Bool) (start : Cursor)
    (stream : ArrayStream) : Prop :=
  ∃ (place rest : Cursor) (element : Element) (content : List UInt8) (yield : Yield),
    Relation.ReflTransGen (Cursor.LeadsTo inflate wanted) start place ∧ place.HasMore ∧
      place.element.result = .ok (element, rest) ∧ element.tag.type = .compressed ∧
      (element.payload.inflate inflate).result = .ok content ∧
      Cursor.Inflates wanted (.ofBytes content rest.order) yield ∧
      stream.ready <:+ yield.arrays ∧ stream.continuation = (resumed yield rest).continuation

theorem LeftOver.tail {start : Cursor} {array : MatArray} {ready : List MatArray}
    {continuation : Continuation}
    (left : LeftOver inflate wanted start ⟨array :: ready, continuation⟩) :
    LeftOver inflate wanted start ⟨ready, continuation⟩ := by
  obtain ⟨place, rest, element, content, yield, reached, more, found, type, spelled, inflates,
    last, behind⟩ := left
  exact ⟨place, rest, element, content, yield, reached, more, found, type, spelled, inflates,
    (List.suffix_cons array ready).trans last, behind⟩

/-- What is known between two calls of a stream that began to read at a cursor. The error or the
place that it goes on with comes from there, and arrays are ready only from the element that was
read last. -/
structure Between (inflate : Inflater) (wanted : String → Bool) (start : Cursor)
    (stream : ArrayStream) : Prop where
  continues : start.Continues stream.continuation
  reached : ∀ rest, stream.continuation = .reading rest →
    Relation.ReflTransGen (Cursor.LeadsTo inflate wanted) start rest
  left : stream.ready = [] ∨ stream.LeftOver inflate wanted start

/-- No more than one array is ready where a matrix was read. -/
theorem ready_following (reached : Relation.ReflTransGen (Cursor.LeadsTo inflate wanted)
    start cursor) :
    let stream := following (cursor.topLevel inflate wanted).result false cursor
    stream.ready.length ≤ 1 ∨ stream.LeftOver inflate wanted start := by
  by_cases more : cursor.HasMore
  · rw [following_of_hasMore more, if_neg Bool.false_ne_true]
    cases read : (cursor.topLevel inflate wanted).result with
    | error error => exact .inl (Nat.zero_le 1)
    | ok stream =>
      rw [result_topLevel] at read
      obtain ⟨⟨element, rest⟩, found, read⟩ := Outcome.bind_eq_ok.mp read
      dsimp only at read
      split at read
      · obtain ⟨slot, _, read⟩ := Outcome.bind_eq_ok.mp read
        cases read
        cases slot with
        | none => exact .inl (Nat.zero_le 1)
        | some array => exact .inl (Nat.le_refl 1)
      · rename_i type
        obtain ⟨content, spelled, read⟩ := Outcome.bind_eq_ok.mp read
        cases read
        exact .inr ⟨cursor, rest, element, content, _, reached, more, found, type, spelled,
          Cursor.inflates_inflatedYield (Nat.le_refl content.length), List.suffix_refl _, rfl⟩
      · cases read
  · rw [following_of_not_hasMore more]
    exact .inl (Nat.zero_le 1)

theorem reached_following (reached : Relation.ReflTransGen (Cursor.LeadsTo inflate wanted)
    start cursor) {rest : Cursor}
    (goesOn : (following (cursor.topLevel inflate wanted).result false cursor).continuation =
      .reading rest) :
    Relation.ReflTransGen (Cursor.LeadsTo inflate wanted) start rest := by
  cases after : following (cursor.topLevel inflate wanted).result false cursor with
  | mk ready continuation =>
    rw [after] at goesOn
    cases goesOn
    exact reached.tail ⟨ready, eq_ok_of_following after⟩

/-- A call that is not cancelled passes over no more than one array of a matrix. -/
theorem between_answer {stream : ArrayStream} (continues : start.Continues stream.continuation)
    (reached : ∀ rest, stream.continuation = .reading rest →
      Relation.ReflTransGen (Cursor.LeadsTo inflate wanted) start rest)
    (ready : stream.ready.length ≤ 1 ∨ stream.LeftOver inflate wanted start) :
    (stream.answer inflate wanted false).2.Between inflate wanted start := by
  fun_induction answer inflate wanted false stream with
  | case1 array arrays continuation =>
    refine ⟨continues, reached, ready.imp (fun single => ?_) LeftOver.tail⟩
    exact List.eq_nil_of_length_eq_zero (Nat.le_zero.mp (Nat.le_of_succ_le_succ single))
  | case2 | case3 =>
    refine ⟨trivial, fun rest goesOn => ?_, .inl rfl⟩
    cases goesOn
  | case4 cursor inductionHypothesis =>
    have here := reached cursor rfl
    exact inductionHypothesis (continues_following continues)
      (fun _ goesOn => reached_following here goesOn) (ready_following here)

theorem Between.answers {stream : ArrayStream} (between : stream.Between inflate wanted start)
    (count : Nat) :
    (stream.answers inflate wanted (calls (fun _ => false) count)).2.Between inflate wanted
      start := by
  induction count generalizing stream with
  | zero => exact between
  | succ count inductionHypothesis =>
    rw [calls_succ, ArrayStream.answers]
    refine inductionHypothesis (between_answer between.continues between.reached ?_)
    exact between.left.imp_left fun none => by rw [none]; exact Nat.zero_le 1

/-! ### The end -/

theorem ready_isPrefix_everything (stream : ArrayStream) :
    stream.ready <+: (everything inflate wanted stream).arrays := by
  rw [everything_ready wanted stream.ready stream.continuation]
  exact List.prefix_append stream.ready _

/-- A stream that is not cancelled does not end in a cancellation. -/
theorem everything_ne_cancelled {stream : ArrayStream}
    (continues : start.Continues stream.continuation) :
    (everything inflate wanted stream).failure ≠ some .cancelled := by
  intro cancelled
  rcases within_everything continues cancelled with within | ⟨_, _, within⟩
  · exact within.ne_cancelled rfl
  · exact within.ne_cancelled rfl

/-- A stream ends in a cancellation only where bytes are left that it would read. -/
theorem cutShort_eq_cancelled {continuation : Continuation}
    (continues : start.Continues continuation) :
    continuation.cutShort = some .cancelled ↔
      ∃ rest, continuation = .reading rest ∧ rest.HasMore := by
  cases continuation with
  | reading rest =>
    constructor
    · intro cancelled
      refine ⟨rest, rfl, ?_⟩
      by_contra stops
      rw [Continuation.cutShort, if_neg stops] at cancelled
      cases cancelled
    · rintro ⟨_, same, more⟩
      cases same
      exact if_pos more
  | failing error =>
    refine ⟨fun cancelled => ?_, nofun⟩
    have ne_cancelled : error ≠ .cancelled :=
      continues.elim Error.Within.ne_cancelled fun ⟨_, _, within⟩ => within.ne_cancelled
    exact absurd (Option.some.inj cancelled) ne_cancelled
  | ended => exact ⟨nofun, nofun⟩

/-- Unless it ends in a cancellation, a cancelled stream yields everything. -/
theorem everything_of_cutShort {ready : List MatArray} {continuation : Continuation}
    (uncut : continuation.cutShort ≠ some .cancelled) :
    everything inflate wanted ⟨ready, continuation⟩ = ⟨ready, continuation.cutShort⟩ := by
  cases continuation with
  | reading rest =>
    have stops : ¬ rest.HasMore := fun more => uncut (if_pos more)
    rw [everything, following_of_not_hasMore stops, everything_ended, Yield.after_nil,
      Continuation.cutShort, if_neg stops]
  | failing error => exact everything_failing wanted ready error
  | ended => rw [everything]; rfl

end ArrayStream

/-! ### Cancelled runs -/

/-- A run of a file that is cancelled before one of its calls is the run that never is up to
that call, and from there on no element is read any more. The arrays that still come are ready
by then, left over from the element that was read last. The cancelled run ends in a cancellation
exactly if reading would have gone on, with bytes left that are no padding, and just as the
other run does if not. -/
theorem run_cancelled (inflate : Inflater) (wanted : String → Bool) {bytes : List UInt8}
    {header : Header} {stream : ArrayStream}
    (opened : (openStream bytes).result = .ok (header, stream)) (count : Nat) :
    ∃ (cursor : Cursor) (full cut : Yield) (items : List (Option (Except Error MatArray)))
      (after : ArrayStream),
      stream = ⟨[], .reading cursor⟩ ∧
      stream.YieldsOn inflate wanted (fun _ => false) full ∧
      stream.YieldsOn inflate wanted (fun call => decide (count ≤ call)) cut ∧
      (stream.run inflate wanted (ArrayStream.calls (fun _ => false) count)).result =
        .ok (items, after) ∧
      (∀ more, stream.run inflate wanted
          (ArrayStream.calls (fun call => decide (count ≤ call)) (count + more)) = (do
        let (items, after) ← stream.run inflate wanted (ArrayStream.calls (fun _ => false) count)
        let (rest, last) ← after.runReady more
        pure (items ++ rest, last))) ∧
      cut.arrays <+: full.arrays ∧
      (∀ index < count, cut.items[index]? = full.items[index]?) ∧
      cut.arrays = full.arrays.take count ++ after.ready ∧
      (after.ready = [] ∨ after.LeftOver inflate wanted cursor) ∧
      (cut.failure = some .cancelled ↔
        ∃ rest, after.continuation = .reading rest ∧ rest.HasMore) ∧
      (cut.failure ≠ some .cancelled → cut = full) := by
  obtain ⟨_, rfl⟩ := openStream_eq_ok.mp opened
  generalize ((Cursor.ofBytes bytes header.order).skipAtMost headerSize).2 = cursor
  have started : ArrayStream.Between inflate wanted cursor ⟨[], .reading cursor⟩ :=
    ⟨Cursor.Inside.refl cursor, fun rest same => by cases same; exact .refl, .inl rfl⟩
  obtain ⟨after, behind, compared⟩ :=
    ArrayStream.yieldsOn_cancelled inflate wanted count ⟨[], .reading cursor⟩
  have between := started.answers count
  rw [behind] at between
  have ran : ∃ items, (ArrayStream.run inflate wanted (ArrayStream.calls (fun _ => false) count)
      ⟨[], .reading cursor⟩).result = .ok (items, after) :=
    ⟨_, (ArrayStream.result_run wanted _ _).trans (congrArg Except.ok (Prod.ext rfl behind))⟩
  obtain ⟨items, ran⟩ := ran
  have full := ArrayStream.yieldsOn_everything inflate wanted ⟨[], .reading cursor⟩
  rcases compared with ⟨first, length, split, cut⟩ | ⟨exhausted, ends, cut⟩
  · rw [split] at full
    have rest := @ArrayStream.ready_isPrefix_everything inflate wanted after
    refine ⟨cursor, _, _, items, after, rfl, full, cut, ran,
      fun more => ArrayStream.run_cancelledBefore count more _,
      (List.prefix_append_right_inj first).mpr rest,
      fun index before => Yield.getElem?_items_after (length ▸ before) ⟨after.ready, _⟩ _, ?_,
      between.left, ArrayStream.cutShort_eq_cancelled between.continues, fun uncut => ?_⟩
    · exact congrArg (· ++ after.ready) (List.take_left' length).symm
    · rw [ArrayStream.everything_of_cutShort uncut]
      rfl
  · refine ⟨cursor, _, _, items, after, rfl, full, cut, ran,
      fun more => ArrayStream.run_cancelledBefore count more _, List.prefix_rfl, fun _ _ => rfl, ?_,
      between.left, ?_, fun _ => rfl⟩
    · rw [ends, List.take_of_length_le (Nat.le_of_lt exhausted)]
      exact (List.append_nil _).symm
    · rw [ends]
      exact ⟨fun cancelled =>
        absurd cancelled (ArrayStream.everything_ne_cancelled started.continues), nofun⟩

/-- Where the flag is raised while two arrays of a shared element are ready, these are delivered,
and then the cancellation in place of the last array. -/
theorem delivers_sharedFile :
    Cursor.Delivers Zlib.inflater (fun _ => true) (fun call => decide (2 ≤ call))
      ⟨sharedRuns.flatMap (ElementRun.bytes .little), headerSize, .little⟩
      ⟨[scalar "a" 1, scalar "b" 2, scalar "c" 3, scalar "a" 4], some .cancelled⟩ := by
  have bytes : sharedRuns.flatMap (ElementRun.bytes .little) = (letterElement 97 1).bytes .little ++
      (tagBytes .little .compressed sharedStream.length ++ sharedStream ++
        (letterElement 98 5).bytes .little) := by
    simp only [sharedRuns, ElementRun.bytes, ElementRun.content, List.flatMap_cons,
      List.flatMap_nil, List.append_nil]
  rw [bytes]
  have last (offset : Nat) : Cursor.Delivers Zlib.inflater (fun _ => true)
      (fun call => decide (2 ≤ 1 + (3 + call)))
      ⟨(letterElement 98 5).bytes .little, offset, .little⟩ ⟨[], some .cancelled⟩ :=
    .cancelled (Cursor.hasMore_of_tagSize_le (MatrixElement.tagSize_le _ _)) rfl
  have shared (offset : Nat) : Cursor.Delivers Zlib.inflater (fun _ => true)
      (fun call => decide (2 ≤ 1 + call))
      ⟨tagBytes .little .compressed sharedStream.length ++ sharedStream ++
        (letterElement 98 5).bytes .little, offset, .little⟩
      (Yield.after [scalar "b" 2, scalar "c" 3, scalar "a" 4] ⟨[], some .cancelled⟩) :=
    .of_compressedRun length_sharedStream rfl (Zlib.inflater_deflate 6 _) rfl (last _)
  have whole : Cursor.Delivers Zlib.inflater (fun _ => true) (fun call => decide (2 ≤ call))
      ⟨(letterElement 97 1).bytes .little ++ (tagBytes .little .compressed sharedStream.length ++
        sharedStream ++ (letterElement 98 5).bytes .little), headerSize, .little⟩
      (Yield.after (some (scalar "a" 1)).toList _) :=
    .of_matrixElement rfl rfl (shared _)
  exact whole

theorem run_cancelled_sharedFile :
    (openStream (Header.encode "" .little ++
        sharedRuns.flatMap (ElementRun.bytes .little))).result =
          .ok (Header.written "" .little, sharedFile) ∧
      ∃ (cursor : Cursor) (full cut : Yield) (items : List (Option (Except Error MatArray)))
        (after : ArrayStream),
        sharedFile = ⟨[], .reading cursor⟩ ∧
        sharedFile.YieldsOn Zlib.inflater (fun _ => true) (fun _ => false) full ∧
        sharedFile.YieldsOn Zlib.inflater (fun _ => true) (fun call => decide (2 ≤ call)) cut ∧
        (sharedFile.run Zlib.inflater (fun _ => true)
          (ArrayStream.calls (fun _ => false) 2)).result = .ok (items, after) ∧
        full = ⟨[scalar "a" 1, scalar "b" 2, scalar "c" 3, scalar "a" 4, scalar "b" 5], none⟩ ∧
        cut = ⟨[scalar "a" 1, scalar "b" 2, scalar "c" 3, scalar "a" 4], some .cancelled⟩ ∧
        after.ready = [scalar "c" 3, scalar "a" 4] ∧
        after.LeftOver Zlib.inflater (fun _ => true) cursor ∧
        ∃ rest, after.continuation = .reading rest ∧ rest.HasMore := by
  have opened : (openStream (Header.encode "" .little ++
      sharedRuns.flatMap (ElementRun.bytes .little))).result =
        .ok (Header.written "" .little, sharedFile) := openStream_encode "" _
  obtain ⟨cursor, full, cut, items, after, same, yieldsFull, yieldsCut, ran, _, _, _, arrays, left,
    cancelled, _⟩ := run_cancelled Zlib.inflater (fun _ => true) opened 2
  have whole := (yieldsFull.unique (ArrayStream.yieldsOn_everything _ _ _)).trans
    everything_sharedFile
  have short := yieldsCut.unique (ArrayStream.yieldsOn_of_delivers delivers_sharedFile)
  subst whole short
  have ready : after.ready = [scalar "c" 3, scalar "a" 4] :=
    (List.cons.inj (List.cons.inj arrays).2).2.symm
  refine ⟨opened, cursor, _, _, items, after, same, yieldsFull, yieldsCut, ran, rfl, rfl, ready,
    left.resolve_left fun none => ?_, cancelled.mp rfl⟩
  rw [ready] at none
  cases none

end MatFormat
