/-
This file follows a stream that is asked again and again while the flag of cancellation goes
up and down. Within one call the flag stays as it is, so a call is one answer: the next array
that is ready, or what the stream behind the next element answers under the same flag. What a
whole schedule of calls yields is put together from these answers: arrays that are ready come
first whatever the flag says, and an error or nothing comes once and leaves the stream ended.
-/

import MatFormat.Proofs.Stream.Run

namespace MatFormat

namespace ArrayStream

variable {inflate : Inflater} {wanted : String → Bool}

/-! ### One call -/

/-- What a stream answers when it is asked once, and the stream behind the answer. -/
def answer (inflate : Inflater) (wanted : String → Bool) (cancelled : Bool) :
    ArrayStream → Option (Except Error MatArray) × ArrayStream
  | ⟨array :: ready, continuation⟩ => (some (.ok array), ⟨ready, continuation⟩)
  | ⟨[], .failing error⟩ => (some (.error error), ended)
  | ⟨[], .ended⟩ => (none, ended)
  | ⟨[], .reading cursor⟩ =>
    answer inflate wanted cancelled
      (following (cursor.topLevel inflate wanted).result cancelled cursor)
termination_by stream => stream.measure
decreasing_by exact measure_following_lt inflate wanted cancelled cursor

theorem result_nextWithin_eq (wanted : String → Bool) (cancelled : Bool) {bound : Nat}
    {stream : ArrayStream} (enough : stream.bound ≤ bound) :
    (nextWithin inflate cancelled wanted bound stream).result =
      .ok (stream.answer inflate wanted cancelled) := by
  fun_induction nextWithin inflate cancelled wanted bound stream with
  | case1 bound array ready continuation => rw [answer]; rfl
  | case2 bound error => rw [answer]; rfl
  | case3 continuation live =>
    cases continuation with
    | reading cursor =>
      have empty : cursor.atEnd = true := Cursor.atEnd_iff.mpr (Nat.le_zero.mp enough)
      rw [answer, following_of_atEnd empty, ended, answer]
      rfl
    | failing error => exact absurd rfl (live error)
    | ended => rw [answer]; rfl
  | case4 =>
    rw [answer]
    rfl
  | case5 bound cursor inductionHypothesis =>
    rw [Reading.result_bind_of_ok (result_advance cursor cancelled),
      inductionHypothesis _ (bound_following_le wanted cancelled enough), answer]

/-- A stream that is not cancelled answers with the first of everything it yields. -/
theorem everything_of_answer (stream : ArrayStream) :
    (∃ array after, stream.answer inflate wanted false = (some (.ok array), after) ∧
        everything inflate wanted stream = (everything inflate wanted after).after [array]) ∨
      ∃ failure : Option Error, stream.answer inflate wanted false = (failure.map .error, ended) ∧
        everything inflate wanted stream = ⟨[], failure⟩ := by
  fun_induction answer inflate wanted false stream with
  | case1 array ready continuation => exact .inl ⟨array, _, rfl, everything_cons _ _ _⟩
  | case2 error => exact .inr ⟨some error, rfl, everything_failing _ _ _⟩
  | case3 => exact .inr ⟨none, rfl, everything_ended wanted⟩
  | case4 cursor inductionHypothesis =>
    rw [everything, Yield.after_empty]
    exact inductionHypothesis

/-- Every call has an answer. -/
theorem result_next (wanted : String → Bool) (cancelled : Bool) (stream : ArrayStream) :
    (stream.next inflate cancelled wanted).result = .ok (stream.answer inflate wanted cancelled) :=
  result_nextWithin_eq wanted cancelled (Nat.le_refl stream.bound)

/-- An ended stream has nothing to yield and reads nothing. -/
theorem next_ended (cancelled : Bool) :
    ended.next inflate cancelled wanted = ⟨[], .ok (none, ended)⟩ := rfl

/-! ### Many calls -/

/-- The items that a stream yields when it is asked once for each entry of a schedule, which
tells whether the stream is cancelled by then, and the stream behind them. -/
def run (inflate : Inflater) (wanted : String → Bool) :
    (schedule : List Bool) → ArrayStream →
      Reading (List (Option (Except Error MatArray)) × ArrayStream)
  | [], stream => pure ([], stream)
  | cancelled :: schedule, stream => do
    let (item, stream) ← stream.next inflate cancelled wanted
    let (rest, stream) ← run inflate wanted schedule stream
    pure (item :: rest, stream)

/-- The calls of one schedule and then those of another are the calls of both. -/
theorem run_append (first second : List Bool) (stream : ArrayStream) :
    run inflate wanted (first ++ second) stream = (do
      let (items, after) ← run inflate wanted first stream
      let (rest, last) ← run inflate wanted second after
      pure (items ++ rest, last)) := by
  induction first generalizing stream with
  | nil => exact (bind_pure _).symm
  | cons cancelled first inductionHypothesis =>
    rw [List.cons_append, run, run, bind_assoc]
    refine congrArg (stream.next inflate cancelled wanted >>= ·) (funext fun answer => ?_)
    simp only [inductionHypothesis, bind_assoc, pure_bind, List.cons_append]

/-- The answers of a stream to the calls of a schedule, and the stream behind them. -/
def answers (inflate : Inflater) (wanted : String → Bool) :
    (schedule : List Bool) → ArrayStream → List (Option (Except Error MatArray)) × ArrayStream
  | [], stream => ([], stream)
  | cancelled :: schedule, stream =>
    let (item, stream) := stream.answer inflate wanted cancelled
    let (rest, stream) := answers inflate wanted schedule stream
    (item :: rest, stream)

theorem result_run (wanted : String → Bool) (schedule : List Bool) (stream : ArrayStream) :
    (run inflate wanted schedule stream).result = .ok (answers inflate wanted schedule stream) := by
  induction schedule generalizing stream with
  | nil => rfl
  | cons cancelled schedule inductionHypothesis =>
    rw [run, Reading.result_bind_of_ok (result_next wanted cancelled stream)]
    dsimp only
    rw [Reading.result_bind_of_ok (inductionHypothesis _)]
    rfl

theorem answers_ended (wanted : String → Bool) (schedule : List Bool) :
    ended.answers inflate wanted schedule = (List.replicate schedule.length none, ended) := by
  induction schedule with
  | nil => rfl
  | cons cancelled schedule inductionHypothesis =>
    rw [answers, ended, answer]
    dsimp only
    rw [inductionHypothesis]
    rfl

/-- The first calls of a schedule that never stops. -/
def calls (schedule : Nat → Bool) (count : Nat) : List Bool := (List.range count).map schedule

theorem calls_succ (schedule : Nat → Bool) (count : Nat) :
    calls schedule (count + 1) = schedule 0 :: calls (fun call => schedule (call + 1)) count := by
  rw [calls, List.range_succ_eq_map, List.map_cons, List.map_map]
  rfl

/-- On a schedule a stream yields its items one by one and then nothing, however often it is
asked, and it is ended as soon as it has yielded anything but an array. -/
def YieldsOn (inflate : Inflater) (wanted : String → Bool) (schedule : Nat → Bool)
    (stream : ArrayStream) (yield : Yield) : Prop :=
  ∀ count : Nat, ∃ after : ArrayStream,
    (run inflate wanted (calls schedule count) stream).result =
      .ok ((List.range count).map fun index => yield.items[index]?, after) ∧
    (yield.arrays.length < count → after = ended)

/-- A stream that answers with an array yields it, and then what the stream behind it does on
the rest of the schedule. -/
theorem YieldsOn.array {schedule : Nat → Bool} {stream after : ArrayStream} {array : MatArray}
    (first : stream.answer inflate wanted (schedule 0) = (some (.ok array), after)) {yield : Yield}
    (later : after.YieldsOn inflate wanted (fun call => schedule (call + 1)) yield) :
    stream.YieldsOn inflate wanted schedule (yield.after [array]) := by
  intro count
  cases count with
  | zero => exact ⟨stream, rfl, fun short => absurd short (Nat.not_lt_zero _)⟩
  | succ count =>
    obtain ⟨last, rest, ends⟩ := later count
    refine ⟨last, ?_, fun long => ends (Nat.lt_of_succ_lt_succ long)⟩
    have asked : (stream.next inflate (schedule 0) wanted).result =
        .ok (some (.ok array), after) := by
      rw [result_next, first]
    rw [calls_succ, run, Reading.result_bind_of_ok asked]
    dsimp only
    rw [Reading.result_bind_of_ok rest, List.range_succ_eq_map, List.map_cons, List.map_map]
    rfl

/-- A stream that answers with an error or with nothing yields that and is ended. -/
theorem YieldsOn.last {schedule : Nat → Bool} {stream : ArrayStream} {failure : Option Error}
    (first : stream.answer inflate wanted (schedule 0) = (failure.map .error, ended)) :
    stream.YieldsOn inflate wanted schedule ⟨[], failure⟩ := by
  intro count
  cases count with
  | zero => exact ⟨stream, rfl, fun short => absurd short (Nat.not_lt_zero _)⟩
  | succ count =>
    refine ⟨ended, ?_, fun _ => rfl⟩
    have asked : (stream.next inflate (schedule 0) wanted).result =
        .ok (failure.map .error, ended) := by
      rw [result_next, first]
    have shown : (Yield.items ⟨[], failure⟩)[0]? = failure.map .error := by cases failure <;> rfl
    have nothing : (List.range count).map ((fun index =>
        (Yield.items ⟨[], failure⟩)[index]?) ∘ Nat.succ) = List.replicate count none := by
      refine List.eq_replicate_iff.mpr ⟨by rw [List.length_map, List.length_range], ?_⟩
      intro item member
      obtain ⟨index, _, rfl⟩ := List.mem_map.mp member
      cases failure <;> rfl
    rw [calls_succ, run, Reading.result_bind_of_ok asked]
    dsimp only
    rw [Reading.result_bind_of_ok (result_run wanted _ _), answers_ended, List.range_succ_eq_map,
      List.map_cons, List.map_map, nothing, shown, calls, List.length_map, List.length_range]
    rfl

/-- A stream that goes on reading yields what the stream behind the next element does. -/
theorem YieldsOn.reading {schedule : Nat → Bool} {cursor : Cursor} {yield : Yield}
    (next : YieldsOn inflate wanted schedule
      (following (cursor.topLevel inflate wanted).result (schedule 0) cursor) yield) :
    YieldsOn inflate wanted schedule ⟨[], .reading cursor⟩ yield := by
  intro count
  cases count with
  | zero => exact ⟨_, rfl, fun short => absurd short (Nat.not_lt_zero _)⟩
  | succ count =>
    obtain ⟨after, yielded, ends⟩ := next (count + 1)
    refine ⟨after, ?_, ends⟩
    rw [result_run, calls_succ, answers] at yielded ⊢
    rw [← yielded, answer]

/-- Arrays that are ready are yielded first, whatever the schedule. -/
theorem YieldsOn.ready {schedule : Nat → Bool} {continuation : Continuation} {yield : Yield}
    (ready : List MatArray)
    (later : YieldsOn inflate wanted (fun call => schedule (ready.length + call))
      ⟨[], continuation⟩ yield) :
    YieldsOn inflate wanted schedule ⟨ready, continuation⟩ (yield.after ready) := by
  induction ready generalizing schedule with
  | nil =>
    simp only [List.length_nil, Nat.zero_add] at later
    exact later
  | cons array ready inductionHypothesis =>
    simp only [List.length_cons, Nat.add_right_comm _ 1] at later
    have first : (ArrayStream.mk (array :: ready) continuation).answer inflate wanted (schedule 0) =
        (some (.ok array), ⟨ready, continuation⟩) := by rw [answer]
    have yields := YieldsOn.array first (inductionHypothesis later)
    exact yields

/-- A stream yields one thing only on a schedule. -/
theorem YieldsOn.unique {schedule : Nat → Bool} {stream : ArrayStream} {first second : Yield}
    (yields : stream.YieldsOn inflate wanted schedule first)
    (others : stream.YieldsOn inflate wanted schedule second) : first = second := by
  refine Yield.eq_of_items (List.ext_getElem? fun index => ?_)
  obtain ⟨_, ran, _⟩ := yields (index + 1)
  obtain ⟨_, ranAgain, _⟩ := others (index + 1)
  have same := congrArg Prod.fst (Except.ok.inj (ran.symm.trans ranAgain))
  exact List.map_inj_left.mp same index (List.mem_range.mpr (Nat.lt_succ_self index))

theorem yieldsOn_ended (schedule : Nat → Bool) :
    ended.YieldsOn inflate wanted schedule ⟨[], none⟩ :=
  .last (by rw [ended, answer]; rfl)

theorem yieldsOn_failing (schedule : Nat → Bool) (error : Error) :
    (failing error).YieldsOn inflate wanted schedule ⟨[], some error⟩ :=
  .last (by rw [failing, answer]; rfl)

/-- A stream that is never cancelled yields everything. -/
theorem yieldsOn_everything (inflate : Inflater) (wanted : String → Bool)
    (stream : ArrayStream) :
    stream.YieldsOn inflate wanted (fun _ => false) (everything inflate wanted stream) := by
  fun_induction everything inflate wanted stream with
  | case1 ready cursor inductionHypothesis => exact .ready ready (.reading inductionHypothesis)
  | case2 ready error =>
    rw [← Yield.after_nil]
    exact .ready ready (yieldsOn_failing _ error)
  | case3 ready =>
    rw [← Yield.after_nil]
    exact .ready ready (yieldsOn_ended _)

end ArrayStream

end MatFormat
