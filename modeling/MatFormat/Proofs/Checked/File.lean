/-
This file proves that files are read without a trap. On every platform a request for an item
has the answer of the stream of the file, read with the inflater of the platform. Each element
takes bytes of the file, so the turns that are given for a request are never used up, and a
file is read after some number of requests.
-/

import MatFormat.File.Reader
import MatFormat.Proofs.Checked.Stream
import MatFormat.Proofs.Stream.Schedule

namespace MatFormat

namespace Checked

variable {platform : Platform} {wanted : String → Bool}

/-! ### Requests -/

namespace Elements

theorem Shows.bound_le {elements : Elements} {stream : ArrayStream}
    (shows : Shows elements stream) : stream.bound ≤ elements.window.data.length := by
  cases shows with
  | reading ready sees => exact Nat.le_trans (Nat.le_of_eq sees.remaining_eq) (Nat.sub_le _ _)
  | failing window ready error done => exact Nat.zero_le _
  | ended window finished => exact Nat.zero_le _

theorem atPadding_ok {window : Window} {cursor : Cursor}
    (sees : Sees cursor.remaining window cursor) (pending : Queue) (done : Bool) :
    atPadding ⟨window, pending, done⟩ = .ok cursor.atPadding := by
  rw [atPadding, Outcome.bind_of_ok sees.remaining_ok, Cursor.atPadding]
  split
  · rename_i few
    obtain ⟨rest, taken⟩ := sees.take_all rfl
    rw [taken, decide_eq_true few, Bool.true_and]
    rfl
  · rename_i many
    rw [decide_eq_false many, Bool.false_and]
    rfl

/-- What a turn does where nothing waits and bytes are left. -/
theorem turn_of_inside {window : Window} {cursor : Cursor}
    (sees : Sees cursor.remaining window cursor) (inside : ¬ cursor.atEnd = true)
    (cancelled : Bool)
    (again : Elements → Computation (Option (Except Error MatArray) × Elements)) :
    turn platform wanted cancelled again ⟨window, [], false⟩ =
      if cursor.atPadding then pure (none, ⟨window, [], true⟩)
      else if cancelled then pure (some (.error .cancelled), ⟨window, [], true⟩)
      else afterStep ⟨window, [], false⟩ again (step platform wanted ⟨window, [], false⟩) := by
  have going : ¬ (false || window.atEnd) = true := by
    rw [Bool.false_or, sees.atEnd_eq]
    exact inside
  rw [turn]
  dsimp only
  rw [if_neg going, Outcome.bind_of_ok (atPadding_ok sees [] false),
    Outcome.bind_of_ok sees.remaining_ok, Outcome.bind_of_ok sees.offset_ok]

/-- A turn for elements with nothing that waits reads on. What it comes to either waits then,
so that another turn would yield it, or is what is tried again. -/
theorem turn_of_reading (platform : Platform) (wanted : String → Bool) {window : Window}
    {cursor : Cursor} (sees : Sees cursor.remaining window cursor) (cancelled : Bool)
    (again : Elements → Computation (Option (Except Error MatArray) × Elements)) :
    ∃ next : Elements,
      Shows next (.following (cursor.topLevel platform.inflater wanted).result cancelled cursor) ∧
      (turn platform wanted cancelled again ⟨window, [], false⟩ =
          turn platform wanted cancelled again next ∨
        ¬ cursor.atEnd = true ∧
          turn platform wanted cancelled again ⟨window, [], false⟩ = again next) := by
  unfold ArrayStream.following
  split
  · rename_i atEnd
    exact ⟨⟨window, [], false⟩, .ended window (sees.atEnd_eq.trans atEnd), .inl rfl⟩
  · rename_i inside
    rw [turn_of_inside sees inside]
    split
    · exact ⟨⟨window, [], true⟩, .ended window rfl, .inl rfl⟩
    · split
      · exact ⟨⟨window, [.error .cancelled], false⟩, .failing window [] .cancelled false, .inl rfl⟩
      · have agrees := agrees_step platform wanted sees
        generalize step platform wanted ⟨window, [], false⟩ = stepped at agrees ⊢
        cases outcome : (cursor.topLevel platform.inflater wanted).result with
        | error error =>
          rw [outcome] at agrees
          cases agrees with
          | error together =>
            refine ⟨⟨window, [.error error], false⟩, .failing window [] error false, .inl ?_⟩
            rw [together]
            rfl
        | ok stream =>
          rw [outcome] at agrees
          cases agrees with
          | @ok next _ shows => exact ⟨next, shows, .inr ⟨inside, rfl⟩⟩

/-- A request is a turn, with one turn less for what is tried again. -/
theorem nextWithin_eq (platform : Platform) (wanted : String → Bool) (cancelled : Bool)
    (turns : Nat) :
    ∃ again, nextWithin platform wanted cancelled turns = turn platform wanted cancelled again ∧
      ∀ fewer, turns = fewer + 1 → again = nextWithin platform wanted cancelled fewer := by
  cases turns with
  | zero => exact ⟨_, rfl, nofun⟩
  | succ fewer => exact ⟨_, rfl, fun other same => by cases same; rfl⟩

/-- A request has the answer of the stream. -/
theorem nextWithin_ok {cancelled : Bool} {stream : ArrayStream} {elements : Elements}
    (shows : Shows elements stream) {turns : Nat} (enough : stream.bound ≤ turns) :
    ∃ next, nextWithin platform wanted cancelled turns elements =
        .ok ((stream.answer platform.inflater wanted cancelled).1, next) ∧
      Shows next (stream.answer platform.inflater wanted cancelled).2 := by
  fun_induction ArrayStream.answer platform.inflater wanted cancelled stream
    generalizing elements turns with
  | case1 array ready continuation =>
    obtain ⟨again, turned, _⟩ := nextWithin_eq platform wanted cancelled turns
    rw [turned]
    generalize whole : array :: ready = all at shows
    cases shows with
    | reading all sees =>
      subst whole
      exact ⟨_, rfl, .reading ready sees⟩
    | failing window all error done =>
      subst whole
      exact ⟨_, rfl, .failing window ready error done⟩
    | ended => cases whole
  | case2 error =>
    obtain ⟨again, turned, _⟩ := nextWithin_eq platform wanted cancelled turns
    rw [turned]
    generalize none : ([] : List MatArray) = ready at shows
    cases shows with
    | failing window _ _ done =>
      subst none
      exact ⟨_, rfl, .ended window rfl⟩
  | case3 =>
    obtain ⟨again, turned, _⟩ := nextWithin_eq platform wanted cancelled turns
    rw [turned]
    cases shows with
    | ended window finished => exact ⟨_, if_pos finished, .ended window finished⟩
  | case4 cursor inductionHypothesis =>
    obtain ⟨again, turned, fewer⟩ := nextWithin_eq platform wanted cancelled turns
    have nearer := ArrayStream.measure_following_lt platform.inflater wanted cancelled cursor
    have bound := ArrayStream.bound_eq
      (.following (cursor.topLevel platform.inflater wanted).result cancelled cursor)
    have covered : cursor.remaining ≤ turns := enough
    generalize none : ([] : List MatArray) = ready at shows
    cases shows with
    | reading ready sees =>
      subst none
      rw [List.map_nil]
      obtain ⟨next, shows, waits | ⟨more, tried⟩⟩ :=
        turn_of_reading platform wanted sees cancelled again
      · rw [turned, waits, ← turned]
        exact inductionHypothesis shows (by omega)
      · rw [Cursor.atEnd_iff] at more
        obtain ⟨less, rfl⟩ := Nat.exists_eq_succ_of_ne_zero (by omega : turns ≠ 0)
        rw [turned, tried, fewer less rfl]
        exact inductionHypothesis shows (by omega)

theorem next_ok (platform : Platform) (wanted : String → Bool) (cancelled : Bool)
    {elements : Elements} {stream : ArrayStream} (shows : Shows elements stream) :
    ∃ next, elements.next platform wanted cancelled =
        .ok ((stream.answer platform.inflater wanted cancelled).1, next) ∧
      Shows next (stream.answer platform.inflater wanted cancelled).2 :=
  nextWithin_ok shows shows.bound_le

/-- The items are those of the stream. -/
theorem items_eq (platform : Platform) (wanted : String → Bool) (schedule : List Bool)
    {elements : Elements} {stream : ArrayStream} (shows : Shows elements stream) :
    elements.items platform wanted schedule =
      lift (stream.items platform.inflater wanted schedule).result := by
  induction schedule generalizing elements stream with
  | nil => rfl
  | cons cancelled schedule inductionHypothesis =>
    obtain ⟨next, computed, shows⟩ := next_ok platform wanted cancelled shows
    rw [items, Outcome.bind_of_ok computed, ArrayStream.items,
      Reading.result_bind_of_ok (ArrayStream.result_next wanted cancelled stream)]
    dsimp only
    rw [inductionHypothesis shows, Reading.result_bind]
    cases (ArrayStream.items platform.inflater wanted schedule _).result <;> rfl

/-- With more requests than there are items, everything that the stream yields is read. -/
theorem arrays_eq {elements : Elements} {stream : ArrayStream} (shows : Shows elements stream)
    {limit : Nat}
    (enough : (stream.everything platform.inflater wanted).items.length < limit) :
    elements.arrays platform wanted limit =
      lift (stream.everything platform.inflater wanted).result := by
  induction limit generalizing elements stream with
  | zero => exact absurd enough (Nat.not_lt_zero _)
  | succ limit inductionHypothesis =>
    obtain ⟨next, computed, shows⟩ := next_ok platform wanted false shows
    rw [arrays, Outcome.bind_of_ok computed]
    rcases @ArrayStream.everything_of_answer platform.inflater wanted stream with
      ⟨array, after, answered, yielded⟩ | ⟨failure, answered, yielded⟩
    · rw [answered] at shows ⊢
      rw [yielded, Yield.items_after, List.length_append, List.length_map,
        List.length_singleton, Nat.add_comm] at enough
      dsimp only
      rw [inductionHypothesis shows (Nat.lt_of_succ_lt_succ enough), yielded]
      generalize after.everything platform.inflater wanted = yield
      obtain ⟨arrays, failure⟩ := yield
      cases failure <;> rfl
    · rw [answered, yielded]
      cases failure <;> rfl

end Elements

/-! ### Files -/

/-- The elements of a file are those of its stream. -/
theorem agrees_open (file : Buffer) :
    Agrees (fun first second => first.1 = second.1 ∧ Elements.Shows first.2 second.2)
      (openElements file) (openStream file.bytes).result := by
  refine (agrees_header file.bytes).reading_same fun header => ?_
  obtain ⟨rest, skipped, sees⟩ :=
    (Sees.ofBytes file.fits header.order).agrees_skipAtMost headerSize
  exact .step skipped (.ok ⟨rfl, .reading [] sees.exact⟩)

theorem fileItems_eq (platform : Platform) (wanted : String → Bool) (schedule : List Bool)
    (file : Buffer) :
    platform.items wanted schedule file =
      lift (openStream file.bytes >>= fun opened =>
        opened.2.items platform.inflater wanted schedule).result := by
  have opened := agrees_open file
  rw [Platform.items, Reading.result_bind]
  generalize (openStream file.bytes).result = stream at opened ⊢
  generalize openElements file = elements at opened ⊢
  cases opened with
  | error together => exact congrArg Except.error together
  | ok together => exact Elements.items_eq platform wanted schedule together.2

/-- A file is read after some number of requests: one more than its stream has items. -/
theorem read_eq (platform : Platform) (wanted : String → Bool) (file : Buffer) :
    ∃ enough, ∀ limit, enough ≤ limit →
      platform.read wanted limit file =
        lift (MatFile.read platform.inflater file.bytes wanted).result := by
  have agrees := agrees_open file
  rw [MatFile.read, Reading.result_bind]
  unfold Platform.read
  generalize (openStream file.bytes).result = stream at agrees ⊢
  generalize openElements file = elements at agrees ⊢
  cases agrees with
  | error together => exact ⟨0, fun limit _ => congrArg Except.error together⟩
  | @ok first second together =>
    obtain ⟨same, shows⟩ := together
    refine ⟨(second.2.everything platform.inflater wanted).items.length + 1,
      fun limit enough => ?_⟩
    rw [Outcome.bind_of_ok rfl, Outcome.bind_of_ok rfl, Reading.result_bind,
      ArrayStream.result_arrays]
    dsimp only at same ⊢
    rw [Elements.arrays_eq shows enough, same]
    cases (second.2.everything platform.inflater wanted).result <;> rfl

/-- A file is read without a trap on every platform, whatever its inflater gives: its header,
the items on every schedule of requests, and the whole file after some number of requests are
what is read of the file with that inflater. -/
theorem reads_without_trap (platform : Platform) (file : Buffer) (wanted : String → Bool) :
    header file.bytes = lift (Header.read file.bytes).result ∧
      (∀ schedule, platform.items wanted schedule file =
        lift (openStream file.bytes >>= fun opened =>
          opened.2.items platform.inflater wanted schedule).result) ∧
      (∃ enough, ∀ limit, enough ≤ limit →
        platform.read wanted limit file =
          lift (MatFile.read platform.inflater file.bytes wanted).result) :=
  ⟨(agrees_header file.bytes).eq_lift,
    fun schedule => fileItems_eq platform wanted schedule file, read_eq platform wanted file⟩

end Checked

end MatFormat
