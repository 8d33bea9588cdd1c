/-
This file opens sequences of steps of which each may fail. A sequence has a value exactly
when each of its steps has one, so a known step can be passed over and a value can be traced
back to the values before it.
-/

import MatFormat.Checked.Computation
import MatFormat.Notice

namespace MatFormat

namespace Outcome

variable {Fault Value Next : Type}

/-- A step that is known to have a value can be passed over. -/
theorem bind_of_ok {outcome : Except Fault Value} {value : Value} (known : outcome = .ok value)
    (continuation : Value → Except Fault Next) :
    (outcome >>= continuation) = continuation value := by
  rw [known]
  rfl

theorem exists_of_isOk {outcome : Except Fault Value} (succeeds : outcome.isOk = true) :
    ∃ value, outcome = .ok value := by
  cases outcome with
  | error fault => cases succeeds
  | ok value => exact ⟨value, rfl⟩

/-- A sequence has a value exactly when its first step has one and the rest has one with it. -/
theorem bind_eq_ok {outcome : Except Fault Value} {continuation : Value → Except Fault Next}
    {next : Next} :
    (outcome >>= continuation) = .ok next ↔
      ∃ value, outcome = .ok value ∧ continuation value = .ok next := by
  cases outcome with
  | error fault =>
    constructor
    · intro failed
      cases failed
    · rintro ⟨value, failed, _⟩
      cases failed
  | ok value =>
    constructor
    · intro rest
      exact ⟨value, rfl, rest⟩
    · rintro ⟨other, same, rest⟩
      cases same
      exact rest

/-- A sequence fails exactly when its first step fails or the rest does. -/
theorem bind_eq_error {outcome : Except Fault Value} {continuation : Value → Except Fault Next}
    {fault : Fault} :
    (outcome >>= continuation) = .error fault ↔
      outcome = .error fault ∨
        ∃ value, outcome = .ok value ∧ continuation value = .error fault := by
  cases outcome with
  | error other =>
    constructor
    · intro failed
      cases failed
      exact Or.inl rfl
    · rintro (failed | ⟨value, failed, _⟩)
      · cases failed
        rfl
      · cases failed
  | ok value =>
    constructor
    · intro rest
      exact Or.inr ⟨value, rfl, rest⟩
    · rintro (failed | ⟨other, same, rest⟩)
      · cases failed
      · cases same
        exact rest

/-- A step that is refused on a condition has a value exactly when the condition fails and the
rest has the value. -/
theorem refusal_eq_ok {condition : Prop} [Decidable condition] {fault : Fault}
    {refused : Unit → Except Fault Value} {outcome : Except Fault Value} {value : Value} :
    (if condition then throw fault >>= refused else outcome) = .ok value ↔
      ¬ condition ∧ outcome = .ok value := by
  split
  · rename_i met
    exact ⟨nofun, fun missed => absurd met missed.1⟩
  · rename_i missed
    exact ⟨fun done => ⟨missed, done⟩, fun done => done.2⟩

/-- What depends on a condition alone has a value exactly when the condition holds. -/
theorem guarded_eq_ok {condition : Prop} [Decidable condition] {fault : Fault}
    {value found : Value} :
    (if condition then Except.ok value else .error fault) = .ok found ↔
      condition ∧ found = value := by
  split
  · rename_i met
    exact ⟨fun same => ⟨met, (Except.ok.inj same).symm⟩,
      fun same => congrArg Except.ok same.2.symm⟩
  · rename_i missed
    exact ⟨nofun, fun same => absurd same.1 missed⟩

theorem pure_eq_ok {value other : Value} :
    (pure value : Except Fault Value) = .ok other ↔ value = other := by
  constructor
  · intro same
    cases same
    rfl
  · rintro rfl
    rfl

end Outcome

namespace Checked

variable {Value : Type}

/-- What is lifted has the value that the outcome has. -/
theorem lift_eq_ok {outcome : Except Error Value} {value : Value} :
    lift outcome = .ok value ↔ outcome = .ok value := by
  cases outcome with
  | error error => exact ⟨nofun, nofun⟩
  | ok other =>
    exact ⟨fun same => congrArg Except.ok (Except.ok.inj same),
      fun same => congrArg Except.ok (Except.ok.inj same)⟩

theorem reserve_of_lt {count size : Nat} (fits : count * size < allocationLimit) :
    reserve count size = .ok () := if_pos fits

end Checked

/-- An outcome ensures a property when its value has it, if it has a value. -/
def Ensures {Fault Value : Type} (good : Value → Prop) (outcome : Except Fault Value) : Prop :=
  ∀ value, outcome = .ok value → good value

namespace Ensures

variable {Fault Value Next : Type} {good : Value → Prop} {goodNext : Next → Prop}

theorem error (fault : Fault) : Ensures good (.error fault) := nofun

theorem ok {value : Value} (holds : good value) :
    Ensures good (.ok value : Except Fault Value) := by
  rintro _ ⟨⟩
  exact holds

theorem bind {outcome : Except Fault Value} {continuation : Value → Except Fault Next}
    (step : Ensures good outcome)
    (later : ∀ value, good value → Ensures goodNext (continuation value)) :
    Ensures goodNext (outcome >>= continuation) := by
  intro next sequence
  obtain ⟨value, known, rest⟩ := Outcome.bind_eq_ok.mp sequence
  exact later value (step value known) next rest

/-- A step of a reading, whatever is remarked. -/
theorem reading {reading : Reading Value} {continuation : Value → Reading Next}
    (step : Ensures good reading.result)
    (later : ∀ value, good value → Ensures goodNext (continuation value).result) :
    Ensures goodNext (reading >>= continuation).result := by
  rw [Reading.result_bind]
  exact step.bind later

theorem choice {condition : Prop} [Decidable condition] {yes no : Reading Value}
    (holds : condition → Ensures good yes.result)
    (fails : ¬ condition → Ensures good no.result) :
    Ensures good (if condition then yes else no).result := by
  split
  · rename_i met
    exact holds met
  · rename_i missed
    exact fails missed

end Ensures

namespace Reading

variable {Value Next : Type}

/-- A reading that is known to have a value can be passed over. -/
theorem result_bind_of_ok {reading : Reading Value} {value : Value}
    (known : reading.result = .ok value) (continuation : Value → Reading Next) :
    (reading >>= continuation).result = (continuation value).result := by
  rw [result_bind, Outcome.bind_of_ok known]

/-- A step without remarks that is known to have a value can be passed over. -/
theorem lift_bind_of_ok {outcome : Except Error Value} {value : Value}
    (known : outcome = .ok value) (continuation : Value → Reading Next) :
    ((liftM outcome : Reading Value) >>= continuation) = continuation value := by
  rw [known]
  rfl

theorem result_lift_bind_of_ok {outcome : Except Error Value} {value : Value}
    (known : outcome = .ok value) (continuation : Value → Reading Next) :
    ((liftM outcome : Reading Value) >>= continuation).result = (continuation value).result :=
  congrArg result (lift_bind_of_ok known continuation)

/-- How a reading goes on matters only for a value that it has. -/
theorem bind_congr_of_ok {reading : Reading Value} {first second : Value → Reading Next}
    (same : ∀ value, reading.result = .ok value → first value = second value) :
    (reading >>= first) = (reading >>= second) := by
  change andThen reading first = andThen reading second
  unfold andThen
  cases read : reading.result with
  | error error => rfl
  | ok value =>
    dsimp only
    rw [same value read]

theorem bind_assoc {Last : Type} (reading : Reading Value) (first : Value → Reading Next)
    (second : Next → Reading Last) :
    (reading >>= first >>= second) = (reading >>= fun value => first value >>= second) := by
  change andThen (andThen reading first) second =
    andThen reading fun value => andThen (first value) second
  obtain ⟨notices, result⟩ := reading
  cases result with
  | error error => rfl
  | ok value =>
    simp only [andThen]
    cases (first value).result with
    | error error => rfl
    | ok next => simp only [List.append_assoc]

theorem map_id (reading : Reading Value) : id <$> reading = reading := by
  change andThen reading pure = reading
  obtain ⟨notices, result⟩ := reading
  cases result with
  | error error => rfl
  | ok value => exact congrArg (Reading.mk · (.ok value)) (List.append_nil notices)

instance : LawfulMonad Reading := LawfulMonad.mk' Reading map_id (fun _ _ => rfl) bind_assoc

/-- A sequence of readings has a value exactly when the first one has a value and the rest
has one with it. -/
theorem result_bind_eq_ok {reading : Reading Value} {continuation : Value → Reading Next}
    {next : Next} :
    (reading >>= continuation).result = .ok next ↔
      ∃ value, reading.result = .ok value ∧ (continuation value).result = .ok next := by
  rw [result_bind, Outcome.bind_eq_ok]

/-- A reading that is refused on a condition has a value exactly when the condition fails and the
rest has the value. -/
theorem result_refusal_eq_ok {condition : Prop} [Decidable condition] {error : Error}
    {refused : Unit → Reading Value} {reading : Reading Value} {value : Value} :
    (if condition then throw error >>= refused else reading).result = .ok value ↔
      ¬ condition ∧ reading.result = .ok value := by
  split
  · rename_i met
    exact ⟨nofun, fun missed => absurd met missed.1⟩
  · rename_i missed
    exact ⟨fun read => ⟨missed, read⟩, fun read => read.2⟩

/-- Whether something is remarked first does not matter to the result. -/
theorem result_noteIf (condition : Prop) [Decidable condition] (notice : Notice)
    (next : Reading Value) :
    (if condition then note notice >>= fun _ => next else next).result = next.result := by
  split
  · exact result_bind_of_ok (result_note notice) fun _ => next
  · rfl

end Reading

end MatFormat
