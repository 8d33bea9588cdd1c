/-
This file says when computing with machine numbers goes on: each operation has its value as
soon as the condition it needs holds. It also compares a computation with an outcome in which
nothing can be too large. Both fail with one error or both have values that go together, so a
computation that is compared with an outcome never ends in a trap.
-/

import MatFormat.Checked.Arithmetic
import MatFormat.Proofs.Related
import MatFormat.Proofs.Run
import MatFormat.Proofs.Shape

namespace MatFormat

namespace Checked

variable {Value Next Item : Type}

/-! ### Numbers -/

theorem sum_of_lt {first second : Nat} (fits : first + second < countLimit) :
    sum first second = .ok (first + second) := if_pos fits

theorem difference_of_le {first second : Nat} (covers : second ≤ first) :
    difference first second = .ok (first - second) := if_pos covers

theorem sum_eq_ok {first second total : Nat} :
    sum first second = .ok total ↔ first + second < countLimit ∧ total = first + second :=
  Outcome.guarded_eq_ok

theorem difference_eq_ok {first second left : Nat} :
    difference first second = .ok left ↔ second ≤ first ∧ left = first - second :=
  Outcome.guarded_eq_ok

theorem product_of_lt {first second : Nat} (fits : first * second < countLimit) :
    product first second = .ok (first * second) := if_pos fits

theorem quotient_of_pos {second : Nat} (positive : 0 < second) (first : Nat) :
    quotient first second = .ok (first / second) := if_neg (Nat.ne_of_gt positive)

theorem remainder_of_pos {second : Nat} (positive : 0 < second) (first : Nat) :
    remainder first second = .ok (first % second) := if_neg (Nat.ne_of_gt positive)

/-- The running products of numbers that were tried before all fit. -/
theorem runningProduct_of_fit {start : Nat} {numbers : List Nat}
    (fit : productsFit start numbers = true) :
    runningProduct start numbers = .ok (start * MatFormat.product numbers) := by
  induction numbers generalizing start with
  | nil =>
    rw [MatFormat.product, Nat.mul_one]
    rfl
  | cons first rest inductionHypothesis =>
    have later : productsFit (start * first) rest = true := (productsFit_cons.mp fit).2
    rw [runningProduct, Outcome.bind_of_ok (product_of_lt (lt_of_productsFit later)),
      inductionHypothesis later, MatFormat.product, Nat.mul_assoc]

/-! ### Runs -/

theorem item_of_getElem? {items : List Item} {place : Nat} {found : Item}
    (held : items[place]? = some found) : item items place = .ok found := by
  rw [item, held]
  rfl

theorem item_of_lt {items : List Item} {place : Nat} (inside : place < items.length) :
    item items place = .ok items[place] := item_of_getElem? (List.getElem?_eq_getElem inside)

theorem item_zero {items : List Item} (filled : 0 < items.length) (default : Item) :
    item items 0 = .ok (items.headD default) := by
  match items, filled with
  | first :: rest, _ => rfl

theorem item_last {items : List Item} {last : Nat} (counted : items.length = last + 1)
    (default : Item) : item items last = .ok (items.getLastD default) := by
  have inside : last < items.length := by omega
  rw [item_of_lt inside, List.getLastD_eq_getLast?, List.getLast?_eq_getElem?, counted,
    Nat.add_sub_cancel, List.getElem?_eq_getElem inside]
  rfl

theorem slice_of_le {items : List Item} {start stop : Nat} (ordered : start ≤ stop)
    (inside : stop ≤ items.length) :
    slice items start stop = .ok ((items.drop start).take (stop - start)) :=
  if_pos ⟨ordered, inside⟩

theorem slice_all {items : List Item} {length : Nat} (whole : items.length = length) :
    slice items 0 length = .ok items := by
  rw [slice_of_le (Nat.zero_le _) (Nat.le_of_eq whole.symm), List.drop_zero, Nat.sub_zero, ← whole,
    List.take_length]

/-- What is before an item that is looked for lies inside the run. -/
theorem before_eq (test : Item → Bool) (items : List Item) :
    before test items = .ok (items.takeWhile fun found => !test found) := by
  rw [before, slice_of_le (Nat.zero_le _) List.findIdx_le_length, List.drop_zero, Nat.sub_zero,
    List.takeWhile_eq_take_findIdx_not]
  simp only [Bool.not_not]

theorem chunks_of_pos {width : Nat} (positive : 0 < width) (items : List Item) :
    chunks width items = .ok (pieces width (items.length / width) items) :=
  if_neg (Nat.ne_of_gt positive)

theorem length_of_mem_chunks {width : Nat} {items piece : List Item}
    (member : piece ∈ pieces width (items.length / width) items) : piece.length = width :=
  length_of_mem_pieces (Nat.div_mul_le_self _ _) member

theorem mapM_of_ok {Fault : Type} {step : Item → Except Fault Value} {change : Item → Value}
    {items : List Item} (steps : ∀ found ∈ items, step found = .ok (change found)) :
    items.mapM step = .ok (items.map change) := by
  induction items with
  | nil => rfl
  | cons first rest inductionHypothesis =>
    rw [List.mapM_cons, Outcome.bind_of_ok (steps first List.mem_cons_self),
      Outcome.bind_of_ok (inductionHypothesis fun found member =>
        steps found (List.mem_cons_of_mem _ member))]
    rfl

/-! ### Computations and outcomes -/

/-- A computation fails with the error of an outcome, or has a value that goes with its. -/
def Agrees {Other : Type} (values : Value → Other → Prop) :
    Computation Value → Except Error Other → Prop :=
  Related (fun stop error => stop = .error error) values

namespace Agrees

variable {Other OtherNext : Type} {values : Value → Other → Prop}
  {nextValues : Next → OtherNext → Prop}

theorem ok {value : Value} {other : Other} (together : values value other) :
    Agrees values (.ok value) (.ok other) := Related.ok together

theorem error (fault : Error) : Agrees values (fail fault) (.error fault) := Related.error rfl

theorem lift (outcome : Except Error Value) : Agrees Eq (Checked.lift outcome) outcome := by
  cases outcome with
  | error fault => exact .error fault
  | ok value => exact .ok rfl

theorem bind {computation : Computation Value} {outcome : Except Error Other}
    {rest : Value → Computation Next} {otherRest : Other → Except Error OtherNext}
    (steps : Agrees values computation outcome)
    (rests : ∀ value other, values value other →
      Agrees nextValues (rest value) (otherRest other)) :
    Agrees nextValues (computation >>= rest) (outcome >>= otherRest) := Related.bind steps rests

theorem known {computation : Computation Value} {outcome : Except Error Other}
    (agrees : Agrees values computation outcome) :
    Agrees (fun value other => values value other ∧ computation = .ok value ∧ outcome = .ok other)
      computation outcome := Related.known agrees

/-- A step of a reading, whatever is remarked. -/
theorem reading {computation : Computation Value} {reading : Reading Other}
    {rest : Value → Computation Next} {otherRest : Other → Reading OtherNext}
    (steps : Agrees values computation reading.result)
    (rests : ∀ value other, values value other →
      Agrees nextValues (rest value) (otherRest other).result) :
    Agrees nextValues (computation >>= rest) (reading >>= otherRest).result := by
  rw [Reading.result_bind]
  exact steps.bind rests

/-- A step with one value. -/
theorem bind_same {computation : Computation Value} {outcome : Except Error Value}
    {rest : Value → Computation Next} {otherRest : Value → Except Error OtherNext}
    (steps : Agrees Eq computation outcome)
    (rests : ∀ value, Agrees nextValues (rest value) (otherRest value)) :
    Agrees nextValues (computation >>= rest) (outcome >>= otherRest) :=
  steps.bind fun value _ same => same ▸ rests value

theorem reading_same {computation : Computation Value} {reading : Reading Value}
    {rest : Value → Computation Next} {otherRest : Value → Reading OtherNext}
    (steps : Agrees Eq computation reading.result)
    (rests : ∀ value, Agrees nextValues (rest value) (otherRest value).result) :
    Agrees nextValues (computation >>= rest) (reading >>= otherRest).result :=
  steps.reading fun value _ same => same ▸ rests value

/-- A step that only the computation takes and that has a value. -/
theorem step {computation : Computation Value} {value : Value}
    {rest : Value → Computation Next} {outcome : Except Error OtherNext}
    (known : computation = .ok value) (rests : Agrees nextValues (rest value) outcome) :
    Agrees nextValues (computation >>= rest) outcome := by
  rw [Outcome.bind_of_ok known]
  exact rests

theorem ite {condition other : Prop} [Decidable condition] [Decidable other]
    {yes no : Computation Value} {otherYes otherNo : Except Error Other}
    (same : condition ↔ other) (holds : condition → Agrees values yes otherYes)
    (fails : ¬ condition → Agrees values no otherNo) :
    Agrees values (if condition then yes else no) (if other then otherYes else otherNo) :=
  Related.ite same holds fails

theorem choice {condition other : Prop} [Decidable condition] [Decidable other]
    {yes no : Computation Value} {otherYes otherNo : Reading Other} (same : condition ↔ other)
    (holds : condition → Agrees values yes otherYes.result)
    (fails : ¬ condition → Agrees values no otherNo.result) :
    Agrees values (if condition then yes else no)
      (if other then otherYes else otherNo).result := by
  rw [apply_ite Reading.result]
  exact ite same holds fails

/-- A computation that agrees with an outcome on the value itself is that outcome. -/
theorem eq_lift {computation : Computation Value} {outcome : Except Error Value}
    (agrees : Agrees Eq computation outcome) : computation = Checked.lift outcome := by
  cases agrees with
  | error together => exact congrArg Except.error together
  | ok together => exact congrArg Except.ok together

end Agrees

end Checked

end MatFormat
