/-
This file proves that nothing is looked up outside the parts of a sparse matrix whose parts
fit together. The entries of each column lie between two column pointers, neither of which
passes the number of entries, and a walk over the entries always finds the column that the
next entry lies in: the last column pointer is the number of all entries, so as long as one
is left some column ends behind it.
-/

import MatFormat.Proofs.Shape
import MatFormat.Proofs.WellFormed

namespace MatFormat

namespace SparseArray

variable {array : SparseArray}

/-! ### Places -/

/-- A place that is found belongs to an entry. -/
theorem lt_stored_of_place? {row column place : Nat}
    (found : array.place? row column = some place) :
    place < array.stored := by
  obtain ⟨start, startFound, found⟩ := Option.bind_eq_some_iff.mp found
  obtain ⟨stop, stopFound, found⟩ := Option.bind_eq_some_iff.mp found
  obtain ⟨offset, offsetFound, rfl⟩ := Option.map_eq_some_iff.mp found
  have within := (List.findIdx?_eq_some_iff_getElem.mp offsetFound).1
  rw [List.length_take, List.length_drop] at within
  have before := Nat.lt_of_lt_of_le within (Nat.min_le_right _ _)
  exact Nat.add_lt_of_lt_sub' before

/-! ### Column pointers -/

namespace Shaped

variable (shaped : array.Shaped)
include shaped

theorem last_pointer : array.columnPointers[array.info.shape.columns]? = some array.stored := by
  have inside : array.info.shape.columns < array.columnPointers.length := by
    rw [shaped.pointers]
    exact Nat.lt_succ_self _
  have stop := shaped.stop
  rw [List.getLastD_eq_getLast?, List.getLast?_eq_getElem?, shaped.pointers, Nat.add_sub_cancel,
    List.getElem?_eq_getElem inside] at stop
  rw [List.getElem?_eq_getElem inside]
  exact congrArg some stop

/-- Column pointers ascend. -/
theorem pointer_le {column later start stop : Nat} (order : column ≤ later)
    (first : array.columnPointers[column]? = some start)
    (second : array.columnPointers[later]? = some stop) : start ≤ stop := by
  rcases Nat.lt_or_eq_of_le order with before | rfl
  · obtain ⟨firstInside, rfl⟩ := List.getElem?_eq_some_iff.mp first
    obtain ⟨secondInside, rfl⟩ := List.getElem?_eq_some_iff.mp second
    exact List.pairwise_iff_getElem.mp shaped.ascending column later firstInside secondInside before
  · exact Nat.le_of_eq (Option.some.inj (first.symm.trans second))

/-- Neither end of a column passes the number of entries. -/
theorem column_ends {column : Nat} (inside : column < array.info.shape.columns) :
    ∃ start stop : Nat, array.columnPointers[column]? = some start ∧
      array.columnPointers[column + 1]? = some stop ∧ start ≤ stop ∧ stop ≤ array.stored := by
  have pointers := shaped.pointers
  have first : column < array.columnPointers.length := by omega
  have second : column + 1 < array.columnPointers.length := by omega
  have start := List.getElem?_eq_getElem first
  have stop := List.getElem?_eq_getElem second
  exact ⟨_, _, start, stop, shaped.pointer_le (Nat.le_succ column) start stop,
    shaped.pointer_le inside stop shaped.last_pointer⟩

/-! ### Access -/

theorem isSome_get? (row column : Nat) :
    (array.get? row column).isSome = (array.info.shape.index? row column).isSome := by
  unfold get?
  cases array.info.shape.index? row column with
  | none => rfl
  | some index =>
    rw [Option.bind_eq_bind, Option.bind_some]
    cases found : array.place? row column with
    | none => rfl
    | some place =>
      have inside : place < array.real.length := shaped.real ▸ lt_stored_of_place? found
      dsimp only
      rw [List.getElem?_eq_getElem inside]
      rfl

theorem isSome_getImag? (row column : Nat) :
    (array.getImag? row column).isSome =
      ((array.info.shape.index? row column).isSome && array.imag.isSome) := by
  unfold getImag?
  cases array.info.shape.index? row column with
  | none => rfl
  | some index =>
    rw [Option.bind_eq_bind, Option.bind_some]
    cases held : array.imag with
    | none => rfl
    | some imag =>
      rw [Option.bind_eq_bind, Option.bind_some]
      cases found : array.place? row column with
      | none => rfl
      | some place =>
        have inside : place < imag.length :=
          shaped.imag imag held ▸ lt_stored_of_place? found
        dsimp only
        rw [List.getElem?_eq_getElem inside]
        rfl

end Shaped

/-! ### Walking over the entries -/

/-- Some column ends after the entries taken so far, so that a column is found. -/
theorem skipColumns_of_mem {taken stop : Nat} {ends : List Nat} (member : stop ∈ ends)
    (later : taken < stop) (column : Nat) :
    ∃ (next : Nat) (rest : List Nat), skipColumns taken column ends = some (next, rest) ∧
      next + rest.length = column + ends.length ∧ stop ∈ rest := by
  induction ends generalizing column with
  | nil => cases member
  | cons first ends inductionHypothesis =>
    unfold skipColumns
    by_cases found : taken < first
    · rw [if_pos found]
      exact ⟨column, first :: ends, rfl, rfl, member⟩
    · rw [if_neg found]
      rcases List.mem_cons.mp member with rfl | further
      · exact absurd later found
      · obtain ⟨next, rest, skipped, length, held⟩ := inductionHypothesis further (column + 1)
        refine ⟨next, rest, skipped, ?_, held⟩
        rw [length, List.length_cons, Nat.add_right_comm, Nat.add_assoc]

/-- What a walk over a matrix of some rows and columns relies on. While an entry is left, some
column ends behind all entries, so no walk ever runs out of columns. -/
structure Walk.Sound (rows columns : Nat) (walk : Walk) : Prop where
  columns : walk.column + walk.ends.length = columns
  stop : walk.rows ≠ [] → ∃ stop ∈ walk.ends, walk.taken + walk.left ≤ stop
  rows : ∀ row ∈ walk.rows, row < rows
  real : walk.real.length = walk.left
  imag : ∀ values ∈ walk.imag, values.length = walk.left

/-- A walk that has an entry left takes one, inside the matrix, and stays sound. -/
theorem Walk.Sound.next {rows columns : Nat} {walk : Walk} (sound : walk.Sound rows columns)
    (more : walk.rows ≠ []) :
    ∃ (entry : Entry) (next : Walk), walk.next? = some (entry, next) ∧
      next.Sound rows columns ∧ walk.left = next.left + 1 ∧
      next.imag.isSome = walk.imag.isSome ∧
      entry.row < rows ∧ entry.column < columns ∧ entry.imag.isSome = walk.imag.isSome := by
  obtain ⟨stop, stopMember, covers⟩ := sound.stop more
  obtain ⟨taken, column, ends, walkRows, reals, imag⟩ := walk
  obtain ⟨columnCount, _, rowsInside, realCount, imagCount⟩ := sound
  dsimp only [Walk.left] at *
  cases walkRows with
  | nil => exact absurd rfl more
  | cons row others =>
    cases reals with
    | nil => cases realCount
    | cons real laterReals =>
      rw [List.length_cons] at covers realCount
      have pending : taken < stop := by omega
      obtain ⟨nextColumn, rest, skipped, length, held⟩ :=
        skipColumns_of_mem stopMember pending column
      have inside : nextColumn < columns := by
        have filled := List.length_pos_of_mem held
        omega
      refine ⟨⟨row, nextColumn, real, imag.bind List.head?⟩,
        ⟨taken + 1, nextColumn, rest, others, laterReals, imag.map List.tail⟩, ?_,
        ⟨length.trans columnCount, fun _ => ⟨stop, held, ?_⟩,
          fun other member => rowsInside other (List.mem_cons_of_mem _ member),
          Nat.succ.inj realCount, fun values member => ?_⟩,
        rfl, Option.isSome_map, rowsInside row List.mem_cons_self, inside, ?_⟩
      · rw [Walk.next?]
        dsimp only
        rw [skipped]
        rfl
      · show taken + 1 + others.length ≤ stop
        omega
      · obtain ⟨whole, wholeMember, rfl⟩ := Option.map_eq_some_iff.mp member
        rw [List.length_tail, imagCount whole wholeMember]
        rfl
      · cases imag with
        | none => rfl
        | some values =>
          cases values with
          | nil => cases imagCount [] rfl
          | cons value laterValues => rfl

/-- A sound walk takes all its entries, every one of them inside the matrix. -/
theorem Walk.Sound.entries {rows columns turns : Nat} {walk : Walk}
    (sound : walk.Sound rows columns) (enough : walk.left = turns) :
    (walk.entries turns).length = turns ∧
      ∀ taken ∈ walk.entries turns, taken.1.row < rows ∧ taken.1.column < columns ∧
        taken.1.imag.isSome = walk.imag.isSome := by
  induction turns generalizing walk with
  | zero => exact ⟨rfl, nofun⟩
  | succ turns inductionHypothesis =>
    have more : walk.rows ≠ [] := List.ne_nil_of_length_eq_add_one enough
    obtain ⟨entry, next, taken, stillSound, left, sameParts, inside⟩ := sound.next more
    obtain ⟨length, later⟩ := inductionHypothesis stillSound
      (Nat.succ.inj (left.symm.trans enough))
    rw [Walk.entries, taken]
    refine ⟨congrArg Nat.succ length, fun other member => ?_⟩
    rcases List.mem_cons.mp member with rfl | further
    · exact inside
    · rw [← sameParts]
      exact later other further

theorem Shaped.walk (shaped : array.Shaped) :
    array.walk.Sound array.info.shape.rows array.info.shape.columns := by
  refine ⟨?_, fun more => ⟨array.stored, ?_, Nat.le_of_eq (Nat.zero_add _)⟩, shaped.rows,
    shaped.real, shaped.imag⟩
  · show 0 + array.columnPointers.tail.length = _
    rw [List.length_tail, shaped.pointers, Nat.zero_add, Nat.add_sub_cancel]
  · show array.stored ∈ array.columnPointers.tail
    have last := shaped.last_pointer
    cases width : array.info.shape.columns with
    | zero =>
      have start := shaped.start
      rw [width] at last
      rw [List.headD_eq_head?_getD, List.head?_eq_getElem?, last] at start
      exact absurd (List.length_eq_zero_iff.mp start) more
    | succ columns =>
      rw [width, ← List.getElem?_tail] at last
      exact List.mem_of_getElem? last

/-- The walk over a matrix whose parts fit together takes every entry, inside the matrix and
with an imaginary part exactly where there are any. -/
theorem Shaped.entries (shaped : array.Shaped) :
    array.entries.length = array.stored ∧
      ∀ taken ∈ array.entries, taken.1.row < array.info.shape.rows ∧
        taken.1.column < array.info.shape.columns ∧ taken.1.imag.isSome = array.isComplex :=
  shaped.walk.entries rfl

end SparseArray

end MatFormat
