/-
This file proves that elements are found without a trap. The place so far is always below the
stride, and the stride is a running product of the dimensions, so no product and no sum on the way
to the place of a position is too large. A walk over the entries of a sparse matrix never looks for
a column behind the last one: as long as an entry is left, the last column pointer ends after it.
-/

import MatFormat.Checked.Access
import MatFormat.Proofs.Checked.Arithmetic
import MatFormat.Proofs.Sparse.Columns

namespace MatFormat

namespace Checked

/-! ### Places -/

theorem index_eq (shape : Shape) (row column : Nat) :
    index shape row column = .ok (shape.index? row column) := by
  have filled : 0 < shape.dimensions.length := Nat.zero_lt_of_lt shape.rank_ge_two
  have rows : item shape.dimensions 0 = .ok shape.rows := item_zero filled 0
  rw [index, Outcome.bind_of_ok rows, Shape.index?]
  split
  · rename_i inside
    have below : row + column * shape.rows < countLimit :=
      Nat.lt_trans (Shape.place_lt_count inside.1 inside.2) shape.count_lt
    rw [Outcome.bind_of_ok (product_of_lt (by omega)), Outcome.bind_of_ok (sum_of_lt below)]
    rfl
  · rfl

/-- A place below the stride, whose products with the dimensions all fit, goes on to the place of
the whole position. -/
theorem placeFrom_eq {place stride : Nat} {dimensions position : List Nat}
    (sameRank : position.length = dimensions.length) (below : place < stride)
    (fit : productsFit stride dimensions = true) :
    placeFrom place stride (position.zip dimensions) =
      .ok ((Shape.placeOf? dimensions position).map fun later => place + stride * later) := by
  induction dimensions generalizing place stride position with
  | nil =>
    obtain rfl : position = [] := List.length_eq_zero_iff.mp sameRank
    rfl
  | cons dimension dimensions inductionHypothesis =>
    obtain ⟨coordinate, position, rfl⟩ := List.exists_cons_of_length_eq_add_one sameRank
    rw [List.zip_cons_cons, placeFrom]
    by_cases outside : dimension ≤ coordinate
    · rw [if_pos outside, Shape.placeOf?, if_neg (Nat.not_lt.mpr outside)]
      rfl
    · have inside := Nat.lt_of_not_le outside
      have laterFit := (productsFit_cons.mp fit).2
      have nextBelow : place + stride * coordinate < stride * dimension := add_mul_lt below inside
      have strideFits : stride * dimension < countLimit := lt_of_productsFit laterFit
      have step : product coordinate stride = .ok (stride * coordinate) := by
        rw [Nat.mul_comm stride]
        refine product_of_lt ?_
        rw [Nat.mul_comm]
        omega
      rw [if_neg outside, Outcome.bind_of_ok step, Outcome.bind_of_ok (sum_of_lt (by omega)),
        Outcome.bind_of_ok (product_of_lt strideFits),
        inductionHypothesis (Nat.succ.inj sameRank) nextBelow laterFit,
        Shape.placeOf?_cons inside, Option.map_map]
      refine congrArg (fun change => Except.ok (Option.map change _)) (funext fun later => ?_)
      rw [Function.comp_apply, Nat.mul_add, Nat.add_assoc, Nat.mul_assoc]

theorem linearIndex_eq (shape : Shape) (position : List Nat) :
    linearIndex shape position = .ok (shape.linearIndex? position) := by
  unfold linearIndex
  split
  · rename_i otherRank
    have missing : shape.linearIndex? position = none := by
      refine Option.eq_none_iff_forall_ne_some.mpr fun place found => otherRank ?_
      exact (Shape.exists_placeOf?_iff.mp ⟨place, found⟩).length_eq
    rw [missing]
    rfl
  · rename_i sameRank
    rw [placeFrom_eq (not_not.mp sameRank) Nat.one_pos shape.counts_fit]
    simp only [Nat.zero_add, Nat.one_mul, Option.map_id', Shape.linearIndex?]

/-! ### Values of a sparse matrix -/

section Lookup

variable {array : SparseArray} (shaped : array.Shaped)
include shaped

theorem entryPlace_eq {row column : Nat} (inside : column < array.info.shape.columns) :
    entryPlace array row column = .ok (array.place? row column) := by
  obtain ⟨start, stop, startFound, stopFound, ordered, fits⟩ := shaped.column_ends inside
  rw [entryPlace, Outcome.bind_of_ok (item_of_getElem? startFound),
    Outcome.bind_of_ok (item_of_getElem? stopFound),
    Outcome.bind_of_ok (slice_of_le ordered fits), SparseArray.place?, startFound, stopFound]
  rfl

/-- A value that is found is one of the values, and where nothing is found it is zero. -/
theorem entryValue_eq {values : List Double} (counted : values.length = array.stored)
    (row : Nat) {column : Nat} (inside : column < array.info.shape.columns) :
    ∃ value, entryValue array values row column = .ok value ∧
      (match array.place? row column with
        | some place => values[place]?
        | none => some 0) = some value := by
  rw [entryValue, Outcome.bind_of_ok (entryPlace_eq shaped inside)]
  cases found : array.place? row column with
  | none => exact ⟨0, rfl, rfl⟩
  | some place =>
    have filled : place < values.length := counted ▸ SparseArray.lt_stored_of_place? found
    exact ⟨values[place], item_of_lt filled, List.getElem?_eq_getElem filled⟩

theorem entryReal_eq (row column : Nat) :
    entryReal array row column = .ok (array.get? row column) := by
  rw [entryReal, Outcome.bind_of_ok (index_eq _ row column), SparseArray.get?]
  cases found : array.info.shape.index? row column with
  | none => rfl
  | some place =>
    have inside := (Shape.index?_eq_some_iff.mp found).2.1
    obtain ⟨value, read, same⟩ := entryValue_eq shaped shaped.real row inside
    rw [Option.bind_eq_bind, Option.bind_some]
    dsimp only
    rw [Outcome.bind_of_ok read]
    exact congrArg Except.ok same.symm

theorem entryImag_eq (row column : Nat) :
    entryImag array row column = .ok (array.getImag? row column) := by
  rw [entryImag, Outcome.bind_of_ok (index_eq _ row column), SparseArray.getImag?]
  cases found : array.info.shape.index? row column with
  | none => rfl
  | some place =>
    cases held : array.imag with
    | none => rfl
    | some imag =>
      have inside := (Shape.index?_eq_some_iff.mp found).2.1
      obtain ⟨value, read, same⟩ :=
        entryValue_eq shaped (shaped.imag imag held) row inside
      rw [Option.bind_eq_bind, Option.bind_some, Option.bind_eq_bind, Option.bind_some]
      dsimp only
      rw [Outcome.bind_of_ok read]
      exact congrArg Except.ok same.symm

end Lookup

/-! ### Walking over a sparse matrix -/

/-- Going from column to column with machine numbers leads where the ends of the columns do. -/
theorem columnFrom_of_skipColumns {pointers rest : List Nat} {taken column next : Nat}
    (skipped : SparseArray.skipColumns taken column (pointers.drop (column + 1)) =
      some (next, rest)) :
    columnFrom pointers taken column = .ok next ∧ rest = pointers.drop (next + 1) := by
  fun_induction columnFrom pointers taken column with
  | case1 column inside pending =>
    rw [List.drop_eq_getElem_cons inside, SparseArray.skipColumns, if_pos pending] at skipped
    cases skipped
    exact ⟨rfl, (List.drop_eq_getElem_cons inside).symm⟩
  | case2 column inside ended inductionHypothesis =>
    rw [List.drop_eq_getElem_cons inside, SparseArray.skipColumns, if_neg ended] at skipped
    exact inductionHypothesis skipped
  | case3 column outside =>
    rw [List.drop_eq_nil_of_le (Nat.le_of_not_lt outside)] at skipped
    cases skipped

namespace EntryWalk

/-- What a walk relies on: as long as an entry is left, the end of all entries is among the ends
of the column and of those after it. -/
structure Sound (walk : EntryWalk) : Prop where
  shaped : walk.array.Shaped
  taken : walk.taken ≤ walk.array.stored
  last : walk.taken < walk.array.stored →
    walk.array.stored ∈ walk.array.columnPointers.drop (walk.column + 1)

/-- The entries that a walk comes to. -/
def ahead (walk : EntryWalk) : List Entry :=
  (SparseArray.placed walk.taken walk.column
    (walk.array.columnPointers.drop (walk.column + 1))).map fun place =>
      walk.array.entryAt place.1 place.2

variable {walk : EntryWalk}

/-- A walk that has an entry left takes it, finding its column among the pointers. -/
theorem Sound.next_of_lt (sound : walk.Sound) (more : walk.taken < walk.array.stored) :
    ∃ (entry : Entry) (column : Nat),
      walk.next = .ok (some entry, { walk with taken := walk.taken + 1, column }) ∧
        EntryWalk.Sound { walk with taken := walk.taken + 1, column } ∧
        walk.ahead = entry :: EntryWalk.ahead { walk with taken := walk.taken + 1, column } := by
  obtain ⟨array, taken, column⟩ := walk
  obtain ⟨shaped, _, last⟩ := sound
  dsimp only at shaped last more ⊢
  obtain ⟨next, rest, skipped, _, held⟩ :=
    SparseArray.skipColumns_of_mem (last more) more column
  obtain ⟨found, rfl⟩ := columnFrom_of_skipColumns skipped
  have inRows : taken < array.rowIndices.length := more
  have inReal : taken < array.real.length := shaped.real ▸ inRows
  have imagFound : (array.imag.mapM fun imag => item imag taken) =
      .ok (array.imag.map fun imag => imag.getD taken 0) := by
    cases parts : array.imag with
    | none => rfl
    | some imag =>
      have inImag : taken < imag.length := shaped.imag imag parts ▸ inRows
      rw [Option.map_some, List.getD_eq_getElem?_getD, List.getElem?_eq_getElem inImag,
        Option.getD_some]
      exact Outcome.bind_of_ok (item_of_lt inImag) _
  refine ⟨array.entryAt next taken, next, ?_, ⟨shaped, more, fun _ => held⟩, ?_⟩
  · rw [EntryWalk.next, if_neg (Nat.not_le.mpr more)]
    dsimp only
    rw [Outcome.bind_of_ok found, Outcome.bind_of_ok (item_of_lt inRows),
      Outcome.bind_of_ok (item_of_lt inReal), Outcome.bind_of_ok imagFound,
      SparseArray.entryAt, List.getD_eq_getElem?_getD, List.getElem?_eq_getElem inRows,
      List.getD_eq_getElem?_getD, List.getElem?_eq_getElem inReal]
    rfl
  · rw [ahead, SparseArray.placed_of_skipColumns skipped]
    rfl

/-- A walk that has taken all entries stays where it is. -/
theorem Sound.next_of_le (sound : walk.Sound) (done : walk.array.stored ≤ walk.taken) :
    walk.next = .ok (none, walk) ∧ walk.ahead = [] := by
  refine ⟨if_pos done, ?_⟩
  rw [ahead, SparseArray.placed_eq_nil fun stop member =>
    Nat.le_trans (sound.shaped.pointer_le_stored stop (List.mem_of_mem_drop member)) done]
  rfl

/-- However often it is asked, a walk gives the entries it comes to and then nothing more, and it
tells before each of them how many are left. -/
theorem Sound.answers_eq (sound : walk.Sound) (requests : Nat) :
    walk.answers requests = .ok ((List.range requests).map fun request =>
      (walk.array.stored - walk.taken - request, walk.ahead[request]?)) := by
  induction requests generalizing walk with
  | zero => rfl
  | succ requests inductionHypothesis =>
    have left : walk.left = .ok (walk.array.stored - walk.taken) := difference_of_le sound.taken
    rw [answers, Outcome.bind_of_ok left, List.range_succ_eq_map, List.map_cons, List.map_map]
    rcases Nat.lt_or_ge walk.taken walk.array.stored with more | done
    · obtain ⟨entry, column, taken, stillSound, ahead⟩ := sound.next_of_lt more
      rw [Outcome.bind_of_ok taken]
      dsimp only
      rw [Outcome.bind_of_ok (inductionHypothesis stillSound), ahead]
      refine congrArg (fun rest => Except.ok (_ :: rest)) (List.map_congr_left fun request _ => ?_)
      rw [Function.comp_apply, Nat.succ_eq_add_one, List.getElem?_cons_succ, Nat.sub_sub,
        Nat.sub_sub, Nat.add_assoc, Nat.add_comm 1]
    · obtain ⟨stays, nothing⟩ := sound.next_of_le done
      have zero := Nat.sub_eq_zero_of_le done
      rw [Outcome.bind_of_ok stays]
      dsimp only
      rw [Outcome.bind_of_ok (inductionHypothesis sound), nothing, zero]
      refine congrArg (fun rest => Except.ok (_ :: rest)) (List.map_congr_left fun request _ => ?_)
      rw [Function.comp_apply, List.getElem?_nil, List.getElem?_nil, Nat.zero_sub, Nat.zero_sub]

theorem sound_start {array : SparseArray} (shaped : array.Shaped) : (start array).Sound where
  shaped := shaped
  taken := Nat.zero_le _
  last more := by
    obtain ⟨stop, member, covers⟩ := shaped.walk.stop (List.ne_nil_of_length_pos more)
    have inPointers := shaped.pointer_le_stored stop (List.mem_of_mem_tail member)
    have whole : array.stored ≤ stop := Nat.le_trans (Nat.le_add_left _ _) covers
    obtain rfl : stop = array.stored := Nat.le_antisymm inPointers whole
    rw [start, List.drop_one]
    exact member

end EntryWalk

end Checked

end MatFormat
