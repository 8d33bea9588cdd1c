/-
This file says which entries a sparse matrix holds. Those of a column are the ones at the places
between its column pointer and the next. A walk over the matrix comes to the places in order and
knows their columns, empty columns or not, so it takes the entries column by column; and what is
looked up in a row and a column is the first entry of the column that is in the row.
-/

import MatFormat.Proofs.Sparse

namespace MatFormat

namespace SparseArray

/-! ### Entries of a column -/

/-- The entry at a place, in a column. -/
def entryAt (array : SparseArray) (column place : Nat) : Entry where
  row := array.rowIndices.getD place 0
  column := column
  real := array.real.getD place 0
  imag := array.imag.map fun values => values.getD place 0

/-- The places between the pointer of a column and the next one. -/
def placesIn (array : SparseArray) (column : Nat) : List Nat :=
  let start := array.columnPointers.getD column 0
  List.range' start (array.columnPointers.getD (column + 1) 0 - start)

/-- The entries of a column, in order. -/
def columnEntries (array : SparseArray) (column : Nat) : List Entry :=
  (array.placesIn column).map (array.entryAt column)

variable {array : SparseArray}

/-! ### The places of a walk -/

/-- The columns and the places that a walk comes to. -/
def placed (taken column : Nat) : (ends : List Nat) → List (Nat × Nat)
  | [] => []
  | stop :: ends =>
    (List.range' taken (stop - taken)).map (Prod.mk column) ++
      placed (max taken stop) (column + 1) ends

theorem placed_of_skipColumns {taken column next : Nat} {ends rest : List Nat}
    (skipped : skipColumns taken column ends = some (next, rest)) :
    placed taken column ends = (next, taken) :: placed (taken + 1) next rest := by
  induction ends generalizing column with
  | nil => cases skipped
  | cons stop ends inductionHypothesis =>
    unfold skipColumns at skipped
    split at skipped
    · rename_i pending
      cases skipped
      obtain ⟨left, filled⟩ := Nat.exists_eq_add_of_lt pending
      have all : stop - taken = left + 1 := by omega
      have others : stop - (taken + 1) = left := by omega
      rw [placed, placed, all, others, List.range'_succ, Nat.max_eq_right (Nat.le_of_lt pending),
        Nat.max_eq_right pending]
      rfl
    · rename_i ended
      have empty := Nat.le_of_not_lt ended
      rw [placed, Nat.sub_eq_zero_of_le empty, Nat.max_eq_left empty,
        inductionHypothesis skipped]
      rfl

theorem placed_eq_nil {taken column : Nat} {ends : List Nat} (ended : ∀ stop ∈ ends, stop ≤ taken) :
    placed taken column ends = [] := by
  induction ends generalizing column with
  | nil => rfl
  | cons stop ends inductionHypothesis =>
    obtain ⟨first, others⟩ := List.forall_mem_cons.mp ended
    rw [placed, Nat.sub_eq_zero_of_le first, Nat.max_eq_left first, inductionHypothesis others]
    rfl

theorem mem_of_skipColumns {taken column next : Nat} {ends rest : List Nat}
    (skipped : skipColumns taken column ends = some (next, rest)) :
    ∀ stop ∈ rest, stop ∈ ends := by
  induction ends generalizing column with
  | nil => cases skipped
  | cons first ends inductionHypothesis =>
    unfold skipColumns at skipped
    split at skipped
    · cases skipped
      exact fun _ member => member
    · exact fun stop member => List.mem_cons_of_mem _ (inductionHypothesis skipped stop member)

/-- Where the ends of columns ascend, the places are those between them. -/
theorem placed_eq_flatMap {start column : Nat} {ends : List Nat}
    (ascending : (start :: ends).Pairwise (· ≤ ·)) :
    placed start column ends = (List.range ends.length).flatMap fun index =>
      (List.range' ((start :: ends).getD index 0)
        (ends.getD index 0 - (start :: ends).getD index 0)).map (Prod.mk (column + index)) := by
  induction ends generalizing start column with
  | nil => rfl
  | cons stop ends inductionHypothesis =>
    obtain ⟨first, others⟩ := List.pairwise_cons.mp ascending
    rw [placed, Nat.max_eq_right (first stop List.mem_cons_self), inductionHypothesis others,
      List.length_cons, List.range_succ_eq_map, List.flatMap_cons, List.flatMap_map]
    refine congrArg _ (congrArg (List.flatMap · _) (funext fun index => ?_))
    rw [List.getD_cons_succ, Nat.succ_eq_add_one, List.getD_cons_succ, Nat.add_right_comm,
      Nat.add_assoc]

/-! ### The walk -/

/-- What is left of a matrix after some entries were taken. -/
structure Walk.Over (array : SparseArray) (walk : Walk) : Prop where
  rows : walk.rows = array.rowIndices.drop walk.taken
  real : walk.real = array.real.drop walk.taken
  imag : walk.imag = array.imag.map (List.drop walk.taken)
  ends : ∀ stop ∈ walk.ends, stop ≤ array.stored

theorem getD_eq_of_drop {Value : Type} {values rest : List Value} {place : Nat} {value : Value}
    (left : values.drop place = value :: rest) (default : Value) :
    values.getD place default = value := by
  rw [List.getD_eq_getElem?_getD, ← List.head?_drop, left]
  rfl

/-- A walk takes the entry at the next place, in the column that the place is in. -/
theorem Walk.Over.next (shaped : array.Shaped) {walk next : Walk} {entry : Entry}
    (agrees : walk.Over array) (moved : walk.next? = some (entry, next)) :
    entry = array.entryAt next.column walk.taken ∧ next.Over array ∧
      placed walk.taken walk.column walk.ends =
        (next.column, walk.taken) :: placed next.taken next.column next.ends := by
  obtain ⟨taken, column, ends, rows, real, imag⟩ := walk
  obtain ⟨rowsLeft, realLeft, imagLeft, stops⟩ := agrees
  dsimp only at rowsLeft realLeft imagLeft stops
  unfold Walk.next? at moved
  dsimp only at moved
  split at moved
  · rename_i row rows real reals
    obtain ⟨⟨found, rest⟩, skipped, moved⟩ := Option.bind_eq_some_iff.mp moved
    cases moved
    have rowHere := getD_eq_of_drop rowsLeft.symm 0
    have realHere := getD_eq_of_drop realLeft.symm 0
    have rowsAfter := congrArg List.tail rowsLeft
    have realAfter := congrArg List.tail realLeft
    rw [List.tail_cons, List.tail_drop] at rowsAfter realAfter
    have inside : taken < array.stored := by
      have length := congrArg List.length rowsLeft
      rw [List.length_cons, List.length_drop] at length
      unfold stored
      omega
    refine ⟨?_, ⟨rowsAfter, realAfter, ?_, fun stop member =>
      stops stop (mem_of_skipColumns skipped stop member)⟩, placed_of_skipColumns skipped⟩
    · have imagHere : imag.bind List.head? =
          array.imag.map fun values => values.getD taken 0 := by
        rw [imagLeft, Option.bind_map]
        cases held : array.imag with
        | none => rfl
        | some values =>
          have filled : taken < values.length := shaped.imag values held ▸ inside
          rw [Option.bind_some, Function.comp_apply, List.head?_drop, Option.map_some,
            List.getD_eq_getElem?_getD, List.getElem?_eq_getElem filled, Option.getD_some]
      rw [entryAt, rowHere, realHere, imagHere]
    · rw [imagLeft, Option.map_map]
      exact congrArg (Option.map · array.imag) (funext fun values => List.tail_drop)
  · cases moved

/-- A walk takes the entries at all places that are left. -/
theorem Walk.Over.entries (shaped : array.Shaped) {walk : Walk} {rows columns turns : Nat}
    (agrees : walk.Over array) (sound : walk.Sound rows columns) (enough : walk.left = turns) :
    (walk.entries turns).map Prod.fst =
      (placed walk.taken walk.column walk.ends).map fun place =>
        array.entryAt place.1 place.2 := by
  induction turns generalizing walk with
  | zero =>
    have all : array.stored ≤ walk.taken := by
      rw [Walk.left, agrees.rows, List.length_drop] at enough
      exact Nat.le_of_sub_eq_zero enough
    rw [placed_eq_nil fun stop member => Nat.le_trans (agrees.ends stop member) all]
    rfl
  | succ turns inductionHypothesis =>
    have more : walk.rows ≠ [] := List.ne_nil_of_length_eq_add_one enough
    obtain ⟨entry, next, taken, stillSound, left, _⟩ := sound.next more
    obtain ⟨here, stillAgrees, places⟩ := agrees.next shaped taken
    rw [Walk.entries, taken, places]
    dsimp only
    rw [List.map_cons, List.map_cons, ← here,
      inductionHypothesis stillAgrees stillSound (Nat.succ.inj (left.symm.trans enough))]

theorem map_findIdx?_drop_take {Value : Type} {values : List Value}
    (found : Value → Bool) {start count : Nat} (default : Value)
    (room : start + count ≤ values.length) :
    (((values.drop start).take count).findIdx? found).map (start + ·) =
      (List.range' start count).find? fun place => found (values.getD place default) := by
  induction count generalizing start with
  | zero => rfl
  | succ count inductionHypothesis =>
    have inside : start < values.length := by omega
    have later : start + 1 + count ≤ values.length := by omega
    rw [List.drop_eq_getElem_cons inside, List.take_succ_cons, List.findIdx?_cons,
      List.range'_succ, List.find?_cons, List.getD_eq_getElem?_getD,
      List.getElem?_eq_getElem inside, Option.getD_some, ← inductionHypothesis later]
    cases found values[start] with
    | true => rfl
    | false =>
      rw [if_neg Bool.false_ne_true, Option.map_map]
      exact congrArg (Option.map · _) (funext fun index => by
        rw [Function.comp_apply, Nat.add_comm index 1, Nat.add_assoc])

namespace Shaped

variable (shaped : array.Shaped)
include shaped

theorem pointer_le_stored : ∀ pointer ∈ array.columnPointers, pointer ≤ array.stored := by
  intro pointer member
  obtain ⟨column, found⟩ := List.mem_iff_getElem?.mp member
  obtain ⟨inside, _⟩ := List.getElem?_eq_some_iff.mp found
  have pointers := shaped.pointers
  exact shaped.pointer_le (by omega) found shaped.last_pointer

/-- The walk over a matrix starts with all of it. -/
theorem walk_over : array.walk.Over array where
  rows := rfl
  real := rfl
  imag := Option.map_id'.symm
  ends stop member := shaped.pointer_le_stored stop (List.mem_of_mem_tail member)

/-- The entries of a matrix are those of its columns, one column after the other. -/
theorem entries_eq :
    array.entries.map Prod.fst =
      (List.range array.info.shape.columns).flatMap array.columnEntries := by
  obtain ⟨start, ends, pointers⟩ : ∃ start ends, array.columnPointers = start :: ends :=
    List.exists_cons_of_length_eq_add_one shaped.pointers
  obtain rfl : start = 0 := by
    have zero := shaped.start
    rwa [pointers] at zero
  have width : ends.length = array.info.shape.columns := by
    have length := shaped.pointers
    rw [pointers] at length
    exact Nat.succ.inj length
  have ascending := shaped.ascending
  rw [pointers] at ascending
  have tail : array.columnPointers.tail = ends := by rw [pointers]; rfl
  have left : array.walk.left = array.stored := rfl
  rw [SparseArray.entries, shaped.walk_over.entries shaped shaped.walk left]
  change (placed 0 0 array.columnPointers.tail).map _ = _
  rw [tail, placed_eq_flatMap ascending, List.map_flatMap, width]
  refine congrArg (List.flatMap · _) (funext fun column => ?_)
  rw [List.map_map, columnEntries, placesIn, pointers, List.getD_cons_succ, Nat.zero_add]
  rfl

/-! ### Access -/

/-- The place that is looked up is the first one in the column whose entry is in the row. -/
theorem place?_eq {row column : Nat} (inside : column < array.info.shape.columns) :
    array.place? row column =
      (array.placesIn column).find? fun place => array.rowIndices.getD place 0 == row := by
  obtain ⟨start, stop, startFound, stopFound, ordered, fits⟩ := shaped.column_ends inside
  have room : start + (stop - start) ≤ array.rowIndices.length := by
    unfold stored at fits
    omega
  rw [place?, startFound, stopFound, placesIn, List.getD_eq_getElem?_getD,
    List.getD_eq_getElem?_getD, startFound, stopFound]
  exact map_findIdx?_drop_take _ 0 room

theorem find?_columnEntries {row column : Nat} (inside : column < array.info.shape.columns) :
    ((array.columnEntries column).find? fun entry => entry.row == row) =
      (array.place? row column).map (array.entryAt column) := by
  rw [shaped.place?_eq inside, columnEntries, List.find?_map]
  rfl

/-- What is looked up is the real part of the first entry of the column that is in the row. -/
theorem get?_eq {row column : Nat} (inRows : row < array.info.shape.rows)
    (inColumns : column < array.info.shape.columns) :
    array.get? row column =
      some ((((array.columnEntries column).find? fun entry => entry.row == row).map
        Entry.real).getD 0) := by
  rw [shaped.find?_columnEntries inColumns, get?,
    Shape.index?_eq_some_iff.mpr ⟨inRows, inColumns, rfl⟩, Option.bind_eq_bind, Option.bind_some]
  cases found : array.place? row column with
  | none => rfl
  | some place =>
    have filled : place < array.real.length := shaped.real ▸ lt_stored_of_place? found
    dsimp only [Option.map_some, entryAt, Option.getD_some]
    rw [List.getD_eq_getElem?_getD, List.getElem?_eq_getElem filled, Option.getD_some]

/-- In a complex matrix it is the imaginary part. -/
theorem getImag?_eq {row column : Nat} (inRows : row < array.info.shape.rows)
    (inColumns : column < array.info.shape.columns) :
    array.getImag? row column = array.imag.map fun _ =>
      (((array.columnEntries column).find? fun entry => entry.row == row).bind
        Entry.imag).getD 0 := by
  rw [shaped.find?_columnEntries inColumns, getImag?,
    Shape.index?_eq_some_iff.mpr ⟨inRows, inColumns, rfl⟩, Option.bind_eq_bind, Option.bind_some]
  cases held : array.imag with
  | none => rfl
  | some values =>
    rw [Option.bind_eq_bind, Option.bind_some]
    cases found : array.place? row column with
    | none => rfl
    | some place =>
      have filled : place < values.length := shaped.imag values held ▸ lt_stored_of_place? found
      dsimp only [Option.map_some, Option.bind_some, entryAt]
      rw [held, Option.map_some, Option.getD_some, List.getD_eq_getElem?_getD,
        List.getElem?_eq_getElem filled, Option.getD_some]

end Shaped

end SparseArray

end MatFormat
