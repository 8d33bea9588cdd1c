/-
This file proves that sound arrays can be looked into without leaving them. An access by row
and column works out a place and looks it up in a run of values; where the position lies
inside the shape, the place lies inside the run. So an access gives nothing only where it is
asked for a position outside the shape, or for an imaginary part that the array does not have.
-/

import MatFormat.Proofs.Sparse

namespace MatFormat

/-! ### What is looked up -/

/-- Both parts of a numeric array can be looked up at every position inside its shape. -/
structure NumericArray.InBounds {numericClass : NumericClass}
    (array : NumericArray numericClass) : Prop where
  get : ∀ row column : Nat,
    (array.get? row column).isSome = (array.info.shape.index? row column).isSome
  getImag : ∀ row column : Nat, (array.getImag? row column).isSome =
    ((array.info.shape.index? row column).isSome && array.imag.isSome)

/-- Code units can be looked up at every position inside the shape, and so can those that the
text of a row is made from. -/
structure CharArray.InBounds (array : CharArray) : Prop where
  get : ∀ row column : Nat,
    (array.get? row column).isSome = (array.info.shape.index? row column).isSome
  row : ∀ row < array.info.shape.rows, ∀ column < array.info.shape.columns,
    row + column * array.info.shape.rows < array.units.length

/-- Cells can be looked up at every position inside the shape. -/
structure CellArray.InBounds (array : CellArray MatArray) : Prop where
  cell : ∀ row column place : Nat,
    array.info.shape.index? row column = some place → place < array.cells.length

/-- Every field has a slot for every element. -/
structure StructArray.InBounds (array : StructArray MatArray) : Prop where
  slot : ∀ field ∈ array.fields, ∀ index < array.count, index < field.slots.length

/-- Both parts of a sparse matrix can be looked up at every position inside its shape, every
column ends inside its entries, and walking over them takes them all. -/
structure SparseArray.InBounds (array : SparseArray) : Prop where
  get : ∀ row column : Nat,
    (array.get? row column).isSome = (array.info.shape.index? row column).isSome
  getImag : ∀ row column : Nat, (array.getImag? row column).isSome =
    ((array.info.shape.index? row column).isSome && array.imag.isSome)
  column : ∀ column < array.info.shape.columns, ∃ start stop : Nat,
    array.columnPointers[column]? = some start ∧
      array.columnPointers[column + 1]? = some stop ∧ start ≤ stop ∧ stop ≤ array.stored
  walk : array.entries.length = array.stored
  entry : ∀ taken ∈ array.entries, taken.1.row < array.info.shape.rows ∧
    taken.1.column < array.info.shape.columns ∧ taken.1.imag.isSome = array.isComplex

/-- Every access to an array stays inside its parts. -/
def MatArray.InBounds : MatArray → Prop
  | numeric _ array => array.InBounds
  | char array => array.InBounds
  | cell array => array.InBounds
  | struct array => array.InBounds
  | sparse array => array.InBounds

/-! ### Parts as long as the shape asks for -/

/-- A run of one value for each element can be looked up at every position inside a shape. -/
theorem isSome_lookup {Value : Type} {shape : Shape} {values : List Value}
    (counted : values.length = shape.count) (row column : Nat) :
    (shape.index? row column >>= fun place => values[place]?).isSome =
      (shape.index? row column).isSome := by
  cases found : shape.index? row column with
  | none => rfl
  | some place =>
    have inside : place < values.length := counted ▸ Shape.lt_count_of_index? found
    rw [Option.bind_eq_bind, Option.bind_some, List.getElem?_eq_getElem inside]
    rfl

theorem NumericArray.Shaped.inBounds {numericClass : NumericClass}
    {array : NumericArray numericClass} (shaped : array.Shaped) : array.InBounds := by
  refine ⟨isSome_lookup shaped.real, fun row column => ?_⟩
  unfold getImag?
  cases held : array.imag with
  | none =>
    cases array.info.shape.index? row column <;> rfl
  | some imag =>
    rw [Option.isSome_some, Bool.and_true]
    exact isSome_lookup (shaped.imag imag held) row column

theorem CharArray.inBounds {array : CharArray}
    (counted : array.units.length = array.info.shape.count) : array.InBounds := by
  refine ⟨isSome_lookup counted, fun row inRows column inColumns => ?_⟩
  rw [counted]
  exact Shape.place_lt_count inRows inColumns

theorem SparseArray.Shaped.inBounds {array : SparseArray} (shaped : array.Shaped) :
    array.InBounds :=
  ⟨shaped.isSome_get?, shaped.isSome_getImag?, fun _ inside => shaped.column_ends inside,
    shaped.entries.1, shaped.entries.2⟩

/-- Every access to an array whose parts are as long as its shape asks for stays inside. -/
theorem MatArray.Shaped.inBounds {array : MatArray} (shaped : array.Shaped) : array.InBounds := by
  cases array with
  | numeric numericClass array => exact NumericArray.Shaped.inBounds shaped
  | char array => exact CharArray.inBounds shaped
  | cell array =>
    have counted : array.cells.length = array.info.shape.count := shaped
    exact ⟨fun _ _ _ found => counted ▸ Shape.lt_count_of_index? found⟩
  | struct array =>
    have counted : ∀ field ∈ array.fields, field.slots.length = array.count := shaped
    exact ⟨fun field member _ inside => (counted field member).symm ▸ inside⟩
  | sparse array => exact SparseArray.Shaped.inBounds shaped

end MatFormat
