/-
This file says what happens to the values of a grid in a numeric array. A shape that a grid can
have is also one of an array once it is filled up with ones to a rank of two, and each value then
stands at the place of its position. So a real array gives its grid back, and an array that has a
grid is made of it again. Of two grids for a complex array only the numbers of values are compared:
both parts keep their column-major order, and the imaginary parts stand at the places of their
positions only if the two shapes agree.
-/

import MatFormat.Proofs.Grid.Order
import MatFormat.Proofs.Indexing
import Mathlib.Algebra.BigOperators.Group.List.Lemmas
import Mathlib.Algebra.Order.BigOperators.GroupWithZero.List
import Mathlib.Algebra.Order.Ring.Nat

namespace MatFormat

/-! ### Shapes of grids -/

theorem product_eq_prod (numbers : List Nat) : product numbers = numbers.prod := by
  induction numbers with
  | nil => rfl
  | cons first rest inductionHypothesis =>
    rw [product, inductionHypothesis, List.prod_cons]

/-- The product of the axes of a shape that are not of length zero. -/
def spanned (shape : List Nat) : Nat := product (shape.filter fun length => length != 0)

theorem spanned_pos (shape : List Nat) : 0 < spanned shape := by
  rw [spanned, product_eq_prod]
  exact List.prod_pos fun length member =>
    Nat.pos_of_ne_zero (bne_iff_ne.mp (List.mem_filter.mp member).2)

/-- An axis of length zero only makes the product smaller. -/
theorem product_le_spanned (shape : List Nat) : product shape ≤ spanned shape := by
  induction shape with
  | nil => exact Nat.le_refl 1
  | cons length rest inductionHypothesis =>
    rw [product, spanned, List.filter_cons]
    split
    · exact Nat.mul_le_mul_left length inductionHypothesis
    · rename_i empty
      obtain rfl : length = 0 := not_not.mp fun filled => empty (bne_iff_ne.mpr filled)
      rw [Nat.zero_mul]
      exact Nat.zero_le _

theorem spanned_le_of_sublist {part whole : List Nat} (chosen : part.Sublist whole) :
    spanned part ≤ spanned whole := by
  refine Nat.le_of_dvd (spanned_pos whole) ?_
  rw [spanned, spanned, product_eq_prod, product_eq_prod]
  exact (chosen.filter _).prod_dvd_prod

/-- All running products of axes of a shape that a grid can have are counted, whatever axes of
length zero lie between them. -/
theorem productsFit_of_fitsGrid {shape numbers : List Nat} (fits : fitsGrid shape = true)
    (chosen : numbers.Sublist shape) : productsFit 1 numbers = true := by
  refine productsFit_iff.mpr fun count => ?_
  have limited : spanned shape < gridLimit := of_decide_eq_true fits
  have part := spanned_le_of_sublist ((List.take_sublist count numbers).trans chosen)
  have whole := product_le_spanned (numbers.take count)
  have limits : gridLimit < countLimit := by decide
  omega

namespace Grid

/-! ### Unit axes -/

variable {Item : Type}

/-- The position in an array for a position of a grid of lower rank. -/
def arrayPosition (position : List Nat) : List Nat :=
  position ++ List.replicate (2 - position.length) 0

/-- The grid with unit axes appended up to a rank of two. -/
def extended (grid : Grid Item) : Grid Item :=
  ⟨arrayDimensions grid.shape, fun position => grid.value (position.take grid.shape.length)⟩

theorem length_positionAt (dimensions : List Nat) (place : Nat) :
    (Shape.positionAt dimensions place).length = dimensions.length := by
  induction dimensions generalizing place with
  | nil => rfl
  | cons dimension dimensions inductionHypothesis =>
    exact congrArg Nat.succ (inductionHypothesis (place / dimension))

theorem positionAt_append_ones {dimensions : List Nat} {place : Nat} (ones : Nat)
    (below : place < product dimensions) :
    Shape.positionAt (dimensions ++ List.replicate ones 1) place =
      Shape.positionAt dimensions place ++ List.replicate ones 0 := by
  induction dimensions generalizing place with
  | nil =>
    obtain rfl : place = 0 := Nat.lt_one_iff.mp below
    induction ones with
    | zero => rfl
    | succ ones inductionHypothesis => exact congrArg (List.cons 0) inductionHypothesis
  | cons dimension dimensions inductionHypothesis =>
    rw [List.cons_append, Shape.positionAt, inductionHypothesis (Nat.div_lt_of_lt_mul below)]
    rfl

theorem product_arrayDimensions (shape : List Nat) :
    product (arrayDimensions shape) = product shape := by
  rw [arrayDimensions, product_append, product_eq_prod (List.replicate _ 1), List.prod_replicate,
    Nat.one_pow, Nat.mul_one]

theorem fitsGrid_arrayDimensions (shape : List Nat) :
    fitsGrid (arrayDimensions shape) = fitsGrid shape := by
  have ones (count : Nat) : spanned (List.replicate count 1) = 1 := by
    rw [spanned, List.filter_replicate_of_pos (by decide), product_eq_prod, List.prod_replicate,
      Nat.one_pow]
  rw [fitsGrid, fitsGrid, arrayDimensions, List.filter_append, product_append]
  change decide (spanned shape * spanned (List.replicate _ 1) < gridLimit) = _
  rw [ones, Nat.mul_one, spanned]

/-- Unit axes do not change the place of a position. -/
theorem placeOf?_arrayPosition {shape position : List Nat} {place : Nat}
    (found : Shape.placeOf? shape position = some place) :
    Shape.placeOf? (arrayDimensions shape) (arrayPosition position) = some place := by
  have below := Shape.lt_product_of_placeOf? found
  have sameRank := (Shape.exists_placeOf?_iff.mp ⟨place, found⟩).length_eq
  rw [Shape.placeOf?_eq_some_iff (product_arrayDimensions shape ▸ below), arrayDimensions,
    arrayPosition, sameRank, positionAt_append_ones _ below,
    ← (Shape.placeOf?_eq_some_iff below).mp found]

/-- Unit axes do not change the order of the values. -/
theorem columnMajor_extended (grid : Grid Item) :
    grid.extended.columnMajor = grid.columnMajor := by
  rw [columnMajor_eq, columnMajor_eq]
  dsimp only [extended]
  rw [product_arrayDimensions]
  refine List.map_congr_left fun place member => ?_
  rw [arrayDimensions, positionAt_append_ones _ (List.mem_range.mp member),
    List.take_left' (length_positionAt _ _)]

theorem arrayDimensions_of_rank {shape : List Nat} (rank : 2 ≤ shape.length) :
    arrayDimensions shape = shape := by
  rw [arrayDimensions, Nat.sub_eq_zero_of_le rank, List.replicate_zero, List.append_nil]

theorem two_le_length_arrayDimensions (shape : List Nat) : 2 ≤ (arrayDimensions shape).length := by
  rw [arrayDimensions, List.length_append, List.length_replicate]
  omega

/-- The dimensions for a grid are those of some shape. -/
theorem exists_create {shape : List Nat} (fits : fitsGrid shape = true) (name : String) :
    ∃ arrayShape : Shape, arrayShape.dimensions = arrayDimensions shape ∧
      arrayShape.count = product shape ∧
      ArrayInfo.create name (arrayDimensions shape) = .ok { name, shape := arrayShape } := by
  have arrayFits : fitsGrid (arrayDimensions shape) = true :=
    (fitsGrid_arrayDimensions shape).trans fits
  let arrayShape : Shape :=
    ⟨arrayDimensions shape, two_le_length_arrayDimensions shape,
      productsFit_of_fitsGrid arrayFits (List.Sublist.refl _),
      productsFit_of_fitsGrid arrayFits (List.tail_sublist _)⟩
  refine ⟨arrayShape, rfl, product_arrayDimensions shape, ?_⟩
  have built : Shape.ofDimensions (arrayDimensions shape) = .ok arrayShape :=
    Shape.ofDimensions_dimensions arrayShape
  rw [ArrayInfo.create, built]

theorem checkRun_eq_ok {shape : List Nat} {count : Nat} :
    checkRun shape count = .ok () ↔ fitsGrid shape = true ∧ count = product shape := by
  unfold checkRun
  split
  · rename_i fits
    split
    · rename_i short
      exact ⟨nofun, fun whole => absurd whole.2 (Nat.ne_of_lt short)⟩
    · rename_i enough
      split
      · rename_i long
        exact ⟨nofun, fun whole => absurd whole.2 (Nat.ne_of_gt long)⟩
      · rename_i atMost
        exact ⟨fun _ => ⟨fits, by omega⟩, fun _ => rfl⟩
  · rename_i tooLarge
    exact ⟨nofun, fun whole => absurd whole.1 tooLarge⟩

end Grid

namespace NumericArray

variable {numericClass : NumericClass} {array : NumericArray numericClass}

open Grid

/-- A run of values has a grid if the shape is one of grids and there is one value for each
position, and its list is the run. -/
theorem gridOf_eq_ok {values : List numericClass.Value} {grid : Grid numericClass.Value} :
    array.gridOf values = .ok grid ↔
      (fitsGrid array.info.shape.dimensions = true ∧ values.length = array.info.shape.count) ∧
        grid = .ofColumnMajor array.info.shape.dimensions values := by
  rw [gridOf, Outcome.bind_eq_ok]
  constructor
  · rintro ⟨_, checked, built⟩
    exact ⟨checkRun_eq_ok.mp checked, (Outcome.pure_eq_ok.mp built).symm⟩
  · rintro ⟨checked, rfl⟩
    exact ⟨(), checkRun_eq_ok.mpr checked, rfl⟩

/-- The grid of the values of another grid, listed in column-major order. -/
theorem exists_gridOf (array : NumericArray numericClass) (grid : Grid numericClass.Value)
    (fits : fitsGrid array.info.shape.dimensions = true)
    (counted : product grid.shape = array.info.shape.count) :
    ∃ back, array.gridOf grid.columnMajor = .ok back ∧
      back.shape = array.info.shape.dimensions ∧ back.columnMajor = grid.columnMajor := by
  have filled : grid.columnMajor.length = array.info.shape.count :=
    (length_columnMajor grid).trans counted
  exact ⟨_, gridOf_eq_ok.mpr ⟨⟨fits, filled⟩, rfl⟩, shape_ofColumnMajor _ _,
    columnMajor_ofColumnMajor filled⟩

/-- The values of a grid stand at the places of their positions. -/
theorem lookup_columnMajor {shape : Shape} {grid : Grid numericClass.Value}
    (dimensions : shape.dimensions = arrayDimensions grid.shape) {position : List Nat}
    (inside : Shape.Inside grid.shape position) :
    ((shape.linearIndex? (arrayPosition position)).bind fun place => grid.columnMajor[place]?) =
      some (grid.value position) := by
  obtain ⟨place, found⟩ := Shape.exists_placeOf?_iff.mpr inside
  rw [Shape.linearIndex?, dimensions, placeOf?_arrayPosition found, Option.bind_some,
    getElem?_columnMajor found]

/-! ### Real arrays -/

theorem ofList_eq {name : String} {dimensions : List Nat} {info : ArrayInfo}
    {real : List numericClass.Value} (created : ArrayInfo.create name dimensions = .ok info)
    (counted : real.length = info.shape.count) : ofList name dimensions real = .ok { info, real } :=
  (makes_ofList name dimensions real _).mpr ⟨info, created, counted, rfl⟩

/-- A real array that has the values of a grid and gives it back. -/
structure HoldsGrid (array : NumericArray numericClass) (name : String)
    (grid : Grid numericClass.Value) : Prop where
  named : array.info.name = name
  plain : array.info.flags = {} ∧ array.imag = none
  dimensions : array.info.shape.dimensions = arrayDimensions grid.shape
  value : ∀ position, Shape.Inside grid.shape position →
    array.realAt? (arrayPosition position) = some (grid.value position)
  back : ∃ back, array.grid = .ok back ∧ back.Same grid.extended

/-- A grid comes back from the real array that is made of it, with unit axes up to a rank of two,
and so does an array that has a grid. -/
theorem grid_roundTrip (numericClass : NumericClass) (name : String) :
    (∀ grid : Grid numericClass.Value, fitsGrid grid.shape = true →
      ∃ array, ofGrid name grid = .ok array ∧ array.HoldsGrid name grid) ∧
    ∀ (array : NumericArray numericClass) (grid : Grid numericClass.Value),
      array.grid = .ok grid →
        ofGrid name grid =
          .ok { info := { name, shape := array.info.shape }, real := array.real } := by
  constructor
  · intro grid fits
    obtain ⟨shape, dimensions, counted, created⟩ := exists_create fits name
    have filled : grid.columnMajor.length = shape.count :=
      (length_columnMajor grid).trans counted.symm
    have arrayFits : fitsGrid shape.dimensions = true := by
      rw [dimensions, fitsGrid_arrayDimensions, fits]
    let array : NumericArray numericClass := { info := { name, shape }, real := grid.columnMajor }
    obtain ⟨back, gridFound, backShape, listed⟩ :=
      exists_gridOf array grid arrayFits counted.symm
    refine ⟨array, ofList_eq created filled, rfl, ⟨rfl, rfl⟩, dimensions,
      fun position inside => lookup_columnMajor dimensions inside, back, gridFound,
      same_iff.mpr ⟨backShape.trans dimensions, ?_⟩⟩
    rw [listed, columnMajor_extended]
  · intro array grid found
    obtain ⟨⟨_, filled⟩, rfl⟩ := gridOf_eq_ok.mp found
    have created : ArrayInfo.create name array.info.shape.dimensions =
        .ok { name, shape := array.info.shape } := by
      rw [ArrayInfo.create, Shape.ofDimensions_dimensions]
    rw [ofGrid, shape_ofColumnMajor, columnMajor_ofColumnMajor filled,
      arrayDimensions_of_rank array.info.shape.rank_ge_two]
    exact ofList_eq created filled

/-- A vector, which comes back as a matrix of one column. -/
theorem grid_roundTrip_vector :
    ∃ (grid back : Grid NumericClass.int8.Value) (array : NumericArray .int8),
      grid = .ofRowMajor [3] [7, 8, 9] ∧ ofGrid "v" grid = .ok array ∧
        array.info.shape.dimensions = [3, 1] ∧ array.realAt? [2, 0] = some 9 ∧
        array.grid = .ok back ∧ back.Same grid.extended ∧
        ofGrid "w" back =
          .ok { info := { name := "w", shape := array.info.shape }, real := array.real } := by
  obtain ⟨once, _⟩ := grid_roundTrip .int8 "v"
  obtain ⟨_, again⟩ := grid_roundTrip .int8 "w"
  obtain ⟨array, made, holds⟩ := once (.ofRowMajor [3] [7, 8, 9]) (by decide)
  obtain ⟨back, found, same⟩ := holds.back
  have last : Shape.Inside [3] [2] := .cons (by decide) .nil
  exact ⟨_, back, array, rfl, made, holds.dimensions, holds.value [2] last, found, same,
    again array back found⟩

/-! ### Complex arrays -/

/-- A complex array that was made of two grids. The imaginary parts keep their order, so they stand
at the places of their positions, and give their grid back, if the shapes agree. -/
structure HoldsGrids (array : NumericArray numericClass) (name : String)
    (real imag : Grid numericClass.Value) : Prop where
  named : array.info.name = name
  complex : array.info.flags = { complex := true }
  dimensions : array.info.shape.dimensions = arrayDimensions real.shape
  realValue : ∀ position, Shape.Inside real.shape position →
    array.realAt? (arrayPosition position) = some (real.value position)
  realBack : ∃ back, array.grid = .ok back ∧ back.Same real.extended
  imagOrder : array.imag = some imag.columnMajor ∧
    ∀ position place, Shape.placeOf? imag.shape position = some place →
      imag.columnMajor[place]? = some (imag.value position)
  imagValue : arrayDimensions real.shape = arrayDimensions imag.shape →
    ∀ position, Shape.Inside imag.shape position →
      array.imagAt? (arrayPosition position) = some (imag.value position)
  imagBack : ∃ back, array.imagGrid = .ok (some back) ∧ back.columnMajor = imag.columnMajor ∧
    (back.Same imag.extended ↔ arrayDimensions real.shape = arrayDimensions imag.shape)

/-- A complex array is made of two grids exactly if they have equally many positions, of whatever
shapes. -/
theorem ofGrids_of_counts (name : String) (real imag : Grid numericClass.Value)
    (fits : fitsGrid real.shape = true) :
    (product real.shape ≠ product imag.shape →
      ofGrids name real imag =
        .error (.dimensionMismatch name (product real.shape) (product imag.shape))) ∧
    (product real.shape = product imag.shape →
      ∃ array, ofGrids name real imag = .ok array ∧ array.HoldsGrids name real imag) := by
  obtain ⟨shape, dimensions, counted, created⟩ := exists_create fits name
  have realFilled : real.columnMajor.length = shape.count :=
    (length_columnMajor real).trans counted.symm
  have realChecked : ArrayInfo.checkCount { name, shape } real.columnMajor.length = .ok () :=
    ArrayInfo.checkCount_eq_ok.mpr realFilled
  constructor
  · intro differ
    have refused : ArrayInfo.checkCount { name, shape } imag.columnMajor.length =
        .error (.dimensionMismatch name (product real.shape) (product imag.shape)) := by
      rw [ArrayInfo.checkCount, length_columnMajor, counted, if_neg differ]
    rw [ofGrids, ofParts, Outcome.bind_of_ok created, Outcome.bind_of_ok realChecked, refused]
    rfl
  · intro agree
    have imagCounted : product imag.shape = shape.count := agree.symm.trans counted.symm
    have imagChecked : ArrayInfo.checkCount { name, shape } imag.columnMajor.length = .ok () :=
      ArrayInfo.checkCount_eq_ok.mpr ((length_columnMajor imag).trans imagCounted)
    have arrayFits : fitsGrid shape.dimensions = true := by
      rw [dimensions, fitsGrid_arrayDimensions, fits]
    let array : NumericArray numericClass :=
      { info := ArrayInfo.setComplex { name, shape } true, real := real.columnMajor,
        imag := some imag.columnMajor }
    obtain ⟨realGrid, realFound, realShape, realListed⟩ :=
      exists_gridOf array real arrayFits counted.symm
    obtain ⟨imagGrid, imagFound, imagShape, imagListed⟩ :=
      exists_gridOf array imag arrayFits imagCounted
    refine ⟨array, ?_, rfl, rfl, dimensions,
      fun position inside => lookup_columnMajor dimensions inside,
      ⟨realGrid, realFound, same_iff.mpr ⟨realShape.trans dimensions, ?_⟩⟩,
      ⟨rfl, fun position place found => getElem?_columnMajor found⟩,
      fun same position inside => lookup_columnMajor (dimensions.trans same) inside,
      imagGrid, ?_, imagListed, ?_⟩
    · rw [ofGrids, ofParts, Outcome.bind_of_ok created, Outcome.bind_of_ok realChecked,
        Outcome.bind_of_ok imagChecked]
      rfl
    · rw [realListed, columnMajor_extended]
    · change (array.gridOf imag.columnMajor).map some = _
      rw [imagFound]
      rfl
    · rw [same_iff, imagListed, columnMajor_extended, imagShape.trans dimensions,
        and_iff_left rfl]
      exact Iff.rfl

/-- Parts of two rows and of two columns make a complex array with imaginary parts at places of
other positions, and parts of different numbers make none. -/
theorem ofGrids_of_counts_transposedShapes :
    ∃ (real imag back : Grid NumericClass.int8.Value) (array : NumericArray .int8),
      real = .ofRowMajor [2, 3] [1, 2, 3, 4, 5, 6] ∧ imag = .ofRowMajor [3, 2] [1, 2, 3, 4, 5, 6] ∧
        ofGrids "c" real imag = .ok array ∧ array.info.shape.dimensions = [2, 3] ∧
        array.imagAt? [0, 1] = some 5 ∧ imag.value [0, 1] = 2 ∧
        array.imagGrid = .ok (some back) ∧ ¬ back.Same imag.extended ∧
        ofGrids "c" real (.ofRowMajor [2] [1, 2]) = .error (.dimensionMismatch "c" 6 2) := by
  obtain ⟨_, accepted⟩ := ofGrids_of_counts "c" (.ofRowMajor [2, 3] [1, 2, 3, 4, 5, 6])
    (.ofRowMajor [3, 2] [1, 2, 3, 4, 5, 6] : Grid NumericClass.int8.Value) (by decide)
  obtain ⟨refused, _⟩ := ofGrids_of_counts "c" (.ofRowMajor [2, 3] [1, 2, 3, 4, 5, 6])
    (.ofRowMajor [2] [1, 2] : Grid NumericClass.int8.Value) (by decide)
  obtain ⟨array, made, holds⟩ := accepted rfl
  obtain ⟨back, found, _, same⟩ := holds.imagBack
  have elsewhere : array.imagAt? [0, 1] = some 5 := by
    rw [imagAt?, holds.imagOrder.1, Shape.linearIndex?, holds.dimensions]
    decide
  exact ⟨_, _, back, array, rfl, rfl, made, holds.dimensions, elsewhere, by decide, found,
    fun agrees => absurd (same.mp agrees) (by decide), refused (by decide)⟩

end NumericArray

end MatFormat
