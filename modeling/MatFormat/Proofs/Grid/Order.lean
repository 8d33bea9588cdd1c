/-
This file relates the orders in which the values of a grid are listed and laid down. Turning round
the axes turns the row-major order into the column-major one: the position at a place in row-major
order of the reversed shape, read backwards, is the one whose coordinates division and remainder
give first axis first. So the column-major list of a grid has the value of a position at its
column-major place, and laying a list down in column-major order is undone by listing it.
-/

import MatFormat.Grid
import MatFormat.Proofs.Shape

namespace MatFormat

/-! ### Products -/

theorem product_append (first second : List Nat) :
    product (first ++ second) = product first * product second := by
  induction first with
  | nil => exact (Nat.one_mul _).symm
  | cons length rest inductionHypothesis =>
    rw [List.cons_append, product, inductionHypothesis, product, Nat.mul_assoc]

theorem product_concat (numbers : List Nat) (last : Nat) :
    product (numbers ++ [last]) = product numbers * last := by
  rw [product_append, product, product, Nat.mul_one]

theorem product_reverse (numbers : List Nat) : product numbers.reverse = product numbers := by
  induction numbers with
  | nil => rfl
  | cons first rest inductionHypothesis =>
    rw [List.reverse_cons, product_concat, inductionHypothesis, product, Nat.mul_comm]

/-! ### Positions and places -/

/-- In row-major order the last coordinate of a position is a remainder, and the others are those
of the quotient. -/
theorem positionOf_concat {shape : List Nat} {length place : Nat}
    (below : place < product (shape ++ [length])) :
    positionOf (shape ++ [length]) place =
      positionOf shape (place / length) ++ [place % length] := by
  induction shape generalizing place with
  | nil =>
    have inside : place < length := by rwa [List.nil_append, product, product, Nat.mul_one] at below
    rw [List.nil_append, positionOf, positionOf, positionOf, product, Nat.div_one,
      Nat.mod_eq_of_lt inside, List.nil_append]
  | cons first rest inductionHypothesis =>
    rw [List.cons_append, product] at below
    have positive : 0 < product (rest ++ [length]) :=
      Nat.pos_of_mul_pos_left (Nat.zero_lt_of_lt below)
    rw [List.cons_append, positionOf, positionOf, List.cons_append,
      inductionHypothesis (Nat.mod_lt place positive), product_concat, Nat.mod_mul_left_div_self,
      Nat.mod_mod_of_dvd _ (Nat.dvd_mul_left length _), Nat.mul_comm, Nat.div_div_eq_div_mul]

/-- Read backwards, a position in row-major order of the reversed shape is the one that has the
place in column-major order. -/
theorem reverse_positionOf_reverse {shape : List Nat} {place : Nat}
    (below : place < product shape) :
    (positionOf shape.reverse place).reverse = Shape.positionAt shape place := by
  induction shape generalizing place with
  | nil => rfl
  | cons length rest inductionHypothesis =>
    have whole : place < product (rest.reverse ++ [length]) := by
      rwa [product_concat, product_reverse, Nat.mul_comm]
    rw [List.reverse_cons, positionOf_concat whole, List.reverse_concat, Shape.positionAt,
      inductionHypothesis (Nat.div_lt_of_lt_mul below)]

theorem rowMajorPlace_concat {shape position : List Nat} (sameRank : position.length = shape.length)
    (length coordinate : Nat) :
    rowMajorPlace (shape ++ [length]) (position ++ [coordinate]) =
      rowMajorPlace shape position * length + coordinate := by
  induction shape generalizing position with
  | nil =>
    obtain rfl : position = [] := List.length_eq_zero_iff.mp sameRank
    simp [rowMajorPlace, product]
  | cons first rest inductionHypothesis =>
    obtain ⟨here, position, rfl⟩ := List.exists_cons_of_length_eq_add_one sameRank
    rw [List.cons_append, List.cons_append, rowMajorPlace, rowMajorPlace,
      inductionHypothesis (Nat.succ.inj sameRank), product_concat, Nat.add_mul, Nat.mul_assoc,
      Nat.add_assoc]

/-- The place of a position read backwards in row-major order of the reversed shape is its place
in column-major order. -/
theorem rowMajorPlace_reverse {shape position : List Nat} {place : Nat}
    (found : Shape.placeOf? shape position = some place) :
    rowMajorPlace shape.reverse position.reverse = place := by
  induction shape generalizing position place with
  | nil =>
    cases position with
    | nil => exact Option.some.inj found
    | cons coordinate position => cases found
  | cons length rest inductionHypothesis =>
    cases position with
    | nil => cases found
    | cons coordinate position =>
      unfold Shape.placeOf? at found
      split at found
      · obtain ⟨later, laterFound, rfl⟩ := Option.map_eq_some_iff.mp found
        have sameRank : position.length = rest.length :=
          (Shape.exists_placeOf?_iff.mp ⟨later, laterFound⟩).length_eq
        rw [List.reverse_cons, List.reverse_cons,
          rowMajorPlace_concat (by rw [List.length_reverse, List.length_reverse, sameRank]),
          inductionHypothesis laterFound, Nat.mul_comm, Nat.add_comm]
      · cases found

namespace Grid

variable {Item : Type}

/-! ### Listing -/

/-- The column-major list of a grid goes through the positions at all places. -/
theorem columnMajor_eq (grid : Grid Item) :
    grid.columnMajor = (List.range (product grid.shape)).map fun place =>
      grid.value (Shape.positionAt grid.shape place) := by
  rw [columnMajor, rowMajor, transpose, positions, product_reverse, List.map_map]
  refine List.map_congr_left fun place member => ?_
  dsimp only [Function.comp_apply]
  rw [reverse_positionOf_reverse (List.mem_range.mp member)]

theorem length_columnMajor (grid : Grid Item) :
    grid.columnMajor.length = product grid.shape := by
  rw [columnMajor_eq, List.length_map, List.length_range]

/-- The value of a position stands at its column-major place. -/
theorem getElem?_columnMajor {grid : Grid Item} {position : List Nat} {place : Nat}
    (found : Shape.placeOf? grid.shape position = some place) :
    grid.columnMajor[place]? = some (grid.value position) := by
  have below := Shape.lt_product_of_placeOf? found
  rw [columnMajor_eq, List.getElem?_map, List.getElem?_range below, Option.map_some,
    ← (Shape.placeOf?_eq_some_iff below).mp found]

/-! ### Grids that agree -/

/-- Two grids of one shape agree at every position inside it. -/
structure Same (first second : Grid Item) : Prop where
  shape : first.shape = second.shape
  value : ∀ position, Shape.Inside first.shape position →
    first.value position = second.value position

/-- Grids of one shape agree if they list the same values. -/
theorem same_iff {first second : Grid Item} :
    first.Same second ↔
      first.shape = second.shape ∧ first.columnMajor = second.columnMajor := by
  constructor
  · intro same
    refine ⟨same.shape, ?_⟩
    rw [columnMajor_eq, columnMajor_eq, ← same.shape]
    refine List.map_congr_left fun place member => same.value _ ?_
    have below := List.mem_range.mp member
    exact Shape.exists_placeOf?_iff.mp ⟨place, (Shape.placeOf?_eq_some_iff below).mpr rfl⟩
  · rintro ⟨shape, listed⟩
    refine ⟨shape, fun position inside => ?_⟩
    obtain ⟨place, found⟩ := Shape.exists_placeOf?_iff.mpr inside
    have firstValue := getElem?_columnMajor found
    rw [shape] at found
    rw [listed, getElem?_columnMajor found] at firstValue
    exact (Option.some.inj firstValue).symm

/-! ### Laying down -/

section LayingDown

variable [Inhabited Item]

theorem shape_ofColumnMajor (shape : List Nat) (values : List Item) :
    (ofColumnMajor shape values).shape = shape := List.reverse_reverse shape

theorem value_ofColumnMajor {shape position : List Nat} {values : List Item} {place : Nat}
    (found : Shape.placeOf? shape position = some place) :
    (ofColumnMajor shape values).value position = values.getD place default := by
  rw [ofColumnMajor, transpose, ofRowMajor]
  dsimp only
  rw [rowMajorPlace_reverse found, List.getElem?_toArray, List.getD_eq_getElem?_getD]

/-- Listing undoes laying down. -/
theorem columnMajor_ofColumnMajor {shape : List Nat} {values : List Item}
    (counted : values.length = product shape) :
    (ofColumnMajor shape values).columnMajor = values := by
  have shaped := shape_ofColumnMajor shape values
  refine List.ext_getElem ?_ fun place inside filled => ?_
  · rw [length_columnMajor, shaped, counted]
  · have found := (Shape.placeOf?_eq_some_iff (counted ▸ filled)).mpr rfl
    have listed : (ofColumnMajor shape values).columnMajor[place]? =
        some ((ofColumnMajor shape values).value (Shape.positionAt shape place)) :=
      getElem?_columnMajor (shaped.symm ▸ found)
    rw [value_ofColumnMajor found, List.getD_eq_getElem?_getD, List.getElem?_eq_getElem filled,
      Option.getD_some] at listed
    exact (List.getElem_eq_iff _).mpr listed

end LayingDown

end Grid

end MatFormat
