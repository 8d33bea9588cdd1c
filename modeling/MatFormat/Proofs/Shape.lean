/-
This file proves that the counts and places of a shape stay in bounds. No count reaches the
limit of a 64-bit number, and every place of a position inside the shape lies below the
number of elements. The position at a place is found again by division and remainder, so every
place below the number of elements is that of exactly one position.
-/

import MatFormat.Shape
import Mathlib.Data.List.Forall2

namespace MatFormat

theorem productsFit_cons {start first : Nat} {rest : List Nat} :
    productsFit start (first :: rest) = true ↔
      start < countLimit ∧ productsFit (start * first) rest = true := by
  rw [productsFit, Bool.and_eq_true, decide_eq_true_iff]

theorem lt_of_productsFit {start : Nat} {numbers : List Nat}
    (fit : productsFit start numbers = true) : start < countLimit := by
  cases numbers with
  | nil => exact of_decide_eq_true fit
  | cons first rest => exact (productsFit_cons.mp fit).1

/-- Running products stay below the limit if those of every first part of the list do. -/
theorem productsFit_iff {start : Nat} {numbers : List Nat} :
    productsFit start numbers = true ↔
      ∀ count, start * product (numbers.take count) < countLimit := by
  induction numbers generalizing start with
  | nil =>
    rw [productsFit, decide_eq_true_iff]
    simp [product]
  | cons first rest inductionHypothesis =>
    rw [productsFit_cons, inductionHypothesis]
    constructor
    · rintro ⟨here, later⟩ (_ | count)
      · rwa [List.take_zero, product, Nat.mul_one]
      · rw [List.take_succ_cons, product, ← Nat.mul_assoc]
        exact later count
    · intro fit
      refine ⟨?_, fun count => ?_⟩
      · have here := fit 0
        rwa [List.take_zero, product, Nat.mul_one] at here
      · have later := fit (count + 1)
        rwa [List.take_succ_cons, product, ← Nat.mul_assoc] at later

theorem product_lt_of_productsFit {start : Nat} {numbers : List Nat}
    (fit : productsFit start numbers = true) : start * product numbers < countLimit := by
  have whole := productsFit_iff.mp fit numbers.length
  rwa [List.take_length] at whole

/-- A place in one run of items, and the number of the run among runs of one length. -/
theorem add_mul_lt {place length run runs : Nat} (inside : place < length) (before : run < runs) :
    place + length * run < length * runs := by
  have filled : length * (run + 1) ≤ length * runs := Nat.mul_le_mul_left length before
  rw [Nat.mul_succ] at filled
  omega

namespace Shape

theorem count_lt (shape : Shape) : shape.count < countLimit := by
  have fit := product_lt_of_productsFit shape.counts_fit
  rwa [Nat.one_mul] at fit

theorem columns_lt (shape : Shape) : shape.columns < countLimit := by
  have fit := product_lt_of_productsFit shape.columns_fit
  rwa [Nat.one_mul] at fit

theorem index?_eq_some_iff {shape : Shape} {row column place : Nat} :
    shape.index? row column = some place ↔
      row < shape.rows ∧ column < shape.columns ∧ place = row + column * shape.rows := by
  unfold index?
  split
  · rename_i inside
    exact ⟨fun found => ⟨inside.1, inside.2, (Option.some.inj found).symm⟩,
      fun same => same.2.2 ▸ rfl⟩
  · rename_i outside
    exact ⟨nofun, fun inside => absurd ⟨inside.1, inside.2.1⟩ outside⟩

/-- The element in a row and a column is one of those that are counted. -/
theorem place_lt_count {shape : Shape} {row column : Nat} (inRows : row < shape.rows)
    (inColumns : column < shape.columns) : row + column * shape.rows < shape.count := by
  rw [count_eq, Nat.mul_comm column]
  exact add_mul_lt inRows inColumns

theorem lt_count_of_index? {shape : Shape} {row column place : Nat}
    (found : shape.index? row column = some place) : place < shape.count := by
  obtain ⟨inRows, inColumns, rfl⟩ := index?_eq_some_iff.mp found
  exact place_lt_count inRows inColumns

/-! ### Positions -/

/-- A position has one coordinate to each dimension, and each lies below its dimension. -/
def Inside (dimensions position : List Nat) : Prop := List.Forall₂ (· < ·) position dimensions

/-- The position at a place, where the first coordinate varies fastest. -/
def positionAt : (dimensions : List Nat) → (place : Nat) → List Nat
  | [], _ => []
  | dimension :: dimensions, place =>
    place % dimension :: positionAt dimensions (place / dimension)

theorem placeOf?_cons {dimension coordinate : Nat} {dimensions position : List Nat}
    (inside : coordinate < dimension) :
    placeOf? (dimension :: dimensions) (coordinate :: position) =
      (placeOf? dimensions position).map fun place => coordinate + dimension * place :=
  if_pos inside

/-- The positions inside are those that have a place. -/
theorem exists_placeOf?_iff {dimensions position : List Nat} :
    (∃ place, placeOf? dimensions position = some place) ↔ Inside dimensions position := by
  induction dimensions generalizing position with
  | nil =>
    cases position with
    | nil => exact ⟨fun _ => .nil, fun _ => ⟨0, rfl⟩⟩
    | cons coordinate position => exact ⟨nofun, nofun⟩
  | cons dimension dimensions inductionHypothesis =>
    cases position with
    | nil => exact ⟨nofun, nofun⟩
    | cons coordinate position =>
      by_cases inside : coordinate < dimension
      · rw [placeOf?_cons inside, Inside, List.forall₂_cons, ← Inside, ← inductionHypothesis]
        simp [inside]
      · rw [placeOf?, if_neg inside, Inside, List.forall₂_cons]
        exact ⟨nofun, fun held => absurd held.1 inside⟩

/-- The position that has a place is the one that division and remainder give. A place below the
product tells that no dimension is zero. -/
theorem placeOf?_eq_some_iff {dimensions position : List Nat} {place : Nat}
    (below : place < product dimensions) :
    placeOf? dimensions position = some place ↔ position = positionAt dimensions place := by
  induction dimensions generalizing position place with
  | nil =>
    obtain rfl : place = 0 := Nat.lt_one_iff.mp below
    cases position with
    | nil => exact ⟨fun _ => rfl, fun _ => rfl⟩
    | cons coordinate position => exact ⟨nofun, nofun⟩
  | cons dimension dimensions inductionHypothesis =>
    have positive : 0 < dimension := Nat.pos_of_mul_pos_right (Nat.zero_lt_of_lt below)
    have later : place / dimension < product dimensions := Nat.div_lt_of_lt_mul below
    cases position with
    | nil => exact ⟨nofun, nofun⟩
    | cons coordinate position =>
      rw [positionAt, List.cons.injEq]
      constructor
      · intro found
        unfold placeOf? at found
        split at found
        · rename_i inside
          obtain ⟨rest, restFound, rfl⟩ := Option.map_eq_some_iff.mp found
          have quotient : (coordinate + dimension * rest) / dimension = rest := by
            rw [Nat.add_mul_div_left _ _ positive, Nat.div_eq_of_lt inside, Nat.zero_add]
          rw [quotient] at later ⊢
          rw [Nat.add_mul_mod_self_left, Nat.mod_eq_of_lt inside]
          exact ⟨rfl, (inductionHypothesis later).mp restFound⟩
        · cases found
      · rintro ⟨rfl, here⟩
        rw [placeOf?_cons (Nat.mod_lt place positive), (inductionHypothesis later).mpr here,
          Option.map_some, Nat.mod_add_div]

theorem lt_product_of_placeOf? {dimensions position : List Nat} {place : Nat}
    (found : placeOf? dimensions position = some place) : place < product dimensions := by
  induction dimensions generalizing position place with
  | nil =>
    cases position with
    | nil =>
      cases found
      exact Nat.one_pos
    | cons coordinate position => cases found
  | cons dimension dimensions inductionHypothesis =>
    cases position with
    | nil => cases found
    | cons coordinate position =>
      unfold placeOf? at found
      split at found
      · rename_i inside
        obtain ⟨later, laterFound, rfl⟩ := Option.map_eq_some_iff.mp found
        exact add_mul_lt inside (inductionHypothesis laterFound)
      · cases found

theorem lt_count_of_linearIndex? {shape : Shape} {position : List Nat} {place : Nat}
    (found : shape.linearIndex? position = some place) : place < shape.count :=
  lt_product_of_placeOf? found

/-! ### Rows and columns -/

theorem dimensions_eq_cons (shape : Shape) :
    shape.dimensions = shape.rows :: shape.dimensions.tail := by
  have rank := shape.rank_ge_two
  rw [rows]
  match shape.dimensions, rank with
  | first :: rest, _ => rfl

/-- The place of a position is that of its row in the column that its other coordinates lead to. -/
theorem linearIndex?_cons (shape : Shape) (row : Nat) (position : List Nat) :
    shape.linearIndex? (row :: position) =
      (placeOf? shape.dimensions.tail position).bind (shape.index? row) := by
  rw [linearIndex?, dimensions_eq_cons]
  by_cases inRows : row < shape.rows
  · rw [placeOf?_cons inRows, List.tail_cons]
    cases found : placeOf? shape.dimensions.tail position with
    | none => rfl
    | some column =>
      have inColumns : column < shape.columns := lt_product_of_placeOf? found
      rw [Option.map_some, Option.bind_some,
        index?_eq_some_iff.mpr ⟨inRows, inColumns, rfl⟩, Nat.mul_comm]
  · have missing (column : Nat) : shape.index? row column = none :=
      if_neg fun inside => inRows inside.1
    rw [placeOf?, if_neg inRows, Option.bind_eq_none_iff.mpr fun column _ => missing column]

theorem rows_of_pair {shape : Shape} {rows columns : Nat}
    (pair : shape.dimensions = [rows, columns]) : shape.rows = rows := by
  rw [Shape.rows, pair]
  rfl

theorem columns_of_pair {shape : Shape} {rows columns : Nat}
    (pair : shape.dimensions = [rows, columns]) : shape.columns = columns := by
  rw [Shape.columns, pair]
  exact Nat.mul_one columns

end Shape

end MatFormat
