/-
This file says how the elements of an array are numbered. An array has a shape exactly if every
running product of its dimensions can be counted. Then the positions inside the shape and the
places below the number of elements belong to each other one to one, whether a position has one
coordinate to each dimension or is a row and a column with all later dimensions folded into it.
Distinct positions have distinct places, so a value that is written at one of them is read there
and leaves what is read everywhere else as it was.
-/

import MatFormat.Proofs.Checked.Access
import MatFormat.Proofs.Valid

namespace MatFormat

/-! ### Numberings -/

/-- Positions are numbered up to a count: those inside have a place, each place lies below the
count, and each place below the count is that of exactly one position. -/
structure Numbering {Position : Type} (place? : Position → Option Nat) (inside : Position → Prop)
    (count : Nat) : Prop where
  exists_iff : ∀ position, (∃ place, place? position = some place) ↔ inside position
  below : ∀ position place, place? position = some place → place < count
  unique : ∀ place < count, ∃! position, place? position = some place

namespace Numbering

variable {Position Value : Type} {place? : Position → Option Nat} {inside : Position → Prop}
  {count : Nat}

/-- Writing at the place of a position changes what is read there and nothing else. -/
theorem read_set [DecidableEq Position] (numbering : Numbering place? inside count)
    {values : List Value} (filled : values.length = count) {position : Position} {place : Nat}
    (found : place? position = some place) (value : Value) :
    (fun other => (place? other).bind fun index => (values.set place value)[index]?) =
      Function.update (fun other => (place? other).bind fun index => values[index]?) position
        (some value) := by
  have below := numbering.below position place found
  funext other
  by_cases same : other = position
  · subst same
    rw [Function.update_self, found, Option.bind_some,
      List.getElem?_set_self (filled.symm ▸ below)]
  · rw [Function.update_of_ne same]
    refine Option.bind_congr fun index otherFound => List.getElem?_set_ne fun equal => ?_
    subst equal
    exact same ((numbering.unique place below).unique otherFound found)

end Numbering

namespace Shape

theorem numbering_placeOf? (dimensions : List Nat) :
    Numbering (placeOf? dimensions) (Inside dimensions) (product dimensions) where
  exists_iff _ := exists_placeOf?_iff
  below _ _ := lt_product_of_placeOf?
  unique place below := ⟨positionAt dimensions place, (placeOf?_eq_some_iff below).mpr rfl,
    fun _ found => (placeOf?_eq_some_iff below).mp found⟩

theorem numbering_index? (shape : Shape) :
    Numbering (Function.uncurry shape.index?)
      (fun position => position.1 < shape.rows ∧ position.2 < shape.columns) shape.count where
  exists_iff position := by
    constructor
    · rintro ⟨place, found⟩
      obtain ⟨inRows, inColumns, _⟩ := index?_eq_some_iff.mp found
      exact ⟨inRows, inColumns⟩
    · rintro ⟨inRows, inColumns⟩
      exact ⟨_, index?_eq_some_iff.mpr ⟨inRows, inColumns, rfl⟩⟩
  below _ _ := lt_count_of_index?
  unique place below := by
    rw [count_eq] at below
    have positive : 0 < shape.rows := Nat.pos_of_mul_pos_right (Nat.zero_lt_of_lt below)
    refine ⟨(place % shape.rows, place / shape.rows), index?_eq_some_iff.mpr
      ⟨Nat.mod_lt place positive, Nat.div_lt_of_lt_mul below, ?_⟩, ?_⟩
    · rw [Nat.mul_comm, Nat.mod_add_div]
    · rintro ⟨row, column⟩ found
      obtain ⟨inRows, _, rfl⟩ := index?_eq_some_iff.mp found
      rw [Nat.add_mul_mod_self_right, Nat.mod_eq_of_lt inRows, Nat.add_mul_div_right _ _ positive,
        Nat.div_eq_of_lt inRows, Nat.zero_add]

/-- How the elements of a shape are numbered: by positions with a coordinate to each dimension,
and by rows and columns, where the column is the place of the later coordinates in the later
dimensions. Machine numbers are enough for both. -/
structure Indexed (shape : Shape) : Prop where
  linear : Numbering shape.linearIndex? (Inside shape.dimensions) shape.count
  matrix : Numbering (Function.uncurry shape.index?)
    (fun position => position.1 < shape.rows ∧ position.2 < shape.columns) shape.count
  columns : Numbering (placeOf? shape.dimensions.tail) (Inside shape.dimensions.tail) shape.columns
  folded : ∀ (row : Nat) (position : List Nat), shape.linearIndex? (row :: position) =
    (placeOf? shape.dimensions.tail position).bind (shape.index? row)
  linearFits : ∀ position : List Nat,
    Checked.linearIndex shape position = .ok (shape.linearIndex? position)
  matrixFits : ∀ row column : Nat, Checked.index shape row column = .ok (shape.index? row column)

theorem indexed (shape : Shape) : shape.Indexed where
  linear := numbering_placeOf? shape.dimensions
  matrix := shape.numbering_index?
  columns := numbering_placeOf? shape.dimensions.tail
  folded := shape.linearIndex?_cons
  linearFits := Checked.linearIndex_eq shape
  matrixFits := Checked.index_eq shape

end Shape

/-! ### Values at positions -/

namespace NumericArray

variable {numericClass : NumericClass} {array : NumericArray numericClass}

/-- The real part at a position with one coordinate to a dimension. -/
def realAt? (array : NumericArray numericClass) (position : List Nat) :
    Option numericClass.Value :=
  (array.info.shape.linearIndex? position).bind fun place => array.real[place]?

/-- The imaginary part at a position with one coordinate to a dimension. -/
def imagAt? (array : NumericArray numericClass) (position : List Nat) :
    Option numericClass.Value :=
  (array.info.shape.linearIndex? position).bind fun place =>
    array.imag.bind fun imag => imag[place]?

/-- An array that differs from another in a real part at most. -/
structure WithReal (array after : NumericArray numericClass) : Prop where
  info : after.info = array.info
  imag : after.imag = array.imag

/-- An array that differs from another in an imaginary part at most. -/
structure WithImag (array after : NumericArray numericClass) : Prop where
  info : after.info = array.info
  real : after.real = array.real

/-- Writing at a position inside is possible and changes what is read there and nothing else. -/
structure Writable (array : NumericArray numericClass) : Prop where
  real : ∀ (row column : Nat) (value : numericClass.Value),
    row < array.info.shape.rows → column < array.info.shape.columns →
      ∃ after, array.set? row column value = some after ∧ array.WithReal after ∧
        Function.uncurry after.get? =
          Function.update (Function.uncurry array.get?) (row, column) (some value)
  imag : array.isComplex = true → ∀ (row column : Nat) (value : numericClass.Value),
    row < array.info.shape.rows → column < array.info.shape.columns →
      ∃ after, array.setImag? row column value = some after ∧ array.WithImag after ∧
        Function.uncurry after.getImag? =
          Function.update (Function.uncurry array.getImag?) (row, column) (some value)
  realAt : ∀ (position : List Nat) (value : numericClass.Value),
    Shape.Inside array.info.shape.dimensions position →
      ∃ place after, array.info.shape.linearIndex? position = some place ∧
        array.putReal? place value = some after ∧ array.WithReal after ∧
        after.realAt? = Function.update array.realAt? position (some value)
  imagAt : array.isComplex = true → ∀ (position : List Nat) (value : numericClass.Value),
    Shape.Inside array.info.shape.dimensions position →
      ∃ place after, array.info.shape.linearIndex? position = some place ∧
        array.putImag? place value = some after ∧ array.WithImag after ∧
        after.imagAt? = Function.update array.imagAt? position (some value)

section Put

variable (shaped : array.Shaped)
include shaped

theorem putReal?_of_lt {place : Nat} (below : place < array.info.shape.count)
    (value : numericClass.Value) :
    array.putReal? place value = some { array with real := array.real.set place value } :=
  if_pos (shaped.real ▸ below)

theorem putImag?_of_lt {imag : List numericClass.Value} (held : array.imag = some imag)
    {place : Nat} (below : place < array.info.shape.count) (value : numericClass.Value) :
    array.putImag? place value = some { array with imag := some (imag.set place value) } := by
  rw [putImag?, held]
  exact if_pos (shaped.imag imag held ▸ below)

/-- An array whose parts are as long as its shape asks for can be written to. -/
theorem Shaped.writable : array.Writable where
  real row column value inRows inColumns := by
    obtain ⟨place, found⟩ :=
      (array.info.shape.numbering_index?.exists_iff (row, column)).mpr ⟨inRows, inColumns⟩
    have placed : array.info.shape.index? row column = some place := found
    refine ⟨{ array with real := array.real.set place value }, ?_, ⟨rfl, rfl⟩,
      array.info.shape.numbering_index?.read_set shaped.real found value⟩
    rw [set?, placed]
    exact putReal?_of_lt shaped (Shape.lt_count_of_index? placed) value
  imag complex row column value inRows inColumns := by
    obtain ⟨place, found⟩ :=
      (array.info.shape.numbering_index?.exists_iff (row, column)).mpr ⟨inRows, inColumns⟩
    have placed : array.info.shape.index? row column = some place := found
    obtain ⟨imag, held⟩ := Option.isSome_iff_exists.mp complex
    refine ⟨{ array with imag := some (imag.set place value) }, ?_, ⟨rfl, rfl⟩, ?_⟩
    · rw [setImag?, placed]
      exact putImag?_of_lt shaped held (Shape.lt_count_of_index? placed) value
    · have before : array.getImag? = fun row column =>
          (array.info.shape.index? row column).bind fun index => imag[index]? := by
        funext row column
        rw [getImag?, held]
        rfl
      rw [before]
      exact array.info.shape.numbering_index?.read_set (shaped.imag imag held) found value
  realAt position value inside := by
    obtain ⟨place, found⟩ := (array.info.shape.indexed.linear.exists_iff position).mpr inside
    exact ⟨place, _, found,
      putReal?_of_lt shaped (Shape.lt_count_of_linearIndex? found) value, ⟨rfl, rfl⟩,
      array.info.shape.indexed.linear.read_set shaped.real found value⟩
  imagAt complex position value inside := by
    obtain ⟨place, found⟩ := (array.info.shape.indexed.linear.exists_iff position).mpr inside
    obtain ⟨imag, held⟩ := Option.isSome_iff_exists.mp complex
    refine ⟨place, _, found,
      putImag?_of_lt shaped held (Shape.lt_count_of_linearIndex? found) value, ⟨rfl, rfl⟩, ?_⟩
    have before : array.imagAt? = fun position =>
        (array.info.shape.linearIndex? position).bind fun index => imag[index]? := by
      funext position
      rw [imagAt?, held]
      rfl
    rw [before]
    exact array.info.shape.indexed.linear.read_set (shaped.imag imag held) found value

end Put

end NumericArray

/-! ### Shapes that can be counted -/

theorem ArrayInfo.exists_create_iff {name : String} {dimensions : List Nat} :
    (∃ info, ArrayInfo.create name dimensions = .ok info) ↔
      2 ≤ dimensions.length ∧ productsFit 1 dimensions = true ∧
        productsFit 1 dimensions.tail = true := by
  constructor
  · rintro ⟨info, created⟩
    obtain rfl := (ArrayInfo.of_create created).2.1
    exact ⟨info.shape.rank_ge_two, info.shape.counts_fit, info.shape.columns_fit⟩
  · rintro ⟨rank, counts, columns⟩
    refine ⟨⟨name, ⟨dimensions, rank, counts, columns⟩, {}⟩, ?_⟩
    rw [ArrayInfo.create]
    have built := Shape.ofDimensions_dimensions ⟨dimensions, rank, counts, columns⟩
    dsimp only at built
    rw [built]

/-- An array has the given dimensions if there are at least two of them and no running product of
all of them, or of those after the first, reaches the limit. Its positions are numbered one to one
without any number reaching the limit, and values are written at each of them alone. -/
theorem indexed_of_create (name : String) (dimensions : List Nat) :
    ((∃ info, ArrayInfo.create name dimensions = .ok info) ↔
        2 ≤ dimensions.length ∧ (∀ count, product (dimensions.take count) < countLimit) ∧
          ∀ count, product (dimensions.tail.take count) < countLimit) ∧
      ∀ info, ArrayInfo.create name dimensions = .ok info →
        info.name = name ∧ info.shape.dimensions = dimensions ∧ info.shape.Indexed ∧
          ∀ (numericClass : NumericClass) (array : NumericArray numericClass),
            array.info.shape = info.shape → array.Shaped → array.Writable := by
  constructor
  · rw [ArrayInfo.exists_create_iff, productsFit_iff, productsFit_iff]
    simp only [Nat.one_mul]
  · intro info created
    obtain ⟨named, dimensionsSame, _⟩ := ArrayInfo.of_create created
    exact ⟨named, dimensionsSame, info.shape.indexed,
      fun _ array _ shaped => NumericArray.Shaped.writable shaped⟩

/-- A shape of three dimensions with a value written at its last position, and dimensions of which
the later ones cannot be counted although the first is zero. -/
theorem indexed_of_create_threeDimensions :
    (¬ ∃ info, ArrayInfo.create "wide" [0, 2 ^ 64 - 1, 2] = .ok info) ∧
      ∃ (info : ArrayInfo) (array after : NumericArray .int8),
        ArrayInfo.create "t" [2, 3, 4] = .ok info ∧ info.shape.Indexed ∧
          array.info.shape = info.shape ∧ array.Shaped ∧
          info.shape.linearIndex? [1, 2, 3] = some 23 ∧ array.putReal? 23 5 = some after ∧
          after.realAt? = Function.update array.realAt? [1, 2, 3] (some 5) := by
  constructor
  · rw [(indexed_of_create "wide" [0, 2 ^ 64 - 1, 2]).1]
    exact fun fits => absurd (fits.2.2 2) (by decide)
  · obtain ⟨info, created⟩ : ∃ info, ArrayInfo.create "t" [2, 3, 4] = .ok info := ⟨_, rfl⟩
    obtain ⟨_, dimensions, indexed, writable⟩ := (indexed_of_create "t" [2, 3, 4]).2 info created
    have count : info.shape.count = 24 := congrArg product dimensions
    have shaped : (⟨info, List.replicate 24 0, none⟩ : NumericArray .int8).Shaped :=
      ⟨List.length_replicate.trans count.symm, nofun⟩
    have inside : Shape.Inside info.shape.dimensions [1, 2, 3] := by
      rw [dimensions, ← Shape.exists_placeOf?_iff]
      exact ⟨23, rfl⟩
    obtain ⟨place, after, found, put, _, updated⟩ :=
      (writable .int8 _ rfl shaped).realAt [1, 2, 3] 5 inside
    have last : info.shape.linearIndex? [1, 2, 3] = some 23 := by
      rw [Shape.linearIndex?, dimensions]
      rfl
    obtain rfl := Option.some.inj (last.symm.trans found)
    exact ⟨info, _, after, created, indexed, rfl, shaped, last, put, updated⟩

end MatFormat
