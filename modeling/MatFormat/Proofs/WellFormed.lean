/-
This file says when an array is in order. Its parts are as long as its shape asks for, the
flag of complex arrays tells whether there are imaginary parts, no slot holds the array that
an unset slot is written as, and no name has a NUL in it. Each of these is a property of one
array; that it holds at every depth is said with `MatArray.Everywhere`.
-/

import MatFormat.Matrix.Writer
import MatFormat.Proofs.ArrayTree
import MatFormat.Proofs.Run
import Mathlib.Data.List.Chain

namespace MatFormat

/-! ### Parts as long as the shape asks for -/

/-- Each part of a numeric array has one value for every element. -/
structure NumericArray.Shaped {numericClass : NumericClass} (array : NumericArray numericClass) :
    Prop where
  real : array.real.length = array.info.shape.count
  imag : ∀ values ∈ array.imag, values.length = array.info.shape.count

/-- The column pointers of a sparse matrix lead from zero to the number of its entries
without a descent, one more than there are columns, and every entry has a row inside the
matrix, a real part and, in a complex matrix, an imaginary part. -/
structure SparseArray.Shaped (array : SparseArray) : Prop where
  pointers : array.columnPointers.length = array.info.shape.columns + 1
  start : array.columnPointers.headD 0 = 0
  ascending : array.columnPointers.Pairwise (· ≤ ·)
  stop : array.columnPointers.getLastD 0 = array.rowIndices.length
  rows : ∀ row ∈ array.rowIndices, row < array.info.shape.rows
  real : array.real.length = array.rowIndices.length
  imag : ∀ values ∈ array.imag, values.length = array.rowIndices.length

/-- Column pointers without a descent are those in ascending order. -/
theorem SparseArray.firstDescent?_eq_none_iff (numbers : List Nat) :
    firstDescent? numbers = none ↔ numbers.Pairwise (· ≤ ·) := by
  rw [← List.isChain_iff_pairwise]
  induction numbers with
  | nil => exact ⟨fun _ => .nil, fun _ => rfl⟩
  | cons first rest inductionHypothesis =>
    cases rest with
    | nil => exact ⟨fun _ => .singleton first, fun _ => rfl⟩
    | cons second rest =>
      rw [firstDescent?, List.isChain_cons_cons, ← inductionHypothesis]
      by_cases descent : second < first
      · rw [if_pos descent]
        exact ⟨fun found => absurd found (Option.some_ne_none 0),
          fun ordered => absurd ordered.1 (by omega)⟩
      · rw [if_neg descent, Option.map_eq_none_iff]
        exact ⟨fun rest => ⟨by omega, rest⟩, fun ordered => ordered.2⟩

/-- Column pointers that fit together start at zero and do not descend. -/
theorem SparseArray.Shaped.noDescent {array : SparseArray} (shaped : array.Shaped) :
    ¬ (array.columnPointers.headD 0 ≠ 0 ∨ (firstDescent? array.columnPointers).isSome) := by
  rw [shaped.start, (firstDescent?_eq_none_iff _).mpr shaped.ascending]
  simp

namespace MatArray

/-- The parts of an array are as long as its shape asks for. -/
def Shaped : MatArray → Prop
  | numeric _ array => array.Shaped
  | char array => array.units.length = array.info.shape.count
  | cell array => array.cells.length = array.info.shape.count
  | struct array => ∀ field ∈ array.fields, field.slots.length = array.info.shape.count
  | sparse array => array.Shaped

/-! ### Flags -/

/-- Whether an array has imaginary parts. -/
def isComplex : MatArray → Bool
  | numeric _ array => array.isComplex
  | sparse array => array.isComplex
  | _ => false

/-- Whether an array holds numbers, which may be complex. -/
def holdsNumbers : MatArray → Bool
  | numeric _ _ | sparse _ => true
  | _ => false

theorem writtenFlags_eq (array : MatArray) :
    array.writtenFlags = { array.info.flags with complex := array.isComplex } := by
  cases array <;> rfl

theorem writtenFlags_eq_self {array : MatArray}
    (complex : array.info.flags.complex = array.isComplex) :
    array.writtenFlags = array.info.flags := by
  rw [writtenFlags_eq, ← complex]

/-! ### Names -/

/-- The names that an array carries itself: its own, that of its class, and those of its
fields. -/
def ownNames : MatArray → List String
  | struct array => array.info.name :: array.className.toList ++ array.fieldNames
  | array => [array.name]

/-- The class name of an object. -/
def className? : MatArray → Option String
  | struct array => array.className
  | _ => none

/-- The names of the fields of a struct array. -/
def fieldNames : MatArray → List String
  | struct array => array.fieldNames
  | _ => []

theorem mem_ownNames {array : MatArray} {name : String} :
    name ∈ array.ownNames ↔
      name = array.name ∨ name ∈ array.className? ∨ name ∈ array.fieldNames := by
  cases array <;> simp [ownNames, className?, fieldNames, MatArray.name, info]

/-! ### Arrays in order -/

/-- What the reader makes sure of in every array that it gives. -/
structure Sound (array : MatArray) : Prop where
  shaped : array.Shaped
  complex : array.holdsNumbers = true → array.info.flags.complex = array.isComplex
  slots : ∀ child ∈ array.children, child.isPlaceholder = false
  names : ∀ name ∈ array.ownNames, NulFree name

/-- An array that comes back unchanged when it is written and read: it is sound, and not
marked as complex where there are no numbers. -/
structure WellFormed (array : MatArray) : Prop extends array.Sound where
  plain : array.holdsNumbers = false → array.info.flags.complex = false

theorem WellFormed.complex_eq {array : MatArray} (wellFormed : array.WellFormed) :
    array.info.flags.complex = array.isComplex := by
  by_cases numbers : array.holdsNumbers = true
  · exact wellFormed.complex numbers
  · rw [wellFormed.plain (Bool.not_eq_true _ ▸ numbers)]
    cases array with
    | numeric => exact absurd rfl numbers
    | sparse => exact absurd rfl numbers
    | char => rfl
    | cell => rfl
    | struct => rfl

end MatArray

end MatFormat
