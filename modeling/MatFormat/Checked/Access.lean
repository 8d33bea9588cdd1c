/-
This file finds elements of arrays with machine numbers. The place of a position is summed up
one coordinate after the other, each times the stride of its dimension. A sparse matrix is walked
over with the number of entries that were taken and the column of the last one, and each column
pointer, row and value is an item of its run.
-/

import MatFormat.Array.Sparse
import MatFormat.Checked.Arithmetic

namespace MatFormat

namespace Checked

/-! ### Places -/

/-- The place of the element in a row and a column. -/
def index (shape : Shape) (row column : Nat) : Computation (Option Nat) := do
  let rows ← item shape.dimensions 0
  if row < rows ∧ column < shape.columns then do
    let start ← product column rows
    let place ← sum row start
    pure (some place)
  else pure none

/-- Go on from a place and a stride over coordinates, each with its dimension. -/
def placeFrom : (place stride : Nat) → (axes : List (Nat × Nat)) → Computation (Option Nat)
  | place, _, [] => pure (some place)
  | place, stride, (coordinate, dimension) :: axes =>
    if dimension ≤ coordinate then pure none
    else do
      let step ← product coordinate stride
      let place ← sum place step
      let stride ← product stride dimension
      placeFrom place stride axes

/-- The place of the element at a position with one coordinate to a dimension. -/
def linearIndex (shape : Shape) (position : List Nat) : Computation (Option Nat) :=
  if position.length ≠ shape.dimensions.length then pure none
  else placeFrom 0 1 (position.zip shape.dimensions)

/-! ### Sparse matrices -/

/-- The place of the first entry in a row and a column. -/
def entryPlace (array : SparseArray) (row column : Nat) : Computation (Option Nat) := do
  let start ← item array.columnPointers column
  let stop ← item array.columnPointers (column + 1)
  let within ← slice array.rowIndices start stop
  pure ((within.findIdx? fun index => index == row).map (start + ·))

/-- The value of the first entry in a row and a column, zero where nothing is stored. -/
def entryValue (array : SparseArray) (values : List Double) (row column : Nat) :
    Computation Double := do
  match ← entryPlace array row column with
  | none => pure 0
  | some place => item values place

/-- The real part in a row and a column. -/
def entryReal (array : SparseArray) (row column : Nat) : Computation (Option Double) := do
  match ← index array.info.shape row column with
  | none => pure none
  | some _ => do
    let value ← entryValue array array.real row column
    pure (some value)

/-- The imaginary part in a row and a column. -/
def entryImag (array : SparseArray) (row column : Nat) : Computation (Option Double) := do
  match ← index array.info.shape row column with
  | none => pure none
  | some _ =>
    match array.imag with
    | none => pure none
    | some imag => do
      let value ← entryValue array imag row column
      pure (some value)

/-- Move on from a column to the first that ends after the entries taken so far. -/
def columnFrom (pointers : List Nat) (taken column : Nat) : Computation Nat :=
  if inside : column + 1 < pointers.length then
    if taken < pointers[column + 1] then pure column
    else columnFrom pointers taken (column + 1)
  else stuck .outside
termination_by pointers.length - column

/-- A walk over the entries of a sparse matrix: how many were taken, and the column of the
last one. -/
structure EntryWalk where
  array : SparseArray
  taken : Nat
  column : Nat
deriving DecidableEq, Repr

namespace EntryWalk

/-- The start of the walk. -/
def start (array : SparseArray) : EntryWalk := ⟨array, 0, 0⟩

/-- The number of entries that are left. -/
def left (walk : EntryWalk) : Computation Nat := difference walk.array.stored walk.taken

/-- The entry that comes next, if one is left, and the walk behind it. -/
def next (walk : EntryWalk) : Computation (Option Entry × EntryWalk) :=
  if walk.array.stored ≤ walk.taken then pure (none, walk)
  else do
    let column ← columnFrom walk.array.columnPointers walk.taken walk.column
    let row ← item walk.array.rowIndices walk.taken
    let real ← item walk.array.real walk.taken
    let imag ← walk.array.imag.mapM fun imag => item imag walk.taken
    pure (some ⟨row, column, real, imag⟩, { walk with taken := walk.taken + 1, column })

/-- What a number of requests for the next entry are answered with, and before each of them the
number of entries that are said to be left. -/
def answers : (requests : Nat) → (walk : EntryWalk) → Computation (List (Nat × Option Entry))
  | 0, _ => pure []
  | requests + 1, walk => do
    let left ← walk.left
    let (answer, walk) ← walk.next
    let rest ← answers requests walk
    pure ((left, answer) :: rest)

end EntryWalk

end Checked

end MatFormat
