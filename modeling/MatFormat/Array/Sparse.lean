/-
This file describes sparse matrices of doubles, stored column by column. The entries of
column `c` lie from the `c`-th column pointer up to the next one, each with its row, its
real part and, for a complex matrix, its imaginary part. Dimensions after the second are
folded into the columns.
-/

import MatFormat.Array.Info
import MatFormat.Checked.Computation

namespace MatFormat

/-- A double as its bit pattern. -/
abbrev Double : Type := NumericClass.double.Value

/-- A sparse matrix. The capacity is the declared room for entries, which may be less than
the entries there are. -/
structure SparseArray where
  info : ArrayInfo
  capacity : Nat
  columnPointers : List Nat
  rowIndices : List Nat
  real : List Double
  imag : Option (List Double) := none
deriving DecidableEq, Repr

/-- A stored entry. -/
structure Entry where
  row : Nat
  column : Nat
  real : Double
  imag : Option Double := none
deriving DecidableEq, Repr

namespace SparseArray

/-! ### Construction -/

/-- Accept a number of columns that can be counted together with one more pointer. -/
def checkColumns (name : String) (columns : Nat) : Except Error Unit :=
  if columns + 1 < countLimit then .ok () else .error (.invalidArray name (.columnCount columns))

/-- The bytes of a column pointer in memory. -/
def pointerSize : Nat := 8

/-- Make room for the column pointers of a number of columns. -/
def reservePointers (name : String) (columns : Nat) : Checked.Computation Unit := do
  Checked.lift (checkColumns name columns)
  Checked.reserve (columns + 1) pointerSize

/-- A matrix without entries. -/
def empty (name : String) (rows columns : Nat) : Checked.Computation SparseArray := do
  let info ← Checked.lift (ArrayInfo.create name [rows, columns])
  reservePointers name columns
  pure { info, capacity := 0, columnPointers := List.replicate (columns + 1) 0, rowIndices := [],
         real := [] }

/-- The place of the first number of a list that is above its successor. -/
def firstDescent? : List Nat → Option Nat
  | first :: second :: rest =>
    if second < first then some 0 else (firstDescent? (second :: rest)).map (· + 1)
  | _ => none

/-- Accept column pointers and row indices that fit together and the shape. -/
def checkStructure (info : ArrayInfo) (columnPointers rowIndices : List Nat) :
    Except Error Unit := do
  let columns := info.shape.columns
  if columnPointers.length ≠ columns + 1 then
    throw (.dimensionMismatch info.name (min (columns + 1) (countLimit - 1)) columnPointers.length)
  if columnPointers.headD 0 ≠ 0 then throw (.invalidArray info.name .firstColumnPointer)
  match firstDescent? columnPointers with
  | some column => throw (.invalidArray info.name (.decreasingColumnPointers column))
  | none => pure ()
  let stored := columnPointers.getLastD 0
  if stored ≠ rowIndices.length then
    throw (.dimensionMismatch info.name stored rowIndices.length)
  match rowIndices.find? fun row => decide (info.shape.rows ≤ row) with
  | some row => throw (.invalidArray info.name (.rowIndex row info.shape.rows))
  | none => pure ()

/-- A matrix from its parts, which must fit together. -/
def ofColumns (name : String) (rows columns : Nat) (columnPointers rowIndices : List Nat)
    (real : List Double) (imag : Option (List Double)) : Except Error SparseArray := do
  let info ← ArrayInfo.create name [rows, columns]
  checkStructure info columnPointers rowIndices
  let stored := rowIndices.length
  if real.length ≠ stored then throw (.dimensionMismatch name stored real.length)
  match imag with
  | none => pure { info, capacity := stored, columnPointers, rowIndices, real }
  | some values =>
    if values.length ≠ stored then throw (.dimensionMismatch name stored values.length)
    pure { info := info.setComplex true, capacity := stored, columnPointers, rowIndices, real,
           imag }

/-- Whether the first entry lies before the second, column by column. -/
def precedes (first second : Entry) : Bool :=
  decide (first.column < second.column)
    || (first.column == second.column && decide (first.row < second.row))

/-- Put an entry into a list in column-major order, in the place of one at its position. -/
def insertEntry (entry : Entry) : List Entry → List Entry
  | [] => [entry]
  | other :: rest =>
    if precedes entry other then entry :: other :: rest
    else if precedes other entry then other :: insertEntry entry rest
    else entry :: rest

/-- The entries in column-major order, the last one for each position. -/
def sortEntries (entries : List Entry) : List Entry :=
  entries.foldl (fun sorted entry => insertEntry entry sorted) []

/-- The number of entries in each column, in the place behind that of the column. -/
def countColumns (columns : Nat) (entries : List Entry) : List Nat :=
  entries.foldl (fun counts entry => counts.modify (entry.column + 1) (· + 1))
    (List.replicate (columns + 1) 0)

/-- Add to each number all those before it, and a total from before them. -/
def runningSums : (total : Nat) → List Nat → List Nat
  | _, [] => []
  | total, number :: numbers => (total + number) :: runningSums (total + number) numbers

/-- A matrix from entries in any order; of several at one position the last one counts. -/
def ofEntries (name : String) (rows columns : Nat) (complex : Bool) (entries : List Entry) :
    Checked.Computation SparseArray := do
  match entries.find? fun entry => decide (rows ≤ entry.row) || decide (columns ≤ entry.column) with
  | some entry =>
    Checked.fail (.invalidArray name (.entry entry.row entry.column rows columns))
  | none => pure ()
  reservePointers name columns
  let sorted := sortEntries entries
  Checked.lift (ofColumns name rows columns (runningSums 0 (countColumns columns sorted))
    (sorted.map Entry.row) (sorted.map Entry.real)
    (if complex then some (sorted.map fun entry => entry.imag.getD 0) else none))

/-! ### Access -/

/-- The number of stored entries. -/
def stored (array : SparseArray) : Nat := array.rowIndices.length

/-- The room for entries: what is declared, but never less than what is stored. -/
def room (array : SparseArray) : Nat := max array.capacity array.stored

/-- Whether the matrix has imaginary parts. -/
def isComplex (array : SparseArray) : Bool := array.imag.isSome

/-- The place of the first entry in a row and a column. -/
def place? (array : SparseArray) (row column : Nat) : Option Nat := do
  let start ← array.columnPointers[column]?
  let stop ← array.columnPointers[column + 1]?
  let within := (array.rowIndices.drop start).take (stop - start)
  (within.findIdx? fun index => index == row).map (start + ·)

/-- The real part in a row and a column, zero where nothing is stored. -/
def get? (array : SparseArray) (row column : Nat) : Option Double := do
  let _ ← array.info.shape.index? row column
  match array.place? row column with
  | some place => array.real[place]?
  | none => some 0

/-- The imaginary part in a row and a column, zero where nothing is stored. -/
def getImag? (array : SparseArray) (row column : Nat) : Option Double := do
  let _ ← array.info.shape.index? row column
  let imag ← array.imag
  match array.place? row column with
  | some place => imag[place]?
  | none => some 0

/-- Replace the real part of a stored entry. -/
def putReal? (array : SparseArray) (place : Nat) (value : Double) : Option SparseArray :=
  if place < array.real.length then some { array with real := array.real.set place value }
  else none

/-- Replace the imaginary part of a stored entry. -/
def putImag? (array : SparseArray) (place : Nat) (value : Double) : Option SparseArray := do
  let imag ← array.imag
  if place < imag.length then some { array with imag := some (imag.set place value) } else none

/-! ### Walking over the entries -/

/-- A place in a walk over the stored entries: the column, the ends of this column and of
those after it, and what is left of the rows, the real parts and the imaginary parts. -/
structure Walk where
  taken : Nat
  column : Nat
  ends : List Nat
  rows : List Nat
  real : List Double
  imag : Option (List Double)
deriving DecidableEq, Repr

/-- The start of the walk. -/
def walk (array : SparseArray) : Walk where
  taken := 0
  column := 0
  ends := array.columnPointers.tail
  rows := array.rowIndices
  real := array.real
  imag := array.imag

/-- The number of entries that are left. -/
def Walk.left (walk : Walk) : Nat := walk.rows.length

/-- Move on to the first column that ends after the entries taken so far. -/
def skipColumns (taken column : Nat) : (ends : List Nat) → Option (Nat × List Nat)
  | [] => none
  | stop :: ends =>
    if taken < stop then some (column, stop :: ends) else skipColumns taken (column + 1) ends

/-- Take the next entry. -/
def Walk.next? (walk : Walk) : Option (Entry × Walk) :=
  match walk.rows, walk.real with
  | row :: rows, real :: reals => do
    let (column, ends) ← skipColumns walk.taken walk.column walk.ends
    pure (⟨row, column, real, walk.imag.bind List.head?⟩,
      ⟨walk.taken + 1, column, ends, rows, reals, walk.imag.map List.tail⟩)
  | _, _ => none

/-- The entries that a walk still takes, each with the number left before it was taken. -/
def Walk.entries : (turns : Nat) → Walk → List (Entry × Nat)
  | 0, _ => []
  | turns + 1, walk =>
    match walk.next? with
    | some (entry, next) => (entry, walk.left) :: next.entries turns
    | none => []

/-- The stored entries in order. -/
def entries (array : SparseArray) : List (Entry × Nat) :=
  array.walk.entries array.stored

/-! ### Comparison and text -/

/-- Two matrices are the same when they agree in everything but in a declared capacity
below the entries, where values that are not numbers count as one value. -/
def same (first second : SparseArray) : Bool :=
  first.info == second.info && first.room == second.room
    && first.columnPointers == second.columnPointers && first.rowIndices == second.rowIndices
    && NumericClass.double.sameRun first.real second.real
    && NumericClass.double.sameRun? first.imag second.imag

/-- One line for a stored entry, its row and column counted from one. -/
def Entry.line (entry : Entry) : String :=
  s!"\t({entry.row + 1},{entry.column + 1})\t{NumericClass.double.text entry.real}"
    ++ (match entry.imag with
      | some imag => s!"+{NumericClass.double.text imag}i"
      | none => "") ++ "\n"

/-- The text of a matrix: a headline, then a line for each stored entry. -/
def text (array : SparseArray) : String :=
  array.info.headline .sparse
    ++ String.join (array.entries.map fun entry => Entry.line entry.1)

end SparseArray

end MatFormat
