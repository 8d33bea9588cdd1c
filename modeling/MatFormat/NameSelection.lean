/-
This file describes the selection of arrays by name. A selection is a set of names, which
are kept in order and without repetition; the empty selection accepts every name.
-/

namespace MatFormat

/-- A set of names. -/
structure NameSelection where
  names : List String := []
deriving DecidableEq, Repr

namespace NameSelection

/-- Put a name into its place among names in ascending order, unless it stands there. -/
def place (name : String) : List String → List String
  | [] => [name]
  | first :: rest =>
    if name = first then first :: rest
    else if name < first then name :: first :: rest
    else first :: place name rest

/-- Add a name. -/
def insert (selection : NameSelection) (name : String) : NameSelection :=
  ⟨place name selection.names⟩

/-- The selection of the given names. -/
def ofList (names : List String) : NameSelection := names.foldl insert {}

/-- Whether the selection names no array. -/
def isEmpty (selection : NameSelection) : Bool := selection.names.isEmpty

/-- Whether the selection accepts an array of this name. -/
def accepts (selection : NameSelection) (name : String) : Bool :=
  selection.isEmpty || selection.names.contains name

end NameSelection

end MatFormat
