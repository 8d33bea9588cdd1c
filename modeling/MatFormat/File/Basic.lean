/-
This file describes what a file holds: its header and arrays under keys, in the order in
which the keys were first used. An array is entered under its own name; entering another one
under that key replaces the first and leaves it in its place.
-/

import MatFormat.Array.Text
import MatFormat.Header

namespace MatFormat

/-- A header, and arrays under keys. -/
structure MatFile where
  header : Header
  entries : List (String × MatArray) := []

namespace MatFile

/-- Enter an array under a key, in place of the one that is there or else at the end. -/
def enter (key : String) (array : MatArray) : List (String × MatArray) → List (String × MatArray)
  | [] => [(key, array)]
  | entry :: rest =>
    if entry.1 = key then (key, array) :: rest else entry :: enter key array rest

theorem lookup_enter (key other : String) (array : MatArray) (entries : List (String × MatArray)) :
    (enter key array entries).lookup other =
      if other = key then some array else entries.lookup other := by
  induction entries with
  | nil =>
    by_cases equal : other = key
    · simp [enter, equal]
    · simp [enter, List.lookup_cons, equal, beq_false_of_ne equal]
  | cons entry rest inductionHypothesis =>
    obtain ⟨first, held⟩ := entry
    by_cases found : first = key
    · subst found
      by_cases equal : other = first
      · simp [enter, equal]
      · simp [enter, List.lookup_cons, equal, beq_false_of_ne equal]
    · by_cases here : other = first
      · subst here
        simp [enter, found]
      · simp only [enter, if_neg found, List.lookup_cons, beq_false_of_ne here,
          inductionHypothesis]

/-! ### Access -/

/-- The keys in order. -/
def names (file : MatFile) : List String := file.entries.map Prod.fst

/-- The arrays in order. -/
def arrays (file : MatFile) : List MatArray := file.entries.map Prod.snd

/-- The number of arrays. -/
def size (file : MatFile) : Nat := file.entries.length

/-- Whether there are no arrays. -/
def isEmpty (file : MatFile) : Bool := file.entries.isEmpty

/-- The array under a key. -/
def get? (file : MatFile) (key : String) : Option MatArray := file.entries.lookup key

/-- Whether there is an array under a key. -/
def contains (file : MatFile) (key : String) : Bool := (file.get? key).isSome

/-! ### Changes -/

/-- Enter an array under its own name. -/
def insert (file : MatFile) (array : MatArray) : MatFile :=
  { file with entries := enter array.name array file.entries }

/-- Remove the array under a key. -/
def erase (file : MatFile) (key : String) : MatFile :=
  { file with entries := file.entries.filter fun entry => entry.1 != key }

/-- Change the array under a key, which stays as it is even where the array's name changes. -/
def modify (file : MatFile) (key : String) (change : MatArray → MatArray) : MatFile :=
  { file with
    entries := file.entries.map fun entry =>
      if entry.1 = key then (entry.1, change entry.2) else entry }

/-- A file with the given arrays, entered one after the other. -/
def ofArrays (header : Header) (arrays : List MatArray) : MatFile :=
  arrays.foldl insert { header }

/-- The text of a file: its description, then its arrays. -/
def text (file : MatFile) : String :=
  file.header.description ++ "\n" ++ String.join (file.arrays.map MatArray.text)

end MatFile

end MatFormat
