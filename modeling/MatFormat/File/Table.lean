/-
This file describes the table that holds a file in memory: a hash map from keys to arrays, and
beside it the keys in the order in which they were first used. Both change with every call, and
whatever is shown in order is looked up key by key. An array that is edited in its place stays
under its key.
-/

import Std.Data.HashMap
import MatFormat.File.Reader

namespace MatFormat

/-- A header, arrays in a hash map under keys, and the keys in order. -/
structure FileTable where
  header : Header
  table : Std.HashMap String MatArray := ∅
  order : List String := []

namespace FileTable

/-! ### Access -/

/-- The keys in order. -/
def names (file : FileTable) : List String := file.order

/-- The array under a key. -/
def get? (file : FileTable) (key : String) : Option MatArray := file.table[key]?

/-- Whether there is an array under a key. -/
def contains (file : FileTable) (key : String) : Bool := file.table.contains key

/-- The number of arrays. -/
def size (file : FileTable) : Nat := file.table.size

/-- Whether there are no arrays. -/
def isEmpty (file : FileTable) : Bool := file.table.isEmpty

/-- The arrays in order. -/
def arrays (file : FileTable) : List MatArray := file.order.filterMap file.get?

/-- Take the arrays under some keys out of a hash map, one after the other. -/
def drain (table : Std.HashMap String MatArray) : (keys : List String) → List MatArray
  | [] => []
  | key :: rest =>
    match table[key]? with
    | none => drain table rest
    | some array => array :: drain (table.erase key) rest

/-- The arrays in order, taken out of the table. -/
def intoArrays (file : FileTable) : List MatArray := drain file.table file.order

/-- The text of a file: its description, then its arrays. -/
def text (file : FileTable) : String :=
  file.header.description ++ "\n" ++ String.join (file.arrays.map MatArray.text)

/-! ### Changes -/

/-- Insert an array under its own name, and give the array that it replaces. -/
def insert (file : FileTable) (array : MatArray) : Option MatArray × FileTable :=
  let previous := file.get? array.name
  let order := if previous.isNone then file.order ++ [array.name] else file.order
  (previous, { file with table := file.table.insert array.name array, order })

/-- Remove the array under a key, and give it. -/
def remove (file : FileTable) (key : String) : Option MatArray × FileTable :=
  match file.get? key with
  | none => (none, file)
  | some array =>
    (some array,
      { file with table := file.table.erase key, order := file.order.filter (· != key) })

/-- Edit the array under a key in its place, and give the array that was there. -/
def edit (file : FileTable) (key : String) (change : MatArray → MatArray) :
    Option MatArray × FileTable :=
  (file.get? key, { file with table := file.table.modify key change })

/-- A file with the given arrays, inserted one after the other. -/
def ofArrays (header : Header) (arrays : List MatArray) : FileTable :=
  arrays.foldl (fun file array => (file.insert array).2) { header }

/-- Read a file with those of its arrays whose names are wanted. -/
def read (inflate : Inflater) (bytes : List UInt8) (wanted : String → Bool) :
    Reading FileTable := do
  let (header, stream) ← openStream bytes
  let arrays ← stream.arrays inflate wanted
  pure (ofArrays header arrays)

end FileTable

/-! ### Calls -/

/-- A call that changes a file. -/
inductive FileCall where
  | insert (array : MatArray)
  | remove (key : String)
  | edit (key : String) (change : MatArray → MatArray)

namespace FileTable

/-- What a call gives, and the file after it. -/
def perform (file : FileTable) : FileCall → Option MatArray × FileTable
  | .insert array => file.insert array
  | .remove key => file.remove key
  | .edit key change => file.edit key change

/-- The file after a history of calls, the latest call first. -/
def afterCalls (start : FileTable) : List FileCall → FileTable
  | [] => start
  | call :: earlier => ((start.afterCalls earlier).perform call).2

end FileTable

end MatFormat
