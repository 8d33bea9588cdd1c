/-
This file proves that the table of a file shows exactly what a list of entries would hold. The
hash map and the keys beside it agree after every call: the keys are distinct, and the map finds
an array under a key just where the list has one. Whatever reads the table follows from that.
Distinct keys matter most where the arrays are taken out of the table, because there a key that
came twice would find nothing the second time.
-/

import MatFormat.File.Table
import MatFormat.Proofs.File.Basic
import Mathlib.Data.List.Perm.Basic
import Std.Data.HashMap.Lemmas

namespace MatFormat

/-! ### Entries in a list -/

namespace MatFile

theorem lookup_entry (first : String) (array : MatArray) (rest : List (String × MatArray))
    (key : String) :
    ((first, array) :: rest).lookup key = if key = first then some array else rest.lookup key := by
  by_cases here : key = first
  · rw [if_pos here, here, List.lookup_cons_self]
  · rw [if_neg here, List.lookup_cons, beq_false_of_ne here]

theorem lookup_filter_ne (entries : List (String × MatArray)) (key other : String) :
    (entries.filter fun entry => entry.1 != key).lookup other =
      if other = key then none else entries.lookup other := by
  induction entries with
  | nil => exact (ite_self none).symm
  | cons entry rest inductionHypothesis =>
    obtain ⟨first, held⟩ := entry
    rw [List.filter_cons]
    by_cases removed : first = key
    · subst removed
      rw [bne_self_eq_false, if_neg Bool.false_ne_true, inductionHypothesis, lookup_entry]
      split <;> rfl
    · rw [bne_iff_ne.mpr removed, if_pos rfl, lookup_entry, lookup_entry, inductionHypothesis]
      by_cases here : other = first
      · rw [if_pos here, if_pos here, if_neg (here ▸ removed)]
      · rw [if_neg here, if_neg here]

theorem lookup_map_change (entries : List (String × MatArray)) (key other : String)
    (change : MatArray → MatArray) :
    (entries.map fun entry =>
        if entry.1 = key then (entry.1, change entry.2) else entry).lookup other =
      if other = key then (entries.lookup key).map change else entries.lookup other := by
  induction entries with
  | nil => exact (ite_self none).symm
  | cons entry rest inductionHypothesis =>
    obtain ⟨first, held⟩ := entry
    rw [List.map_cons]
    by_cases changed : first = key
    · subst changed
      rw [if_pos rfl, lookup_entry, lookup_entry, lookup_entry, if_pos rfl, inductionHypothesis]
      split <;> rfl
    · rw [if_neg changed, lookup_entry, lookup_entry, lookup_entry, if_neg (Ne.symm changed),
        inductionHypothesis]
      by_cases here : other = first
      · rw [if_pos here, if_pos here, if_neg (here ▸ changed)]
      · rw [if_neg here, if_neg here]

variable (file : MatFile) (key other : String)

theorem isSome_get?_iff : (file.get? key).isSome = true ↔ key ∈ file.names := by
  rw [get?, List.lookup_isSome_iff, names, List.mem_map]
  constructor
  · rintro ⟨entry, member, same⟩
    exact ⟨entry, member, (eq_of_beq same).symm⟩
  · rintro ⟨entry, member, rfl⟩
    exact ⟨entry, member, beq_self_eq_true entry.1⟩

theorem get?_insert (array : MatArray) :
    (file.insert array).get? other =
      if other = array.name then some array else file.get? other :=
  lookup_enter array.name other array file.entries

theorem names_insert (array : MatArray) :
    (file.insert array).names =
      if array.name ∈ file.names then file.names else file.names ++ [array.name] :=
  keys_enter array.name array file.entries

theorem get?_erase :
    (file.erase key).get? other = if other = key then none else file.get? other :=
  lookup_filter_ne file.entries key other

theorem names_erase : (file.erase key).names = file.names.filter (· != key) :=
  (List.filter_map (f := Prod.fst) (p := (· != key))).symm

theorem erase_of_absent {file : MatFile} {key : String} (absent : file.get? key = none) :
    file.erase key = file := by
  have kept : file.entries.filter (fun entry => entry.1 != key) = file.entries := by
    refine List.filter_eq_self.mpr fun entry member => bne_comm.trans ?_
    exact List.lookup_eq_none_iff.mp absent entry member
  rw [erase, kept]

theorem get?_modify (change : MatArray → MatArray) :
    (file.modify key change).get? other =
      if other = key then (file.get? key).map change else file.get? other :=
  lookup_map_change file.entries key other change

theorem names_modify (change : MatArray → MatArray) :
    (file.modify key change).names = file.names := by
  rw [names, modify, names, List.map_map]
  refine List.map_congr_left fun entry _ => ?_
  rw [Function.comp_apply]
  split <;> rfl

/-- Under distinct names exactly the entries are found. -/
theorem get?_eq_some_iff {file : MatFile} (distinct : file.names.Nodup) {key : String}
    {array : MatArray} : file.get? key = some array ↔ (key, array) ∈ file.entries := by
  obtain ⟨header, entries⟩ := file
  rw [names] at distinct
  rw [get?]
  dsimp only at distinct ⊢
  induction entries with
  | nil => exact ⟨nofun, nofun⟩
  | cons entry rest inductionHypothesis =>
    obtain ⟨first, held⟩ := entry
    rw [List.map_cons, List.nodup_cons] at distinct
    rw [lookup_entry, List.mem_cons, Prod.mk.injEq, ← inductionHypothesis distinct.2]
    by_cases here : key = first
    · have absent : rest.lookup key ≠ some array := fun found =>
        distinct.1 (List.mem_map.mpr
          ⟨(key, array), (inductionHypothesis distinct.2).mp found, here⟩)
      rw [if_pos here, Option.some.injEq]
      exact ⟨fun same => .inl ⟨here, same.symm⟩, fun either =>
        either.elim (fun same => same.2.symm) fun found => absurd found absent⟩
    · rw [if_neg here]
      exact ⟨.inr, fun either => either.elim (fun same => absurd same.1 here) id⟩

/-- Under distinct names each name finds the array in its place. -/
theorem map_get?_names {file : MatFile} (distinct : file.names.Nodup) :
    file.names.map file.get? = file.arrays.map some := by
  rw [names, arrays, List.map_map, List.map_map]
  exact List.map_congr_left fun _ member => (get?_eq_some_iff distinct).mpr member

/-- What a call gives on entries in a list, and the entries after it. -/
def perform (file : MatFile) : FileCall → Option MatArray × MatFile
  | .insert array => (file.get? array.name, file.insert array)
  | .remove key => (file.get? key, file.erase key)
  | .edit key change => (file.get? key, file.modify key change)

/-- Entries in a list after a history of calls, the latest call first. -/
def afterCalls (start : MatFile) : List FileCall → MatFile
  | [] => start
  | call :: earlier => ((start.afterCalls earlier).perform call).2

end MatFile

namespace FileTable

/-! ### The hash map and its keys -/

/-- A table keeps entries that are in a list: it has their names in their order, each of them
once, and finds the same array under each key. -/
structure Keeps (file : FileTable) (content : MatFile) : Prop where
  header : file.header = content.header
  names : file.names = content.names
  distinct : content.names.Nodup
  found : ∀ key, file.get? key = content.get? key

variable {file : FileTable} {content : MatFile}

theorem keeps_empty (header : Header) : Keeps { header } { header } where
  header := rfl
  names := rfl
  distinct := List.nodup_nil
  found _ := Std.HashMap.getElem?_empty

namespace Keeps

theorem insert (held : file.Keeps content) (array : MatArray) :
    (file.insert array).2.Keeps (content.insert array) where
  header := held.header
  names := by
    rw [MatFile.names_insert, FileTable.insert, FileTable.names, held.found]
    dsimp only
    rw [show file.order = content.names from held.names]
    by_cases known : array.name ∈ content.names
    · have present := (content.isSome_get?_iff array.name).mpr known
      rw [if_pos known, Option.isNone_eq_false_iff.mpr present, if_neg Bool.false_ne_true]
    · have absent : (content.get? array.name).isNone = true := by
        rw [Option.isNone_iff_eq_none, ← Option.not_isSome_iff_eq_none]
        exact mt (content.isSome_get?_iff array.name).mp known
      rw [if_neg known, absent, if_pos rfl]
  distinct := MatFile.nodup_keys_enter held.distinct
  found key := by
    rw [MatFile.get?_insert, ← held.found, FileTable.insert, FileTable.get?]
    dsimp only
    rw [Std.HashMap.getElem?_insert]
    simp only [beq_iff_eq, @eq_comm _ array.name, FileTable.get?]

theorem remove (held : file.Keeps content) (key : String) :
    (file.remove key).2.Keeps (content.erase key) := by
  rw [FileTable.remove]
  cases removed : file.get? key with
  | none =>
    rw [MatFile.erase_of_absent (held.found key ▸ removed)]
    exact held
  | some array =>
    refine ⟨held.header, ?_, ?_, fun other => ?_⟩
    · rw [MatFile.names_erase, ← held.names]
      rfl
    · rw [MatFile.names_erase]
      exact held.distinct.filter _
    · rw [MatFile.get?_erase, ← held.found, FileTable.get?]
      dsimp only
      rw [Std.HashMap.getElem?_erase]
      simp only [beq_iff_eq, @eq_comm _ key, FileTable.get?]

theorem edit (held : file.Keeps content) (key : String) (change : MatArray → MatArray) :
    (file.edit key change).2.Keeps (content.modify key change) where
  header := held.header
  names := by
    rw [MatFile.names_modify]
    exact held.names
  distinct := by
    rw [MatFile.names_modify]
    exact held.distinct
  found other := by
    rw [MatFile.get?_modify, ← held.found, ← held.found, FileTable.edit, FileTable.get?]
    dsimp only
    rw [Std.HashMap.getElem?_modify]
    simp only [beq_iff_eq, @eq_comm _ key, FileTable.get?]

/-- A call gives the same on a table and on the entries that it keeps, and keeps them. -/
theorem perform (held : file.Keeps content) (call : FileCall) :
    (file.perform call).1 = (content.perform call).1 ∧
      (file.perform call).2.Keeps (content.perform call).2 := by
  cases call with
  | insert array => exact ⟨held.found array.name, held.insert array⟩
  | remove key =>
    refine ⟨?_, held.remove key⟩
    rw [MatFile.perform, ← held.found]
    unfold FileTable.perform FileTable.remove
    dsimp only
    split <;> rename_i removed <;> exact removed.symm
  | edit key change => exact ⟨held.found key, held.edit key change⟩

theorem afterCalls (held : file.Keeps content) (history : List FileCall) :
    (file.afterCalls history).Keeps (content.afterCalls history) := by
  induction history with
  | nil => exact held
  | cons call earlier inductionHypothesis => exact (inductionHypothesis.perform call).2

theorem ofArrays (header : Header) (arrays : List MatArray) :
    (FileTable.ofArrays header arrays).Keeps (MatFile.ofArrays header arrays) := by
  induction arrays using List.reverseRecOn with
  | nil => exact keeps_empty header
  | append_singleton arrays array inductionHypothesis =>
    rw [MatFile.ofArrays_concat, FileTable.ofArrays, List.foldl_concat]
    exact inductionHypothesis.insert array

end Keeps

/-! ### What a table shows -/

/-- Under distinct keys nothing is missing where arrays are taken out one after the other. -/
theorem drain_eq_filterMap {keys : List String} (distinct : keys.Nodup)
    (table : Std.HashMap String MatArray) :
    drain table keys = keys.filterMap fun key => table[key]? := by
  induction keys generalizing table with
  | nil => rfl
  | cons key rest inductionHypothesis =>
    obtain ⟨fresh, distinct⟩ := List.nodup_cons.mp distinct
    rw [drain, List.filterMap_cons]
    cases table[key]? with
    | none => exact inductionHypothesis distinct table
    | some array =>
      dsimp only
      rw [inductionHypothesis distinct]
      refine congrArg (array :: ·) (List.filterMap_congr fun other member => ?_)
      have differs : key ≠ other := fun same => fresh (same ▸ member)
      rw [Std.HashMap.getElem?_erase, beq_false_of_ne differs, if_neg Bool.false_ne_true]

/-- A table shows what a list of entries holds, in every way in which either can be read. -/
structure Shows (file : FileTable) (content : MatFile) : Prop where
  header : file.header = content.header
  names : file.names = content.names
  arrays : file.arrays = content.arrays
  intoArrays : file.intoArrays = content.arrays
  get : ∀ key, file.get? key = content.get? key
  contains : ∀ key, file.contains key = content.contains key
  size : file.size = content.size
  isEmpty : file.isEmpty = content.isEmpty
  text : file.text = content.text

namespace Keeps

variable (held : file.Keeps content)
include held

theorem arrays : file.arrays = content.arrays := by
  rw [MatFile.arrays_eq_filterMap held.distinct, FileTable.arrays,
    show file.order = content.names from held.names]
  exact List.filterMap_congr fun key _ => held.found key

theorem intoArrays : file.intoArrays = content.arrays := by
  have distinct : file.order.Nodup := (show file.order = content.names from held.names) ▸
    held.distinct
  rw [← held.arrays, FileTable.intoArrays, drain_eq_filterMap distinct]
  rfl

/-- The keys of the hash map are the names, in an order of its own. -/
theorem perm_keys : file.table.keys.Perm content.names := by
  refine (List.perm_ext_iff_of_nodup Std.HashMap.nodup_keys held.distinct).mpr fun key => ?_
  rw [Std.HashMap.mem_keys, Std.HashMap.mem_iff_isSome_getElem?, ← content.isSome_get?_iff,
    ← held.found]
  rfl

theorem size : file.size = content.size := by
  rw [FileTable.size, ← Std.HashMap.length_keys, held.perm_keys.length_eq, MatFile.names,
    List.length_map, MatFile.size]

/-- Each name finds the array in its place. -/
theorem map_get?_names : file.names.map file.get? = file.arrays.map some := by
  rw [held.names, held.arrays, ← MatFile.map_get?_names held.distinct]
  exact List.map_congr_left fun key _ => held.found key

theorem shows : file.Shows content where
  header := held.header
  names := held.names
  arrays := held.arrays
  intoArrays := held.intoArrays
  get := held.found
  contains key := by
    rw [FileTable.contains, Std.HashMap.contains_eq_isSome_getElem?, MatFile.contains,
      ← held.found]
    rfl
  size := held.size
  isEmpty := by
    have size : file.table.size = content.entries.length := held.size
    rw [FileTable.isEmpty, Std.HashMap.isEmpty_eq_size_eq_zero, size, MatFile.isEmpty]
    cases content.entries <;> rfl
  text := by
    rw [FileTable.text, held.header, held.arrays, MatFile.text]

end Keeps

/-- Whatever calls were made on a new file, the table shows what a list of entries holds after
the same calls, in which an array takes the place of the one with its name or else comes last,
and a removed one leaves no place behind. The next call gives the same on both. No name comes
twice, there is one array for each name, and it is the one that is found under the name. -/
theorem shows_afterCalls (header : Header) (history : List FileCall) :
    let file := FileTable.afterCalls { header } history
    let content := MatFile.afterCalls { header } history
    file.Shows content ∧
      (∀ call, (file.perform call).1 = (content.perform call).1) ∧
      file.names.Nodup ∧ file.arrays.length = file.size ∧
      file.names.map file.get? = file.arrays.map some := by
  intro file content
  have held : file.Keeps content := (keeps_empty header).afterCalls history
  have length : file.arrays.length = file.size := by
    rw [held.arrays, held.size, MatFile.arrays, List.length_map, MatFile.size]
  exact ⟨held.shows, fun call => (held.perform call).1, held.names ▸ held.distinct, length,
    held.map_get?_names⟩

end FileTable

end MatFormat
