/-
This file proves which arrays a file holds once some arrays were entered one after the other.
Their names are the distinct names of those arrays in the order in which each came first, and
under each name is the last array that had it.
-/

import MatFormat.File.Basic
import Mathlib.Data.List.Induction
import Mathlib.Data.List.Nodup

namespace MatFormat

/-! ### The last array of each name -/

/-- The last of some arrays under a name. -/
def lastNamed? (arrays : List MatArray) (name : String) : Option MatArray :=
  arrays.reverse.find? fun array => array.name == name

/-- Of arrays of one name the last, in the order in which the names come first. -/
def lastOfEach (arrays : List MatArray) : List MatArray :=
  (arrays.map MatArray.name).eraseDups.filterMap (lastNamed? arrays)

theorem lastNamed?_concat (arrays : List MatArray) (array : MatArray) (name : String) :
    lastNamed? (arrays ++ [array]) name =
      if name = array.name then some array else lastNamed? arrays name := by
  rw [lastNamed?, List.reverse_append, List.reverse_singleton, List.singleton_append,
    List.find?_cons]
  by_cases named : name = array.name
  · rw [if_pos named, named, beq_self_eq_true]
  · rw [if_neg named, beq_false_of_ne (Ne.symm named)]
    rfl

theorem eraseDups_concat (names : List String) (name : String) :
    (names ++ [name]).eraseDups =
      if name ∈ names.eraseDups then names.eraseDups else names.eraseDups ++ [name] := by
  rw [List.eraseDups_append]
  by_cases known : name ∈ names
  · rw [if_pos (List.mem_eraseDups.mpr known)]
    simp [List.removeAll, known]
  · rw [if_neg fun member => known (List.mem_eraseDups.mp member)]
    simp [List.removeAll, known, List.eraseDups_cons]

theorem length_eraseDups_le (names : List String) : names.eraseDups.length ≤ names.length := by
  induction names using List.reverseRecOn with
  | nil => exact Nat.le_refl 0
  | append_singleton names name inductionHypothesis =>
    rw [eraseDups_concat, List.length_append, List.length_singleton]
    split
    · exact Nat.le_succ_of_le inductionHypothesis
    · rw [List.length_append]
      exact Nat.succ_le_succ inductionHypothesis

/-- Where no name was erased, the names were distinct. -/
theorem nodup_of_length_eraseDups {names : List String}
    (same : names.eraseDups.length = names.length) : names.Nodup := by
  induction names using List.reverseRecOn with
  | nil => exact List.nodup_nil
  | append_singleton names name inductionHypothesis =>
    rw [eraseDups_concat, List.length_append, List.length_singleton] at same
    split at same
    · exact absurd same (Nat.ne_of_lt (Nat.lt_succ_of_le (length_eraseDups_le names)))
    · rename_i fresh
      rw [List.length_append] at same
      rw [← List.concat_eq_append, List.nodup_concat]
      exact ⟨fun known => fresh (List.mem_eraseDups.mpr known),
        inductionHypothesis (Nat.succ.inj same)⟩

theorem eraseDups_of_nodup {names : List String} (distinct : names.Nodup) :
    names.eraseDups = names := by
  induction names using List.reverseRecOn with
  | nil => rfl
  | append_singleton names name inductionHypothesis =>
    rw [← List.concat_eq_append, List.nodup_concat] at distinct
    rw [eraseDups_concat, inductionHypothesis distinct.2, if_neg distinct.1]

/-- Of arrays with distinct names each is the last of its name. -/
theorem lastOfEach_of_nodup {arrays : List MatArray}
    (distinct : (arrays.map MatArray.name).Nodup) : lastOfEach arrays = arrays := by
  rw [lastOfEach, eraseDups_of_nodup distinct]
  induction arrays using List.reverseRecOn with
  | nil => rfl
  | append_singleton arrays array inductionHypothesis =>
    rw [List.map_append, List.map_singleton, ← List.concat_eq_append, List.nodup_concat] at distinct
    have others : (arrays.map MatArray.name).filterMap (lastNamed? (arrays ++ [array])) =
        (arrays.map MatArray.name).filterMap (lastNamed? arrays) := by
      refine List.filterMap_congr fun name member => ?_
      have differs : name ≠ array.name := fun same => distinct.1 (same ▸ member)
      rw [lastNamed?_concat, if_neg differs]
    have last : [array.name].filterMap (lastNamed? (arrays ++ [array])) = [array] := by
      rw [List.filterMap_cons, lastNamed?_concat, if_pos rfl]
      rfl
    rw [List.map_append, List.filterMap_append, others, inductionHypothesis distinct.2,
      List.map_singleton, last]

namespace MatFile

/-! ### Entering arrays -/

theorem keys_enter (key : String) (array : MatArray) (entries : List (String × MatArray)) :
    (enter key array entries).map Prod.fst =
      if key ∈ entries.map Prod.fst then entries.map Prod.fst
      else entries.map Prod.fst ++ [key] := by
  induction entries with
  | nil => rfl
  | cons entry rest inductionHypothesis =>
    rw [enter, List.map_cons]
    by_cases found : entry.1 = key
    · rw [if_pos found, if_pos (found ▸ List.mem_cons_self), List.map_cons, found]
    · rw [if_neg found, List.map_cons, inductionHypothesis]
      by_cases later : key ∈ rest.map Prod.fst
      · rw [if_pos later, if_pos (List.mem_cons_of_mem _ later)]
      · have fresh : key ∉ entry.1 :: rest.map Prod.fst :=
          List.not_mem_cons_of_ne_of_not_mem (Ne.symm found) later
        rw [if_neg later, if_neg fresh, List.cons_append]

theorem nodup_keys_enter {key : String} {array : MatArray} {entries : List (String × MatArray)}
    (distinct : (entries.map Prod.fst).Nodup) : ((enter key array entries).map Prod.fst).Nodup := by
  rw [keys_enter]
  split
  · exact distinct
  · rename_i fresh
    exact List.nodup_append.mpr ⟨distinct, List.nodup_singleton key, fun other member last single =>
      by rw [List.mem_singleton.mp single]; rintro rfl; exact fresh member⟩

/-- Under distinct names the arrays of a file are those that are found under its names. -/
theorem arrays_eq_filterMap {file : MatFile} (distinct : file.names.Nodup) :
    file.arrays = file.names.filterMap file.get? := by
  obtain ⟨header, entries⟩ := file
  unfold names at distinct
  unfold arrays names get?
  dsimp only at distinct ⊢
  induction entries with
  | nil => rfl
  | cons entry rest inductionHypothesis =>
    obtain ⟨key, array⟩ := entry
    rw [List.map_cons, List.nodup_cons] at distinct
    have others : (rest.map Prod.fst).filterMap (((key, array) :: rest).lookup ·) =
        (rest.map Prod.fst).filterMap (rest.lookup ·) := by
      refine List.filterMap_congr fun other member => ?_
      have differs : other ≠ key := fun same => distinct.1 (same ▸ member)
      rw [List.lookup_cons, beq_false_of_ne differs]
    rw [List.map_cons, List.map_cons, List.filterMap_cons]
    dsimp only
    rw [List.lookup_cons_self]
    dsimp only
    rw [others, ← inductionHypothesis distinct.2]

/-! ### Arrays entered one after the other -/

variable (header : Header)

theorem ofArrays_concat (arrays : List MatArray) (array : MatArray) :
    ofArrays header (arrays ++ [array]) = (ofArrays header arrays).insert array := by
  rw [ofArrays, List.foldl_concat, ofArrays]

theorem header_ofArrays (arrays : List MatArray) : (ofArrays header arrays).header = header := by
  induction arrays using List.reverseRecOn with
  | nil => rfl
  | append_singleton arrays array inductionHypothesis =>
    rw [ofArrays_concat, insert]
    exact inductionHypothesis

/-- The names are the distinct names of the arrays in the order in which each came first. -/
theorem names_ofArrays (arrays : List MatArray) :
    (ofArrays header arrays).names = (arrays.map MatArray.name).eraseDups := by
  induction arrays using List.reverseRecOn with
  | nil => rfl
  | append_singleton arrays array inductionHypothesis =>
    rw [ofArrays_concat, List.map_append, List.map_singleton, eraseDups_concat,
      ← inductionHypothesis]
    exact keys_enter array.name array _

theorem nodup_names_ofArrays (arrays : List MatArray) : (ofArrays header arrays).names.Nodup := by
  induction arrays using List.reverseRecOn with
  | nil => exact List.nodup_nil
  | append_singleton arrays array inductionHypothesis =>
    rw [ofArrays_concat]
    exact nodup_keys_enter inductionHypothesis

/-- Under each name is the last array that had it. -/
theorem get?_ofArrays (arrays : List MatArray) (name : String) :
    (ofArrays header arrays).get? name = lastNamed? arrays name := by
  induction arrays using List.reverseRecOn with
  | nil => rfl
  | append_singleton arrays array inductionHypothesis =>
    rw [ofArrays_concat, lastNamed?_concat, ← inductionHypothesis]
    exact lookup_enter array.name name array _

/-- The arrays are the last of each name, in the order in which the names came first. -/
theorem arrays_ofArrays (arrays : List MatArray) :
    (ofArrays header arrays).arrays = lastOfEach arrays := by
  rw [arrays_eq_filterMap (nodup_names_ofArrays header arrays), names_ofArrays, lastOfEach]
  exact List.filterMap_congr fun name _ => get?_ofArrays header arrays name

end MatFile

end MatFormat
