/-
This file lists the names in an array, at every depth and in their places, and proves when
all of them come back. Of a valid array that is written and read again the names are the same
exactly when no name of an array and no name of a class has a NUL in it and no slot holds the
array that an unset slot is written as. The names of fields need no such condition, because
no field was ever declared under a name with a NUL.
-/

import MatFormat.Proofs.Kept
import MatFormat.Proofs.Valid

namespace MatFormat

/-- The names in an array: its own, that of its class, those of its fields, and those in what
its slots hold. -/
inductive NameTree where
  | node (name : String) (className : Option String) (fieldNames : List String)
      (slots : List (Option NameTree))

namespace MatArray

/-- The names in an array. -/
def nameTree (array : MatArray) : NameTree :=
  .node array.name array.className? array.fieldNames
    (array.slots.attach.map fun slot => slot.1.attach.map fun child => child.1.nameTree)
termination_by sizeOf array
decreasing_by
  apply sizeOf_lt_of_mem_children
  rw [mem_children, ← Option.mem_def.mp child.2]
  exact slot.2

theorem nameTree_eq (array : MatArray) :
    array.nameTree = .node array.name array.className? array.fieldNames
      (array.slots.map (Option.map nameTree)) := by
  rw [nameTree]
  simp

/-- The names of an array and of its class can be stored, and no slot of it reads back as
unset although it holds an array. -/
structure Nameable (array : MatArray) : Prop where
  name : NulFree array.name
  className : ∀ className ∈ array.className?, NulFree className
  slots : ∀ child ∈ array.children, child.isPlaceholder = false

/-- A valid array whose names can be stored is well formed. -/
theorem Valid.wellFormed {array : MatArray} (valid : array.Valid) (nameable : array.Nameable) :
    array.WellFormed := by
  refine ⟨⟨valid.shaped, fun _ => valid.complex, nameable.slots, fun name member => ?_⟩,
    fun plain => ?_⟩
  · rcases mem_ownNames.mp member with rfl | named | field
    · exact nameable.name
    · exact nameable.className name named
    · exact valid.fields name field
  · rw [valid.complex]
    cases array with
    | numeric => cases plain
    | sparse => cases plain
    | char => rfl
    | cell => rfl
    | struct => rfl

/-! ### Names that are kept -/

theorem slots_mapSlots (change : Option MatArray → Option MatArray) (array : MatArray) :
    (array.mapSlots change).slots = array.slots.map change := by
  cases array with
  | struct array =>
    simp only [mapSlots, slots, List.flatMap_map, List.map_flatMap]
  | _ => rfl

theorem slots_keepHere (array : MatArray) : array.keepHere.slots = array.slots := by
  cases array with
  | struct array => simp only [keepHere, slots, List.flatMap_map]
  | _ => rfl

theorem slots_kept (array : MatArray) : array.kept.slots = array.slots.map keptSlot := by
  rw [kept_eq, slots_keepHere, slots_mapSlots]

theorem name_kept (array : MatArray) : array.kept.name = cutName array.name := by
  rw [kept_eq]
  cases array <;> rfl

theorem className?_kept (array : MatArray) :
    array.kept.className? = array.className?.map cutName := by
  rw [kept_eq]
  cases array <;> rfl

theorem fieldNames_kept (array : MatArray) :
    array.kept.fieldNames = array.fieldNames.map cutName := by
  rw [kept_eq]
  cases array with
  | struct array =>
    simp only [mapSlots, keepHere, fieldNames, StructArray.fieldNames, List.map_map]
    rfl
  | _ => rfl

theorem isPlaceholder_kept {array : MatArray} (valid : array.Valid) (name : NulFree array.name) :
    array.kept.isPlaceholder = array.isPlaceholder := by
  have info := keptInfo_eq_self valid.complex name
  rw [kept_eq]
  cases array with
  | numeric numericClass array =>
    show (keepHere (numeric numericClass array)).isPlaceholder = _
    rw [keepHere, info]
    rfl
  | _ => rfl

theorem nameTree_kept (array : MatArray) :
    array.kept.nameTree = .node (cutName array.name) (array.className?.map cutName)
      (array.fieldNames.map cutName)
      (array.slots.map fun slot => (keptSlot slot).map nameTree) := by
  rw [nameTree_eq, name_kept, className?_kept, fieldNames_kept, slots_kept, List.map_map]
  rfl

/-- All names come back exactly when none of the array's own is cut and those in its slots
come back. -/
theorem nameTree_kept_eq_iff (array : MatArray) :
    array.kept.nameTree = array.nameTree ↔
      NulFree array.name ∧ array.className?.map cutName = array.className? ∧
        array.fieldNames.map cutName = array.fieldNames ∧
        ∀ slot ∈ array.slots, (keptSlot slot).map nameTree = slot.map nameTree := by
  rw [nameTree_kept, nameTree_eq, NameTree.node.injEq, cutName_eq_self_iff, List.map_inj_left]

/-- The names in a slot come back exactly when the array in it is no placeholder and its
names come back. -/
theorem nameTree_keptSlot_eq_iff {child : MatArray} (valid : child.Valid) :
    (keptSlot (some child)).map nameTree = some child.nameTree ↔
      child.isPlaceholder = false ∧ child.kept.nameTree = child.nameTree := by
  rw [keptSlot_some, Option.map_eq_some_iff]
  constructor
  · rintro ⟨other, stored, names⟩
    obtain ⟨placeholder, rfl⟩ := mem_toSlot.mp stored
    have own := ((nameTree_kept_eq_iff child).mp names).1
    exact ⟨(isPlaceholder_kept valid own).symm.trans placeholder, names⟩
  · rintro ⟨placeholder, names⟩
    have own := ((nameTree_kept_eq_iff child).mp names).1
    exact ⟨child.kept,
      mem_toSlot.mpr ⟨(isPlaceholder_kept valid own).trans placeholder, rfl⟩, names⟩

/-- All names in a valid array come back exactly when they can be stored at every depth. -/
theorem nameTree_kept_iff_everywhere {array : MatArray} (valid : array.Everywhere Valid) :
    array.kept.nameTree = array.nameTree ↔ array.Everywhere Nameable := by
  induction valid with
  | intro array here below inductionHypothesis =>
    rw [nameTree_kept_eq_iff]
    constructor
    · rintro ⟨name, className, _, slots⟩
      have child (child : MatArray) (member : child ∈ array.children) :
          child.isPlaceholder = false ∧ child.kept.nameTree = child.nameTree :=
        (nameTree_keptSlot_eq_iff (below child member).here).mp
          (slots _ ((mem_children array child).mp member))
      exact .intro array
        ⟨name, (optionMap_cutName_eq_self_iff _).mp className,
          fun other member => (child other member).1⟩
        fun other member => (inductionHypothesis other member).mp (child other member).2
    · intro nameable
      refine ⟨nameable.here.name, (optionMap_cutName_eq_self_iff _).mpr nameable.here.className,
        map_cutName_eq_self here.fields, fun slot member => ?_⟩
      cases slot with
      | none => rw [keptSlot_none]
      | some child =>
        have held := (mem_children array child).mpr member
        exact (nameTree_keptSlot_eq_iff (below child held).here).mpr
          ⟨nameable.here.slots child held,
            (inductionHypothesis child held).mpr (nameable.child held)⟩

end MatArray

end MatFormat
