/-
This file looks at an array as a tree. The children of an array are the arrays in its cells
or in the slots of its fields, so what holds of an array whenever it holds of its children
holds of every array. Three things are built on that: a property that holds everywhere in a
tree, one that holds somewhere in it, and a tree rebuilt from its leaves upwards.
-/

import MatFormat.Array.Basic

namespace MatFormat

namespace MatArray

/-! ### Children -/

/-- The slots of an array, which only arrays of cells and struct arrays have. -/
def slots : MatArray → List (Option MatArray)
  | cell array => array.cells
  | struct array => array.fields.flatMap Field.slots
  | _ => []

/-- The arrays in the slots of an array. -/
def children (array : MatArray) : List MatArray := array.slots.filterMap id

theorem mem_children (array child : MatArray) :
    child ∈ array.children ↔ some child ∈ array.slots := by
  simp [children]

theorem mem_children_cell (array : CellArray MatArray) (child : MatArray) :
    child ∈ (cell array).children ↔ some child ∈ array.cells :=
  mem_children _ _

theorem mem_children_struct (array : StructArray MatArray) (child : MatArray) :
    child ∈ (struct array).children ↔ ∃ field ∈ array.fields, some child ∈ field.slots := by
  rw [mem_children]
  exact List.mem_flatMap

theorem mem_toSlot {array child : MatArray} :
    child ∈ array.toSlot ↔ array.isPlaceholder = false ∧ child = array := by
  unfold toSlot
  cases array.isPlaceholder with
  | false => exact ⟨fun stored => ⟨rfl, (Option.some.inj stored).symm⟩, fun same => same.2 ▸ rfl⟩
  | true => exact ⟨nofun, nofun⟩

theorem sizeOf_lt_of_some_mem {slots : List (Option MatArray)} {child : MatArray}
    (member : some child ∈ slots) : sizeOf child < sizeOf slots := by
  have slot := List.sizeOf_lt_of_mem member
  rw [Option.some.sizeOf_spec] at slot
  omega

theorem sizeOf_lt_of_mem_children {array child : MatArray} (member : child ∈ array.children) :
    sizeOf child < sizeOf array := by
  cases array with
  | cell array =>
    obtain ⟨info, cells⟩ := array
    have held : some child ∈ cells := (mem_children_cell _ _).mp member
    have smaller := sizeOf_lt_of_some_mem held
    rw [cell.sizeOf_spec, CellArray.mk.sizeOf_spec]
    omega
  | struct array =>
    obtain ⟨info, className, fields⟩ := array
    obtain ⟨field, fieldMember, slotMember⟩ := (mem_children_struct _ _).mp member
    obtain ⟨name, slots⟩ := field
    have held : some child ∈ slots := slotMember
    have listed : ⟨name, slots⟩ ∈ fields := fieldMember
    have smallerField := List.sizeOf_lt_of_mem listed
    have smaller := sizeOf_lt_of_some_mem held
    rw [Field.mk.sizeOf_spec] at smallerField
    rw [struct.sizeOf_spec, StructArray.mk.sizeOf_spec]
    omega
  | numeric => exact absurd member List.not_mem_nil
  | char => exact absurd member List.not_mem_nil
  | sparse => exact absurd member List.not_mem_nil

/-- What holds of an array whenever it holds of its children holds of every array. -/
theorem tree_induction {motive : MatArray → Prop}
    (step : ∀ array : MatArray, (∀ child ∈ array.children, motive child) → motive array)
    (array : MatArray) : motive array :=
  step array fun child _ => tree_induction step child
termination_by sizeOf array
decreasing_by exact sizeOf_lt_of_mem_children ‹_›

/-! ### Properties everywhere in a tree -/

/-- A property holds everywhere in an array when it holds of the array and everywhere in each
of its children. -/
inductive Everywhere (property : MatArray → Prop) : MatArray → Prop where
  | intro (array : MatArray) (here : property array)
      (below : ∀ child ∈ array.children, Everywhere property child) : Everywhere property array

variable {property other : MatArray → Prop} {array : MatArray}

theorem Everywhere.here (everywhere : array.Everywhere property) : property array := by
  cases everywhere with
  | intro array here below => exact here

theorem Everywhere.child (everywhere : array.Everywhere property) {child : MatArray}
    (member : child ∈ array.children) : child.Everywhere property := by
  cases everywhere with
  | intro array here below => exact below child member

theorem Everywhere.imp (everywhere : array.Everywhere property)
    (implies : ∀ array : MatArray, property array → other array) : array.Everywhere other := by
  induction everywhere with
  | intro array here below inductionHypothesis =>
    exact .intro array (implies array here) inductionHypothesis

/-- A property holds somewhere in an array when it holds of the array or somewhere in one of its
children. -/
inductive Somewhere (property : MatArray → Prop) : MatArray → Prop where
  | here {array : MatArray} (holds : property array) : Somewhere property array
  | inside {array child : MatArray} (member : child ∈ array.children)
      (held : Somewhere property child) : Somewhere property array

/-- What does not hold somewhere fails everywhere. -/
theorem everywhere_not_iff :
    (array.Everywhere fun node => ¬ property node) ↔ ¬ array.Somewhere property := by
  constructor
  · intro nowhere somewhere
    induction somewhere with
    | here holds => exact nowhere.here holds
    | inside member held inductionHypothesis => exact inductionHypothesis (nowhere.child member)
  · intro nowhere
    induction array using tree_induction with
    | step array inductionHypothesis =>
      exact .intro array (fun holds => nowhere (.here holds)) fun child member =>
        inductionHypothesis child member fun held => nowhere (.inside member held)

/-! ### Rebuilding a tree -/

/-- Change every slot of an array, and nothing else. -/
def mapSlots (change : Option MatArray → Option MatArray) : MatArray → MatArray
  | cell array => cell { array with cells := array.cells.map change }
  | struct array =>
    struct { array with
      fields := array.fields.map fun field => { field with slots := field.slots.map change } }
  | array => array

@[simp] theorem info_mapSlots (change : Option MatArray → Option MatArray) (array : MatArray) :
    (array.mapSlots change).info = array.info := by
  cases array <;> rfl

theorem mapSlots_congr {first second : Option MatArray → Option MatArray} {array : MatArray}
    (none : first none = second none)
    (agree : ∀ child ∈ array.children, first (some child) = second (some child)) :
    array.mapSlots first = array.mapSlots second := by
  have slot (slots : List (Option MatArray))
      (held : ∀ child, some child ∈ slots → child ∈ array.children) :
      slots.map first = slots.map second := by
    apply List.map_congr_left
    intro slot member
    cases slot with
    | none => exact none
    | some child => exact agree child (held child member)
  cases array with
  | cell array =>
    simp only [mapSlots, slot array.cells fun child member =>
      (mem_children_cell array child).mpr member]
  | struct array =>
    have fields : (array.fields.map fun field => { field with slots := field.slots.map first }) =
        array.fields.map fun field => { field with slots := field.slots.map second } := by
      apply List.map_congr_left
      intro field fieldMember
      rw [slot field.slots fun child member =>
        (mem_children_struct array child).mpr ⟨field, fieldMember, member⟩]
    simp only [mapSlots, fields]
  | numeric => rfl
  | char => rfl
  | sparse => rfl

mutual

/-- Rebuild a tree from its leaves upwards: every rebuilt child is stored into its slot
again, and the array is changed after its slots. -/
def rebuild (change : MatArray → MatArray) (store : MatArray → Option MatArray) :
    MatArray → MatArray
  | cell ⟨info, cells⟩ => change (cell ⟨info, rebuildSlots change store cells⟩)
  | struct ⟨info, className, fields⟩ =>
    change (struct ⟨info, className, rebuildFields change store fields⟩)
  | numeric numericClass array => change (numeric numericClass array)
  | char array => change (char array)
  | sparse array => change (sparse array)

/-- Rebuild the arrays in slots. -/
def rebuildSlots (change : MatArray → MatArray) (store : MatArray → Option MatArray) :
    List (Option MatArray) → List (Option MatArray)
  | [] => []
  | slot :: rest => rebuildSlot change store slot :: rebuildSlots change store rest

/-- Rebuild the array in a slot. -/
def rebuildSlot (change : MatArray → MatArray) (store : MatArray → Option MatArray) :
    Option MatArray → Option MatArray
  | none => none
  | some array => store (array.rebuild change store)

/-- Rebuild the arrays in the slots of fields. -/
def rebuildFields (change : MatArray → MatArray) (store : MatArray → Option MatArray) :
    List (Field MatArray) → List (Field MatArray)
  | [] => []
  | ⟨name, slots⟩ :: rest =>
    ⟨name, rebuildSlots change store slots⟩ :: rebuildFields change store rest

end

variable (change : MatArray → MatArray) (store : MatArray → Option MatArray)

theorem rebuildSlots_eq_map (slots : List (Option MatArray)) :
    rebuildSlots change store slots = slots.map (rebuildSlot change store) := by
  induction slots with
  | nil => rfl
  | cons slot rest inductionHypothesis => rw [rebuildSlots, inductionHypothesis, List.map_cons]

theorem rebuildFields_eq_map (fields : List (Field MatArray)) :
    rebuildFields change store fields = fields.map fun field =>
      { field with slots := field.slots.map (rebuildSlot change store) } := by
  induction fields with
  | nil => rfl
  | cons field rest inductionHypothesis =>
    rw [rebuildFields, inductionHypothesis, rebuildSlots_eq_map, List.map_cons]

theorem rebuild_eq (array : MatArray) :
    array.rebuild change store = change (array.mapSlots (rebuildSlot change store)) := by
  cases array with
  | cell array => rw [rebuild, rebuildSlots_eq_map, mapSlots]
  | struct array => rw [rebuild, rebuildFields_eq_map, mapSlots]
  | numeric => rfl
  | char => rfl
  | sparse => rfl

end MatArray

end MatFormat
