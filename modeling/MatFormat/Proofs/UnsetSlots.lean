/-
This file says when an unset slot is told apart from a slot that holds the array unset slots are
written as. Storing an array never leaves that array in a slot, but an edit of an array in its
slot may turn it into that array, and then the slot still holds it. So a slot, at any depth,
holds that array only where such an edit left it there. It matters when the array is written and
read again: what comes back is the same exactly when no slot at any depth holds that array.
-/

import MatFormat.Proofs.Constructed
import MatFormat.Proofs.Matrix.RoundTrip
import MatFormat.Proofs.NameTree
import MatFormat.Proofs.Struct.Fields

namespace MatFormat

/-! ### What an operation puts into slots -/

section

open MatArray

variable {child other : MatArray}

namespace CellArray

variable {array after : CellArray MatArray}

theorem children_unset {slotSize : Nat} {name : String} {dimensions : List Nat}
    (built : unset slotSize name dimensions = .ok array) : other ∉ (cell array).children := by
  obtain ⟨info, _, built⟩ := Outcome.bind_eq_ok.mp built
  obtain ⟨_, _, built⟩ := Outcome.bind_eq_ok.mp built
  obtain rfl := Outcome.pure_eq_ok.mp built
  rw [mem_children_cell]
  intro member
  cases List.eq_of_mem_replicate member

/-- The cells that an array is made with are stored one by one. -/
theorem children_ofArrays {name : String} {dimensions : List Nat} {cells : List (Option MatArray)}
    (built : ofArrays name dimensions cells = .ok array) (member : other ∈ (cell array).children) :
    ∃ given, some given ∈ cells ∧ other ∈ given.toSlot := by
  obtain ⟨info, _, _, rfl⟩ := (makes_ofList name dimensions _ array).mp built
  rw [mem_children_cell] at member
  obtain ⟨slot, slotMember, stored⟩ := List.mem_map.mp member
  obtain ⟨given, rfl, stored⟩ := Option.bind_eq_some_iff.mp stored
  exact ⟨given, slotMember, stored⟩

theorem children_setCell {index : Nat} {slot : Option MatArray}
    (member : other ∈ (cell { array with cells := array.cells.set index slot }).children) :
    other ∈ (cell array).children ∨ other ∈ slot := by
  rw [mem_children_cell] at member
  rcases List.mem_or_eq_of_mem_set member with before | new
  · exact Or.inl ((mem_children_cell array other).mpr before)
  · exact Or.inr new.symm

theorem children_store {index : Nat} {previous : Option MatArray}
    (stored : array.store index child = .ok (previous, after))
    (member : other ∈ (cell after).children) :
    other ∈ (cell array).children ∨ other ∈ child.toSlot := by
  unfold store set at stored
  split at stored
  · cases stored
    exact children_setCell member
  · cases stored

theorem children_take {index : Nat} (member : other ∈ (cell (array.take index).2).children) :
    other ∈ (cell array).children :=
  (children_setCell member).resolve_right nofun

theorem children_modify? {index : Nat}
    (changed : array.modify? index (fun _ => child) = some after)
    (member : other ∈ (cell after).children) : other ∈ (cell array).children ∨ other = child := by
  obtain ⟨item, _, changed⟩ := Option.bind_eq_some_iff.mp changed
  cases changed
  exact (children_setCell member).imp_right fun held => (Option.some.inj held).symm

end CellArray

namespace StructArray

variable {array after : StructArray MatArray} {name : String}

theorem children_of_no_fields (none : array.fields = []) : other ∉ (struct array).children := by
  rw [mem_children_struct, none]
  rintro ⟨field, member, _⟩
  cases member

theorem children_addField {slotSize : Nat} (added : array.addField slotSize name = .ok after)
    (member : other ∈ (struct after).children) : other ∈ (struct array).children := by
  rcases of_addField added with rfl | ⟨_, rfl⟩
  · exact member
  · rw [mem_children_struct] at member ⊢
    obtain ⟨field, fieldMember, held⟩ := member
    rcases List.mem_append.mp fieldMember with before | new
    · exact ⟨field, before, held⟩
    · rw [List.mem_singleton.mp new] at held
      cases List.eq_of_mem_replicate held

theorem children_setSlot {test : Field MatArray → Bool} {index : Nat} {slot : Option MatArray}
    {fields : List (Field MatArray)}
    (found : modifyFirst? test (fun field => { field with slots := field.slots.set index slot })
      array.fields = some fields)
    (member : other ∈ (struct { array with fields }).children) :
    other ∈ (struct array).children ∨ other ∈ slot := by
  rw [mem_children_struct] at member ⊢
  obtain ⟨field, fieldMember, held⟩ := member
  rcases mem_of_modifyFirst? found fieldMember with before | ⟨old, oldMember, rfl⟩
  · exact Or.inl ⟨field, before, held⟩
  · rcases List.mem_or_eq_of_mem_set held with before | new
    · exact Or.inl ⟨old, oldMember, before⟩
    · exact Or.inr new.symm

theorem children_store {slotSize index : Nat} {previous : Option MatArray}
    (stored : array.store slotSize name index child = .ok (previous, after))
    (member : other ∈ (struct after).children) :
    other ∈ (struct array).children ∨ other ∈ child.toSlot := by
  unfold store set at stored
  split at stored
  · obtain ⟨declared, added, stored⟩ := Outcome.bind_eq_ok.mp stored
    cases Outcome.pure_eq_ok.mp stored
    cases found : modifyFirst? (fun field => field.name == name)
        (fun field => { field with slots := field.slots.set index child.toSlot })
        declared.fields with
    | none =>
      rw [found] at member
      exact Or.inl (children_addField added member)
    | some fields =>
      rw [found] at member
      exact (children_setSlot found member).imp_left (children_addField added)
  · cases stored

theorem children_modify? {index : Nat}
    (changed : array.modify? name index (fun _ => child) = some after)
    (member : other ∈ (struct after).children) :
    other ∈ (struct array).children ∨ other = child := by
  obtain ⟨item, _, changed⟩ := Option.bind_eq_some_iff.mp changed
  obtain ⟨fields, found, changed⟩ := Option.bind_eq_some_iff.mp changed
  cases changed
  exact (children_setSlot found member).imp_right fun held => (Option.some.inj held).symm

theorem children_removeField? {slots : List (Option MatArray)}
    (removed : array.removeField? name = some (slots, after))
    (member : other ∈ (struct after).children) : other ∈ (struct array).children := by
  obtain ⟨field, _, removed⟩ := Option.bind_eq_some_iff.mp removed
  cases removed
  rw [mem_children_struct] at member ⊢
  obtain ⟨field, fieldMember, held⟩ := member
  exact ⟨field, List.mem_of_mem_eraseP fieldMember, held⟩

end StructArray

end

/-! ### Any sequence of operations -/

namespace MatArray

/-- The arrays that operations on arrays of cells and struct arrays lead to, in any number of
steps, where an edit of an array in its slot leaves only arrays with a property. Arrays without
slots are there from the start, and an array in a slot can be taken out to be edited. -/
inductive Assembled (Left : MatArray → Prop) : MatArray → Prop where
  | leaf {array : MatArray} (slotless : array.children = []) : Assembled Left array
  | unsetCells {slotSize : Nat} {name : String} {dimensions : List Nat}
      {array : CellArray MatArray} (built : CellArray.unset slotSize name dimensions = .ok array) :
      Assembled Left (.cell array)
  | cells {name : String} {dimensions : List Nat} {cells : List (Option MatArray)}
      {array : CellArray MatArray} (given : ∀ child, some child ∈ cells → Assembled Left child)
      (built : CellArray.ofArrays name dimensions cells = .ok array) : Assembled Left (.cell array)
  | storeCell {array after : CellArray MatArray} {index : Nat} {child : MatArray}
      {previous : Option MatArray} (before : Assembled Left (.cell array))
      (given : Assembled Left child) (stored : array.store index child = .ok (previous, after)) :
      Assembled Left (.cell after)
  | takeCell {array : CellArray MatArray} (before : Assembled Left (.cell array)) (index : Nat) :
      Assembled Left (.cell (array.take index).2)
  | editCell {array after : CellArray MatArray} {index : Nat} {child : MatArray}
      (before : Assembled Left (.cell array)) (edited : Assembled Left child) (left : Left child)
      (changed : array.modify? index (fun _ => child) = some after) : Assembled Left (.cell after)
  | struct {name : String} {dimensions : List Nat} {array : StructArray MatArray}
      (built : StructArray.create name dimensions = .ok array) : Assembled Left (.struct array)
  | object {name className : String} {dimensions : List Nat} {array : StructArray MatArray}
      (built : StructArray.createObject name className dimensions = .ok array) :
      Assembled Left (.struct array)
  | addField {slotSize : Nat} {array after : StructArray MatArray} {name : String}
      (before : Assembled Left (.struct array))
      (added : array.addField slotSize name = .ok after) : Assembled Left (.struct after)
  | storeSlot {slotSize : Nat} {array after : StructArray MatArray} {name : String} {index : Nat}
      {child : MatArray} {previous : Option MatArray} (before : Assembled Left (.struct array))
      (given : Assembled Left child)
      (stored : array.store slotSize name index child = .ok (previous, after)) :
      Assembled Left (.struct after)
  | editSlot {array after : StructArray MatArray} {name : String} {index : Nat}
      {child : MatArray} (before : Assembled Left (.struct array))
      (edited : Assembled Left child) (left : Left child)
      (changed : array.modify? name index (fun _ => child) = some after) :
      Assembled Left (.struct after)
  | removeField {array after : StructArray MatArray} {name : String}
      {slots : List (Option MatArray)} (before : Assembled Left (.struct array))
      (removed : array.removeField? name = some (slots, after)) : Assembled Left (.struct after)
  | relabel {array : MatArray} (before : Assembled Left array) (change : ArrayInfo → ArrayInfo) :
      Assembled Left (array.modifyInfo change)
  | takeOut {array child : MatArray} (before : Assembled Left array)
      (member : child ∈ array.children) : Assembled Left child

/-- Every array in a slot of an array is such that, if it is the one unset slots are written as,
it has a property. -/
def SlotsLeft (Left : MatArray → Prop) (array : MatArray) : Prop :=
  ∀ child ∈ array.children, child.isPlaceholder = true → Left child

/-- No slot of an array holds the array that unset slots are written as. -/
def SlotsNormal (array : MatArray) : Prop := ∀ child ∈ array.children, child.isPlaceholder = false

section

variable {Left : MatArray → Prop} {array : MatArray}

/-- What an array needs of each array in its slots. -/
theorem everywhere_slotsLeft
    (held : ∀ child ∈ array.children,
      (child.isPlaceholder = true → Left child) ∧ child.Everywhere (SlotsLeft Left)) :
    array.Everywhere (SlotsLeft Left) :=
  .intro array (fun child member => (held child member).1) fun child member =>
    (held child member).2

theorem left_of_everywhere (everywhere : array.Everywhere (SlotsLeft Left)) {child : MatArray}
    (member : child ∈ array.children) :
    (child.isPlaceholder = true → Left child) ∧ child.Everywhere (SlotsLeft Left) :=
  ⟨everywhere.here child member, everywhere.child member⟩

/-- An array that was stored is not the one unset slots are written as. -/
theorem left_of_stored {given child : MatArray} (everywhere : given.Everywhere (SlotsLeft Left))
    (stored : child ∈ given.toSlot) :
    (child.isPlaceholder = true → Left child) ∧ child.Everywhere (SlotsLeft Left) := by
  obtain ⟨normal, rfl⟩ := mem_toSlot.mp stored
  exact ⟨fun placeholder => absurd placeholder (by rw [normal]; exact Bool.false_ne_true),
    everywhere⟩

/-- The array that unset slots are written as is in a slot, at any depth, only where an edit of
an array in its slot left it. -/
theorem Assembled.slotsLeft (assembled : array.Assembled Left) :
    array.Everywhere (SlotsLeft Left) := by
  induction assembled with
  | leaf slotless =>
    refine everywhere_slotsLeft fun child member => ?_
    rw [slotless] at member
    cases member
  | unsetCells built =>
    exact everywhere_slotsLeft fun child member => absurd member (CellArray.children_unset built)
  | cells given built inductionHypothesis =>
    refine everywhere_slotsLeft fun child member => ?_
    obtain ⟨stored, storedMember, held⟩ := CellArray.children_ofArrays built member
    exact left_of_stored (inductionHypothesis stored storedMember) held
  | storeCell before given stored beforeLeft givenLeft =>
    refine everywhere_slotsLeft fun child member => ?_
    rcases CellArray.children_store stored member with old | new
    · exact left_of_everywhere beforeLeft old
    · exact left_of_stored givenLeft new
  | takeCell before index beforeLeft =>
    exact everywhere_slotsLeft fun child member =>
      left_of_everywhere beforeLeft (CellArray.children_take member)
  | editCell before edited left changed beforeLeft editedLeft =>
    refine everywhere_slotsLeft fun child member => ?_
    rcases CellArray.children_modify? changed member with old | rfl
    · exact left_of_everywhere beforeLeft old
    · exact ⟨fun _ => left, editedLeft⟩
  | struct built =>
    exact everywhere_slotsLeft fun child member =>
      absurd member (StructArray.children_of_no_fields (StructArray.fields_create built))
  | object built =>
    exact everywhere_slotsLeft fun child member =>
      absurd member (StructArray.children_of_no_fields (StructArray.fields_createObject built))
  | addField before added beforeLeft =>
    exact everywhere_slotsLeft fun child member =>
      left_of_everywhere beforeLeft (StructArray.children_addField added member)
  | storeSlot before given stored beforeLeft givenLeft =>
    refine everywhere_slotsLeft fun child member => ?_
    rcases StructArray.children_store stored member with old | new
    · exact left_of_everywhere beforeLeft old
    · exact left_of_stored givenLeft new
  | editSlot before edited left changed beforeLeft editedLeft =>
    refine everywhere_slotsLeft fun child member => ?_
    rcases StructArray.children_modify? changed member with old | rfl
    · exact left_of_everywhere beforeLeft old
    · exact ⟨fun _ => left, editedLeft⟩
  | removeField before removed beforeLeft =>
    exact everywhere_slotsLeft fun child member =>
      left_of_everywhere beforeLeft (StructArray.children_removeField? removed member)
  | relabel before change beforeLeft =>
    refine everywhere_slotsLeft fun child member => ?_
    rw [children_modifyInfo] at member
    exact left_of_everywhere beforeLeft member
  | takeOut before member beforeLeft => exact (left_of_everywhere beforeLeft member).2

end

end MatArray

/-! ### What comes back -/

/-- Slots are the same as before a change exactly when each of them is. -/
theorem sameSlots_map_iff (change : Option MatArray → Option MatArray)
    (slots : List (Option MatArray)) :
    sameSlots (slots.map change) slots = true ↔
      ∀ slot ∈ slots, sameSlot (change slot) slot = true := by
  induction slots with
  | nil => simp [sameSlots]
  | cons slot rest inductionHypothesis => simp [sameSlots, inductionHypothesis]

theorem sameSlot_of_sameFields_map {rename : String → String}
    {change : Option MatArray → Option MatArray} {fields : List (Field MatArray)}
    (same : sameFields (fields.map fun field => ⟨rename field.name, field.slots.map change⟩)
      fields = true) {field : Field MatArray} (member : field ∈ fields) {slot : Option MatArray}
    (held : slot ∈ field.slots) : sameSlot (change slot) slot = true := by
  induction fields with
  | nil => cases member
  | cons first rest inductionHypothesis =>
    obtain ⟨name, slots⟩ := first
    simp only [List.map_cons, sameFields, Bool.and_eq_true] at same
    rcases List.mem_cons.mp member with rfl | later
    · exact (sameSlots_map_iff change slots).mp same.1.2 slot held
    · exact inductionHypothesis same.2 later

namespace MatArray

/-- Every name that an array carries itself is free of NUL. -/
def Plain (array : MatArray) : Prop := ∀ name ∈ array.ownNames, NulFree name

instance (array : MatArray) : Decidable array.Plain :=
  inferInstanceAs (Decidable (∀ name ∈ array.ownNames, NulFree name))

/-- Where what is kept of an array is the same as the array, so it is in each of its slots. -/
theorem sameSlot_of_same_kept {array : MatArray} (same : array.kept.same array = true)
    {slot : Option MatArray} (member : slot ∈ array.slots) :
    sameSlot (keptSlot slot) slot = true := by
  cases array with
  | cell array =>
    obtain ⟨info, cells⟩ := array
    rw [kept_eq] at same
    simp only [mapSlots, keepHere, MatArray.same, Bool.and_eq_true] at same
    exact (sameSlots_map_iff keptSlot cells).mp same.2 slot member
  | struct array =>
    obtain ⟨info, className, fields⟩ := array
    rw [kept_struct] at same
    simp only [MatArray.same, Bool.and_eq_true] at same
    obtain ⟨field, fieldMember, held⟩ := List.mem_flatMap.mp member
    exact sameSlot_of_sameFields_map same.2 fieldMember held
  | numeric => cases member
  | char => cases member
  | sparse => cases member

/-- What is kept of a valid array without NUL in its names is the same as the array exactly when
no slot, at any depth, holds the array that unset slots are written as. -/
theorem same_kept_iff {array : MatArray} (valid : array.Everywhere Valid)
    (plain : array.Everywhere Plain) :
    array.kept.same array = true ↔ array.Everywhere SlotsNormal := by
  constructor
  · induction valid with
    | intro array here below inductionHypothesis =>
      intro same
      have child (child : MatArray) (member : child ∈ array.children) :
          child.isPlaceholder = false ∧ child.Everywhere SlotsNormal := by
        have slot := sameSlot_of_same_kept same ((mem_children array child).mp member)
        rw [keptSlot_some] at slot
        have named : NulFree child.name :=
          (plain.child member).here child.name (mem_ownNames.mpr (.inl rfl))
        cases placeholder : child.kept.isPlaceholder with
        | true =>
          rw [toSlot, if_pos placeholder] at slot
          simp [sameSlot] at slot
        | false =>
          rw [toSlot, if_neg (by rw [placeholder]; exact Bool.false_ne_true), sameSlot] at slot
          exact ⟨(isPlaceholder_kept (below child member).here named).symm.trans placeholder,
            inductionHypothesis child member (plain.child member) slot⟩
      exact .intro array (fun other member => (child other member).1)
        fun other member => (child other member).2
  · intro normal
    rw [kept_eq_settled, same_settled]
    induction valid with
    | intro array here below inductionHypothesis =>
      refine .intro array (here.wellFormed ⟨?_, fun className named => ?_, normal.here⟩)
        fun child member => inductionHypothesis child member (plain.child member)
          (normal.child member)
      · exact plain.here _ (mem_ownNames.mpr (.inl rfl))
      · exact plain.here _ (mem_ownNames.mpr (.inr (.inl named)))

/-- What becomes of the array that unset slots are written as. After any sequence of operations a
slot holds it, at any depth, only where an edit of an array in its slot left it; where no edit
leaves it, no slot holds it. If the lengths and the flags of an array are right and its names are
free of NUL, then what is read where it was written is the same array exactly when no slot, at
any depth, holds that array. -/
theorem slots_of_assembled {Left : MatArray → Prop} {array : MatArray}
    (assembled : array.Assembled Left) :
    (array.Everywhere fun node => ∀ child ∈ node.children,
        child.isPlaceholder = true → Left child) ∧
      ((∀ child, Left child → child.isPlaceholder = false) → array.Everywhere SlotsNormal) ∧
      (array.Everywhere Valid → array.Everywhere Plain →
        ∀ (order : ByteOrder) (bytes : List UInt8), array.element order = .ok bytes →
          ∀ (rest : List UInt8) (offset : Nat), ∃ (element : Element) (back : MatArray),
            (Cursor.element ⟨bytes ++ rest, offset, order⟩).result =
              .ok (element, ⟨rest, offset + bytes.length, order⟩) ∧
            (element.payload.matrix fun _ => true).result = .ok (some back) ∧
            (back.same array = true ↔ array.Everywhere SlotsNormal)) := by
  have slots := assembled.slotsLeft
  refine ⟨slots, fun never => ?_, fun valid plain order bytes written rest offset => ?_⟩
  · refine slots.imp fun node left child member => ?_
    by_contra placeholder
    rw [Bool.not_eq_false] at placeholder
    rw [never child (left child member placeholder)] at placeholder
    cases placeholder
  · obtain ⟨element, read, _, matrix⟩ := element_of_writtenArray
      (valid.imp fun _ here => here.shaped) written rest offset
    exact ⟨element, array.kept, read, matrix fun _ => true, same_kept_iff valid plain⟩

/-- A double array of no rows and no columns. -/
def emptyDouble (name : String) : MatArray := (numeric .double unsetArray).rename name

/-- Three cells, the first one with a double array of no rows and no columns. -/
def emptyDoubleCell (name : String) : CellArray MatArray :=
  ⟨⟨"c", ⟨[1, 3], by decide, by decide, by decide⟩, {}⟩, [some (emptyDouble name), none, none]⟩

theorem ofArrays_emptyDoubleCell :
    CellArray.ofArrays "c" [1, 3] [some (emptyDouble "x"), none, none] =
      .ok (emptyDoubleCell "x") :=
  rfl

theorem eq_of_mem_emptyDoubleCell {name : String} {child : MatArray}
    (member : some child ∈ [some (emptyDouble name), none, none]) : child = emptyDouble name := by
  simpa using member

theorem modify?_emptyDoubleCell :
    (emptyDoubleCell "x").modify? 0 (fun _ => emptyDouble "") = some (emptyDoubleCell "") :=
  rfl

/-- Taking its name from a double array of no rows and no columns in its cell leaves the array
there that unset cells are written as. -/
theorem constructed_emptyDoubleCell :
    (MatArray.cell (emptyDoubleCell "")).Constructed ∧
      ¬ (MatArray.cell (emptyDoubleCell "")).Everywhere SlotsNormal := by
  have empty (name : String) : (emptyDouble name).Constructed := by
    have built : (NumericArray.zeros name [0, 0] : Checked.Computation (NumericArray .double)) =
      .ok { unsetArray with info := unsetArray.info.rename name } := rfl
    exact .zeros built
  have filled : (MatArray.cell (emptyDoubleCell "x")).Constructed := by
    refine .cells (fun child member => ?_) ofArrays_emptyDoubleCell
    rw [eq_of_mem_emptyDoubleCell member]
    exact empty "x"
  refine ⟨.changeCell filled ((empty "x").rename "") modify?_emptyDoubleCell, fun normal => ?_⟩
  exact absurd (normal.here _ List.mem_cons_self) (by decide)

theorem slots_of_assembled_emptyDoubleCell :
    (MatArray.cell (emptyDoubleCell "")).Assembled (· = emptyDouble "") ∧
      ∃ (bytes : List UInt8) (element : Element) (back : MatArray),
        (MatArray.cell (emptyDoubleCell "")).element .little = .ok bytes ∧
        (Cursor.element ⟨bytes ++ [], 0, .little⟩).result =
          .ok (element, ⟨[], 0 + bytes.length, .little⟩) ∧
        (element.payload.matrix fun _ => true).result = .ok (some back) ∧
        back.same (.cell (emptyDoubleCell "")) = false := by
  have filled : (MatArray.cell (emptyDoubleCell "x")).Assembled (· = emptyDouble "") := by
    refine .cells (fun child member => ?_) ofArrays_emptyDoubleCell
    rw [eq_of_mem_emptyDoubleCell member]
    exact .leaf rfl
  have assembled : (MatArray.cell (emptyDoubleCell "")).Assembled (· = emptyDouble "") :=
    .editCell filled (.leaf rfl) rfl modify?_emptyDoubleCell
  obtain ⟨constructed, broken⟩ := constructed_emptyDoubleCell
  have plain : (MatArray.cell (emptyDoubleCell "")).Everywhere Plain := by
    refine .intro _ (by decide) fun child member => ?_
    rw [List.mem_singleton.mp member]
    exact everywhere_of_leaf (by decide) rfl
  have succeeds : ((MatArray.cell (emptyDoubleCell "")).element .little).isOk = true := by
    decide +kernel
  cases written : (MatArray.cell (emptyDoubleCell "")).element .little with
  | error fault =>
    rw [written] at succeeds
    cases succeeds
  | ok bytes =>
    obtain ⟨element, back, read, matrix, same⟩ := (slots_of_assembled assembled).2.2
      constructed.valid plain .little bytes written [] 0
    refine ⟨assembled, bytes, element, back, rfl, read, matrix, ?_⟩
    rw [← Bool.not_eq_true, same]
    exact broken

end MatArray

end MatFormat
