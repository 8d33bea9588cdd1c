/-
This file says what of an array is kept when it is written and read again. Names are cut
before their first NUL, the flag of complex arrays is set from the imaginary parts, a sparse
matrix declares all the room it has, and a slot that then holds the array that an unset slot
is written as is unset. Of a well-formed array everything is kept but a declared capacity
below the entries, which never counts: the array is only settled, and the same as before.
-/

import MatFormat.Array.Same
import MatFormat.Proofs.WellFormed

namespace MatFormat

namespace MatArray

/-! ### What is kept -/

/-- The name, the shape and the flags that are kept. -/
def keptInfo (array : MatArray) : ArrayInfo :=
  ⟨cutName array.name, array.info.shape, array.writtenFlags⟩

theorem shape_keptInfo (array : MatArray) : array.keptInfo.shape = array.info.shape := rfl

theorem complex_keptInfo (array : MatArray) :
    array.keptInfo.flags.complex = array.isComplex := by
  rw [keptInfo, writtenFlags_eq]

/-- What is kept of an array itself, whatever its slots hold. -/
def keepHere : MatArray → MatArray
  | numeric numericClass array =>
    numeric numericClass { array with info := (numeric numericClass array).keptInfo }
  | char array => char { array with info := (char array).keptInfo }
  | cell array => cell { array with info := (cell array).keptInfo }
  | struct array =>
    struct
      { info := (struct array).keptInfo
        className := array.className.map cutName
        fields := array.fields.map fun field => { field with name := cutName field.name } }
  | sparse array =>
    sparse { array with info := (sparse array).keptInfo, capacity := array.room }

/-- What is kept of an array. -/
def kept : MatArray → MatArray := rebuild keepHere toSlot

/-- What is kept in a slot. -/
def keptSlot : Option MatArray → Option MatArray := rebuildSlot keepHere toSlot

theorem kept_eq (array : MatArray) : array.kept = (array.mapSlots keptSlot).keepHere :=
  rebuild_eq keepHere toSlot array

@[simp] theorem keptSlot_none : keptSlot none = none := by
  rw [keptSlot, rebuildSlot]

@[simp] theorem keptSlot_some (array : MatArray) : keptSlot (some array) = array.kept.toSlot := by
  rw [keptSlot, rebuildSlot, kept]

theorem kept_struct (array : StructArray MatArray) :
    (struct array).kept =
      struct
        { info := (struct array).keptInfo
          className := array.className.map cutName
          fields := array.fields.map fun field =>
            ⟨cutName field.name, field.slots.map keptSlot⟩ } := by
  rw [kept_eq, mapSlots, keepHere, List.map_map]
  rfl

/-! ### Settled arrays -/

/-- A sparse matrix that declares all the room it has; any other array as it is. -/
def settleHere : MatArray → MatArray
  | sparse array => sparse { array with capacity := array.room }
  | array => array

/-- An array whose sparse matrices, at every depth, declare all the room they have. -/
def settled : MatArray → MatArray := rebuild settleHere some

/-- What a slot holds once it is settled. -/
def settledSlot : Option MatArray → Option MatArray := rebuildSlot settleHere some

theorem settled_eq (array : MatArray) : array.settled = (array.mapSlots settledSlot).settleHere :=
  rebuild_eq settleHere some array

@[simp] theorem settledSlot_none : settledSlot none = none := by
  rw [settledSlot, rebuildSlot]

@[simp] theorem settledSlot_some (array : MatArray) :
    settledSlot (some array) = some array.settled := by
  rw [settledSlot, rebuildSlot, settled]

theorem info_settled (array : MatArray) : array.settled.info = array.info := by
  rw [settled_eq]
  cases array <;> rfl

theorem isPlaceholder_settled (array : MatArray) :
    array.settled.isPlaceholder = array.isPlaceholder := by
  rw [settled_eq]
  cases array <;> rfl

/-! ### What is kept of a well-formed array -/

theorem keptInfo_eq_self {array : MatArray}
    (complex : array.info.flags.complex = array.isComplex) (name : NulFree array.name) :
    array.keptInfo = array.info := by
  rw [keptInfo, (cutName_eq_self_iff _).mpr name, writtenFlags_eq_self complex]
  rfl

/-- Of an array without NUL in its names and with the right flags, everything but a declared
capacity is kept. -/
theorem keepHere_eq_settleHere {array : MatArray}
    (complex : array.info.flags.complex = array.isComplex)
    (names : ∀ name ∈ array.ownNames, NulFree name) : array.keepHere = array.settleHere := by
  have info := keptInfo_eq_self complex (names _ (mem_ownNames.mpr (Or.inl rfl)))
  cases array with
  | numeric => rw [keepHere, info]; rfl
  | char => rw [keepHere, info]; rfl
  | cell => rw [keepHere, info]; rfl
  | sparse => rw [keepHere, info]; rfl
  | struct array =>
    have className : array.className.map cutName = array.className :=
      (optionMap_cutName_eq_self_iff _).mpr fun className named =>
        names className (mem_ownNames.mpr (Or.inr (Or.inl named)))
    have fields : (array.fields.map fun field => { field with name := cutName field.name }) =
        array.fields := by
      refine (List.map_congr_left fun field member => ?_).trans (List.map_id _)
      have declared : field.name ∈ (struct array).fieldNames := List.mem_map_of_mem member
      rw [(cutName_eq_self_iff _).mpr (names _ (mem_ownNames.mpr (Or.inr (Or.inr declared)))), id]
    rw [keepHere, info, className, fields]
    rfl

theorem isComplex_mapSlots (change : Option MatArray → Option MatArray) (array : MatArray) :
    (array.mapSlots change).isComplex = array.isComplex := by
  cases array <;> rfl

theorem ownNames_mapSlots (change : Option MatArray → Option MatArray) (array : MatArray) :
    (array.mapSlots change).ownNames = array.ownNames := by
  cases array with
  | struct array =>
    simp only [mapSlots, ownNames, StructArray.fieldNames, List.map_map]
    rfl
  | _ => rfl

/-- A well-formed array is kept, but for a declared capacity below the entries. -/
theorem kept_eq_settled {array : MatArray} (wellFormed : array.Everywhere WellFormed) :
    array.kept = array.settled := by
  induction wellFormed with
  | intro array here below inductionHypothesis =>
    have slots : array.mapSlots keptSlot = array.mapSlots settledSlot := by
      refine mapSlots_congr (by rw [keptSlot_none, settledSlot_none]) fun child member => ?_
      have placeholder : child.settled.isPlaceholder = false := by
        rw [isPlaceholder_settled, here.slots child member]
      rw [keptSlot_some, settledSlot_some, inductionHypothesis child member, toSlot,
        if_neg (by rw [placeholder]; exact Bool.false_ne_true)]
    rw [kept_eq, settled_eq, slots]
    apply keepHere_eq_settleHere
    · rw [info_mapSlots, isComplex_mapSlots, here.complex_eq]
    · rw [ownNames_mapSlots]
      exact here.names

/-! ### Settled arrays are the same -/

theorem room_settled (array : SparseArray) :
    SparseArray.room { array with capacity := array.room } = array.room :=
  Nat.max_eq_left (Nat.le_max_right _ _)

end MatArray

theorem NumericClass.same_self (numericClass : NumericClass) (value : numericClass.Value) :
    numericClass.same value value = true := by
  unfold same
  split <;> simp

theorem NumericClass.sameRun_self (numericClass : NumericClass)
    (values : List numericClass.Value) : numericClass.sameRun values values = true := by
  induction values with
  | nil => rfl
  | cons value rest inductionHypothesis =>
    rw [sameRun, same_self, inductionHypothesis]
    rfl

theorem NumericClass.sameRun?_self (numericClass : NumericClass)
    (values : Option (List numericClass.Value)) : numericClass.sameRun? values values = true := by
  cases values with
  | none => rfl
  | some values => exact sameRun_self numericClass values

theorem NumericArray.same_self {numericClass : NumericClass} (array : NumericArray numericClass) :
    array.same array = true := by
  rw [same, numericClass.sameRun_self, numericClass.sameRun?_self, beq_self_eq_true]
  rfl

theorem sameSlots_map (change : MatArray → MatArray) {slots : List (Option MatArray)}
    (same : ∀ child, some child ∈ slots → (change child).same child = true) :
    sameSlots (slots.map (Option.map change)) slots = true := by
  induction slots with
  | nil => rw [List.map_nil, sameSlots]
  | cons slot rest inductionHypothesis =>
    have tail := inductionHypothesis fun child member => same child (List.mem_cons_of_mem _ member)
    cases slot with
    | none => rw [List.map_cons, Option.map_none, sameSlots, sameSlot, tail]; rfl
    | some child =>
      rw [List.map_cons, Option.map_some, sameSlots, sameSlot, same child List.mem_cons_self, tail]
      rfl

theorem sameFields_map (change : MatArray → MatArray) {fields : List (Field MatArray)}
    (same : ∀ field ∈ fields, ∀ child, some child ∈ field.slots →
      (change child).same child = true) :
    sameFields (fields.map fun field => { field with slots := field.slots.map (Option.map change) })
      fields = true := by
  induction fields with
  | nil => rw [List.map_nil, sameFields]
  | cons field rest inductionHypothesis =>
    have tail := inductionHypothesis fun other member => same other (List.mem_cons_of_mem _ member)
    rw [List.map_cons, sameFields, sameSlots_map change (same field List.mem_cons_self), tail,
      beq_self_eq_true]
    rfl

namespace MatArray

theorem settledSlot_eq : settledSlot = Option.map settled := by
  funext slot
  cases slot with
  | none => exact settledSlot_none
  | some array => exact settledSlot_some array

/-- A settled array is the same as before. -/
theorem same_settled (array : MatArray) : array.settled.same array = true := by
  induction array using tree_induction with
  | step array inductionHypothesis =>
    rw [settled_eq, settledSlot_eq]
    cases array with
    | numeric numericClass array =>
      simp only [mapSlots, settleHere, same, dif_pos, array.same_self]
    | char array => simp [mapSlots, settleHere, same]
    | cell array =>
      have slots := sameSlots_map settled fun child member =>
        inductionHypothesis child ((mem_children_cell array child).mpr member)
      obtain ⟨info, cells⟩ := array
      simp only [mapSlots, settleHere, same, slots, beq_self_eq_true, Bool.and_self]
    | struct array =>
      obtain ⟨info, className, fields⟩ := array
      have inside := sameFields_map settled fun field fieldMember child member =>
        inductionHypothesis child
          ((mem_children_struct ⟨info, className, fields⟩ child).mpr ⟨field, fieldMember, member⟩)
      simp only [mapSlots, settleHere, same, inside, beq_self_eq_true, Bool.and_self]
    | sparse array =>
      simp only [mapSlots, settleHere, same, SparseArray.same, room_settled, beq_self_eq_true,
        NumericClass.sameRun_self, NumericClass.sameRun?_self, Bool.and_self]

end MatArray

end MatFormat
