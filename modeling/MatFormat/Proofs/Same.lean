/-
This file proves what it means that arrays are the same. Giving one bit pattern to every value
that is not a number, and settling the capacities of sparse matrices, brings every array to a
form in which two arrays are equal exactly when they were the same; so being the same is an
equivalence. Without values that are not numbers this form is the settled array. An array and
its settled form are written alike, and the settled form of a well-formed array is what is read
back, so of such arrays those that are the same are exactly those with the same bytes.
-/

import MatFormat.Proofs.Matrix.Rewrite
import MatFormat.Proofs.Matrix.RoundTrip

namespace MatFormat

/-! ### Values -/

namespace NumericClass

variable (numericClass : NumericClass)

/-- Whether a value is not a number, which is so only in the floating point classes. -/
def isNotANumber (value : numericClass.Value) : Bool :=
  match numericClass.form with
  | .float format => format.isNotANumber value.toNat
  | _ => false

/-- A value, or for one that is not a number always the same pattern. -/
def unify (value : numericClass.Value) : numericClass.Value :=
  if numericClass.isNotANumber value then BitVec.allOnes _ else value

theorem isNotANumber_allOnes {value : numericClass.Value}
    (unspelled : numericClass.isNotANumber value = true) :
    numericClass.isNotANumber (BitVec.allOnes _) = true := by
  cases numericClass <;> first | cases unspelled | decide

theorem same_iff_unify (first second : numericClass.Value) :
    numericClass.same first second = true ↔
      numericClass.unify first = numericClass.unify second := by
  have same : numericClass.same first second =
      (first == second || numericClass.isNotANumber first && numericClass.isNotANumber second) := by
    unfold NumericClass.same isNotANumber
    cases numericClass.form with
    | float format => rfl
    | signed => exact (Bool.or_false _).symm
    | unsigned => exact (Bool.or_false _).symm
  rw [same, Bool.or_eq_true, Bool.and_eq_true, beq_iff_eq, unify, unify]
  constructor
  · rintro (rfl | ⟨unspelled, otherUnspelled⟩)
    · rfl
    · rw [if_pos unspelled, if_pos otherUnspelled]
  · intro equal
    by_cases unspelled : numericClass.isNotANumber first = true <;>
      by_cases otherUnspelled : numericClass.isNotANumber second = true
    · exact .inr ⟨unspelled, otherUnspelled⟩
    · -- The common pattern is itself not a number, so it is not a value that is one.
      rw [if_pos unspelled, if_neg otherUnspelled] at equal
      exact absurd (equal ▸ numericClass.isNotANumber_allOnes unspelled) otherUnspelled
    · rw [if_neg unspelled, if_pos otherUnspelled] at equal
      exact absurd (equal ▸ numericClass.isNotANumber_allOnes otherUnspelled) unspelled
    · rw [if_neg unspelled, if_neg otherUnspelled] at equal
      exact .inl equal

theorem sameRun_iff_unify (first second : List numericClass.Value) :
    numericClass.sameRun first second = true ↔
      first.map numericClass.unify = second.map numericClass.unify := by
  induction first generalizing second with
  | nil => cases second <;> simp [sameRun]
  | cons value first inductionHypothesis =>
    cases second with
    | nil => simp [sameRun]
    | cons other second =>
      rw [sameRun, Bool.and_eq_true, same_iff_unify, inductionHypothesis, List.map_cons,
        List.map_cons, List.cons.injEq]

theorem sameRun?_iff_unify (first second : Option (List numericClass.Value)) :
    numericClass.sameRun? first second = true ↔
      first.map (List.map numericClass.unify) = second.map (List.map numericClass.unify) := by
  cases first with
  | none => cases second <;> simp [sameRun?]
  | some first =>
    cases second with
    | none => simp [sameRun?]
    | some second =>
      rw [sameRun?, sameRun_iff_unify, Option.map_some, Option.map_some, Option.some.injEq]

theorem map_unify_eq_self {values : List numericClass.Value}
    (numbers : ∀ value ∈ values, numericClass.isNotANumber value = false) :
    values.map numericClass.unify = values := by
  refine (List.map_congr_left fun value member => ?_).trans (List.map_id values)
  rw [unify, numbers value member, if_neg Bool.false_ne_true, id]

end NumericClass

/-! ### Unified arrays -/

namespace MatArray

/-- An array itself with one pattern for all values that are not numbers and, if it is sparse,
with all the room it has declared. -/
def unifyHere : MatArray → MatArray
  | numeric numericClass array =>
    numeric numericClass
      { array with
        real := array.real.map numericClass.unify
        imag := array.imag.map (List.map numericClass.unify) }
  | sparse array =>
    sparse
      { array with
        capacity := array.room
        real := array.real.map NumericClass.double.unify
        imag := array.imag.map (List.map NumericClass.double.unify) }
  | array => array

/-- An array that is unified in this way at every depth. -/
def unified : MatArray → MatArray := rebuild unifyHere some

theorem unified_eq (array : MatArray) :
    array.unified = (array.mapSlots (Option.map unified)).unifyHere := by
  rw [unified, rebuild_eq, rebuildSlot_some_eq_map]

end MatArray

theorem NumericArray.same_iff_unify {numericClass : NumericClass}
    (first second : NumericArray numericClass) :
    first.same second = true ↔
      MatArray.unifyHere (.numeric _ first) = MatArray.unifyHere (.numeric _ second) := by
  obtain ⟨info, real, imag⟩ := first
  obtain ⟨otherInfo, otherReal, otherImag⟩ := second
  simp only [same, MatArray.unifyHere, Bool.and_eq_true, beq_iff_eq,
    NumericClass.sameRun_iff_unify, NumericClass.sameRun?_iff_unify, MatArray.numeric.injEq,
    heq_eq_eq, NumericArray.mk.injEq, true_and, and_assoc]

theorem SparseArray.same_iff_unify (first second : SparseArray) :
    first.same second = true ↔
      MatArray.unifyHere (.sparse first) = MatArray.unifyHere (.sparse second) := by
  obtain ⟨info, capacity, columnPointers, rowIndices, real, imag⟩ := first
  obtain ⟨otherInfo, otherCapacity, otherPointers, otherIndices, otherReal, otherImag⟩ := second
  simp only [same, MatArray.unifyHere, Bool.and_eq_true, beq_iff_eq,
    NumericClass.sameRun_iff_unify, NumericClass.sameRun?_iff_unify, MatArray.sparse.injEq,
    SparseArray.mk.injEq, and_assoc]

variable {change : MatArray → MatArray}

theorem sameSlots_iff_map {slots : List (Option MatArray)}
    (alike : ∀ child, some child ∈ slots → ∀ other : MatArray,
      child.same other = true ↔ change child = change other) (others : List (Option MatArray)) :
    sameSlots slots others = true ↔
      slots.map (Option.map change) = others.map (Option.map change) := by
  induction slots generalizing others with
  | nil => cases others <;> simp [sameSlots]
  | cons slot rest inductionHypothesis =>
    cases others with
    | nil => simp [sameSlots]
    | cons other otherRest =>
      have head : sameSlot slot other = true ↔ slot.map change = other.map change := by
        cases slot with
        | none => cases other <;> simp [sameSlot]
        | some child =>
          cases other with
          | none => simp [sameSlot]
          | some otherChild =>
            rw [sameSlot, alike child List.mem_cons_self, Option.map_some, Option.map_some,
              Option.some.injEq]
      rw [sameSlots, Bool.and_eq_true, head, inductionHypothesis fun child member =>
        alike child (List.mem_cons_of_mem _ member), List.map_cons, List.map_cons,
        List.cons.injEq]

theorem sameFields_iff_map {fields : List (Field MatArray)}
    (alike : ∀ field ∈ fields, ∀ child, some child ∈ field.slots → ∀ other : MatArray,
      child.same other = true ↔ change child = change other) (others : List (Field MatArray)) :
    sameFields fields others = true ↔
      (fields.map fun field => { field with slots := field.slots.map (Option.map change) }) =
        others.map fun field => { field with slots := field.slots.map (Option.map change) } := by
  induction fields generalizing others with
  | nil => cases others <;> simp [sameFields]
  | cons field rest inductionHypothesis =>
    cases others with
    | nil => simp [sameFields]
    | cons other otherRest =>
      rw [sameFields, Bool.and_eq_true, Bool.and_eq_true, beq_iff_eq,
        sameSlots_iff_map (alike field List.mem_cons_self), inductionHypothesis fun field member =>
        alike field (List.mem_cons_of_mem _ member), List.map_cons, List.map_cons,
        List.cons.injEq, Field.mk.injEq]

namespace MatArray

/-- Two arrays are the same exactly when they are equal once they are unified. -/
theorem same_iff_unified (first second : MatArray) :
    first.same second = true ↔ first.unified = second.unified := by
  induction first using tree_induction generalizing second with
  | step array inductionHypothesis =>
    rw [unified_eq, unified_eq]
    cases array with
    | numeric numericClass array =>
      cases second with
      | numeric other second =>
        by_cases equal : numericClass = other
        · subst equal
          simp only [same, dif_pos]
          exact array.same_iff_unify second
        · simp [same, equal, mapSlots, unifyHere]
      | _ => simp [same, mapSlots, unifyHere]
    | char array =>
      cases second with
      | char second => simp [same, mapSlots, unifyHere]
      | _ => simp [same, mapSlots, unifyHere]
    | cell array =>
      cases second with
      | cell second =>
        obtain ⟨info, cells⟩ := array
        obtain ⟨otherInfo, otherCells⟩ := second
        have slots := sameSlots_iff_map (fun child member => inductionHypothesis child
          ((mem_children_cell ⟨info, cells⟩ child).mpr member)) otherCells
        simp only [same, mapSlots, unifyHere, Bool.and_eq_true, beq_iff_eq, slots,
          MatArray.cell.injEq, CellArray.mk.injEq]
      | _ => simp [same, mapSlots, unifyHere]
    | struct array =>
      cases second with
      | struct second =>
        obtain ⟨info, className, fields⟩ := array
        obtain ⟨otherInfo, otherClassName, otherFields⟩ := second
        have inside := sameFields_iff_map (fun field fieldMember child member =>
          inductionHypothesis child ((mem_children_struct ⟨info, className, fields⟩ child).mpr
            ⟨field, fieldMember, member⟩)) otherFields
        simp only [same, mapSlots, unifyHere, Bool.and_eq_true, beq_iff_eq, inside,
          MatArray.struct.injEq, StructArray.mk.injEq, and_assoc]
      | _ => simp [same, mapSlots, unifyHere]
    | sparse array =>
      cases second with
      | sparse second =>
        simp only [same]
        exact array.same_iff_unify second
      | _ => simp [same, mapSlots, unifyHere]

/-- Being the same is an equivalence. -/
theorem same_equivalence : Equivalence fun first second : MatArray => first.same second = true where
  refl array := (same_iff_unified array array).mpr rfl
  symm same := (same_iff_unified _ _).mpr ((same_iff_unified _ _).mp same).symm
  trans same next := (same_iff_unified _ _).mpr
    (((same_iff_unified _ _).mp same).trans ((same_iff_unified _ _).mp next))

/-! ### Numbers only -/

/-- Every value of an array itself is a number. -/
def OnlyNumbers : MatArray → Prop
  | numeric numericClass array =>
    ∀ value ∈ array.real ++ array.imag.getD [], numericClass.isNotANumber value = false
  | sparse array =>
    ∀ value ∈ array.real ++ array.imag.getD [], NumericClass.double.isNotANumber value = false
  | _ => True

theorem onlyNumbers_mapSlots {change : Option MatArray → Option MatArray} {array : MatArray}
    (only : array.OnlyNumbers) : (array.mapSlots change).OnlyNumbers := by
  cases array <;> exact only

theorem map_unify_imag_eq_self {numericClass : NumericClass}
    {imag : Option (List numericClass.Value)}
    (numbers : ∀ value ∈ imag.getD [], numericClass.isNotANumber value = false) :
    imag.map (List.map numericClass.unify) = imag := by
  cases imag with
  | none => rfl
  | some values => exact congrArg some (numericClass.map_unify_eq_self numbers)

/-- Where there are only numbers, unifying does no more than settling. -/
theorem unifyHere_eq_settleHere {array : MatArray} (only : array.OnlyNumbers) :
    array.unifyHere = array.settleHere := by
  cases array with
  | numeric numericClass array =>
    obtain ⟨real, imag⟩ := List.forall_mem_append.mp only
    rw [unifyHere, numericClass.map_unify_eq_self real, map_unify_imag_eq_self imag]
    rfl
  | sparse array =>
    obtain ⟨real, imag⟩ := List.forall_mem_append.mp only
    rw [unifyHere, NumericClass.map_unify_eq_self _ real, map_unify_imag_eq_self imag]
    rfl
  | char => rfl
  | cell => rfl
  | struct => rfl

theorem unified_eq_settled {array : MatArray} (only : array.Everywhere OnlyNumbers) :
    array.unified = array.settled := by
  induction only with
  | intro array here below inductionHypothesis =>
    have slots : array.mapSlots (Option.map unified) = array.mapSlots (Option.map settled) :=
      mapSlots_congr rfl fun child member => congrArg some (inductionHypothesis child member)
    rw [unified_eq, settled_eq, settledSlot_eq, slots]
    exact unifyHere_eq_settleHere (onlyNumbers_mapSlots here)

/-- Arrays of numbers only are the same exactly when they are equal once they are settled. -/
theorem same_iff_settled {first second : MatArray} (only : first.Everywhere OnlyNumbers)
    (otherOnly : second.Everywhere OnlyNumbers) :
    first.same second = true ↔ first.settled = second.settled := by
  rw [same_iff_unified, unified_eq_settled only, unified_eq_settled otherOnly]

/-! ### Bytes -/

variable {order : ByteOrder}

theorem element_settled (array : MatArray) : array.settled.element order = array.element order := by
  rw [element_eq, element_eq, settled, encode_rebuild encode_settleHere]

/-- Well-formed arrays with the same bytes are equal once they are settled, because that is what is
read from the bytes. -/
theorem settled_eq_of_written {first second : MatArray} (wellFormed : first.Everywhere WellFormed)
    (otherWellFormed : second.Everywhere WellFormed) {bytes : List UInt8}
    (written : first.element order = .ok bytes) (otherWritten : second.element order = .ok bytes) :
    first.settled = second.settled := by
  obtain ⟨element, read, _, matrix⟩ := element_of_writtenArray
    (wellFormed.imp fun _ here => here.shaped) written [] 0
  obtain ⟨other, otherRead, _, otherMatrix⟩ := element_of_writtenArray
    (otherWellFormed.imp fun _ here => here.shaped) otherWritten [] 0
  obtain rfl : element = other :=
    (Prod.mk.inj (Except.ok.inj (read.symm.trans otherRead))).1
  have kept := Except.ok.inj ((matrix fun _ => true).symm.trans (otherMatrix fun _ => true))
  rw [← kept_eq_settled wellFormed, ← kept_eq_settled otherWellFormed]
  exact Option.some.inj kept

end MatArray

/-- Being the same is an equivalence of arrays, whatever values they hold. Where all values are
numbers it is equality but for the capacities of sparse matrices below their entries, and arrays
that are well formed and could be written are the same exactly when their bytes are. -/
theorem same_iff_written :
    (Equivalence fun first second : MatArray => first.same second = true) ∧
      ∀ first second : MatArray, first.Everywhere MatArray.OnlyNumbers →
        second.Everywhere MatArray.OnlyNumbers →
          (first.same second = true ↔ first.settled = second.settled) ∧
          ∀ (order : ByteOrder) (firstBytes secondBytes : List UInt8),
            first.Everywhere MatArray.WellFormed → second.Everywhere MatArray.WellFormed →
            first.element order = .ok firstBytes → second.element order = .ok secondBytes →
              (first.same second = true ↔ firstBytes = secondBytes) := by
  refine ⟨MatArray.same_equivalence, fun first second only otherOnly => ?_⟩
  have settled := MatArray.same_iff_settled only otherOnly
  refine ⟨settled, fun order firstBytes secondBytes wellFormed otherWellFormed written
    otherWritten => settled.trans ⟨fun equal => ?_, fun equal => ?_⟩⟩
  · rw [← MatArray.element_settled, equal, MatArray.element_settled, otherWritten] at written
    exact (Except.ok.inj written).symm
  · exact MatArray.settled_eq_of_written wellFormed otherWellFormed written (equal ▸ otherWritten)

/-- A double that is zero, of either sign. -/
def signedZero (negative : Bool) : MatArray :=
  .numeric .double
    ⟨⟨"z", complexScalar.info.shape, {}⟩,
      [BitVec.ofNat _ (if negative then 0x8000000000000000 else 0)], none⟩

theorem wellFormed_signedZero (negative : Bool) :
    (signedZero negative).Everywhere MatArray.WellFormed := by
  have plain : NulFree "z" := by decide
  refine .intro _ ⟨⟨⟨rfl, nofun⟩, fun _ => rfl, nofun, fun name member => ?_⟩, nofun⟩ nofun
  rw [List.mem_singleton.mp member]
  exact plain

theorem onlyNumbers_signedZero (negative : Bool) :
    (signedZero negative).Everywhere MatArray.OnlyNumbers := by
  refine .intro _ (fun value member => ?_) nofun
  rw [List.mem_singleton.mp member]
  cases negative <;> decide

/-- A sparse matrix of one entry that has declared some room. -/
def oneEntry (capacity : Nat) : MatArray :=
  .sparse
    ⟨⟨"s", complexScalar.info.shape, {}⟩, capacity, [0, 1], [0], [BitVec.ofNat _ 1], none⟩

theorem wellFormed_oneEntry (capacity : Nat) :
    (oneEntry capacity).Everywhere MatArray.WellFormed := by
  have plain : NulFree "s" := by decide
  have ascending : [0, 1].Pairwise (· ≤ ·) := by decide
  have inside : ∀ row ∈ [0], row < 1 := by decide
  refine .intro _ ⟨⟨⟨rfl, rfl, ascending, rfl, inside, rfl, nofun⟩, fun _ => rfl, nofun,
    fun name member => ?_⟩, nofun⟩ nofun
  rw [List.mem_singleton.mp member]
  exact plain

theorem onlyNumbers_oneEntry (capacity : Nat) :
    (oneEntry capacity).Everywhere MatArray.OnlyNumbers := by
  have number : NumericClass.double.isNotANumber (BitVec.ofNat _ 1) = false := by decide
  refine .intro _ (fun value member => ?_) nofun
  rw [List.mem_singleton.mp member]
  exact number

/-- The two zeros are written apart; room that is declared below the entries is not. -/
theorem same_iff_written_signedZero :
    (∃ bytes otherBytes : List UInt8, (signedZero false).element .little = .ok bytes ∧
      (signedZero true).element .little = .ok otherBytes ∧ bytes ≠ otherBytes) ∧
      ∃ bytes : List UInt8, (oneEntry 0).element .big = .ok bytes ∧
        (oneEntry 1).element .big = .ok bytes := by
  constructor
  · obtain ⟨bytes, written⟩ := Outcome.exists_of_isOk
      (show ((signedZero false).element .little).isOk = true by decide +kernel)
    obtain ⟨otherBytes, otherWritten⟩ := Outcome.exists_of_isOk
      (show ((signedZero true).element .little).isOk = true by decide +kernel)
    have agree := (same_iff_written.2 _ _
      (onlyNumbers_signedZero false) (onlyNumbers_signedZero true)).2 .little bytes otherBytes
      (wellFormed_signedZero false) (wellFormed_signedZero true) written otherWritten
    have differ : (signedZero false).same (signedZero true) = false := by
      rw [signedZero, signedZero, MatArray.same, dif_pos rfl]
      decide
    exact ⟨bytes, otherBytes, written, otherWritten, fun equal =>
      Bool.false_ne_true (differ ▸ agree.mpr equal)⟩
  · obtain ⟨bytes, written⟩ := Outcome.exists_of_isOk
      (show ((oneEntry 0).element .big).isOk = true by decide +kernel)
    obtain ⟨otherBytes, otherWritten⟩ := Outcome.exists_of_isOk
      (show ((oneEntry 1).element .big).isOk = true by decide +kernel)
    have agree := (same_iff_written.2 _ _
      (onlyNumbers_oneEntry 0) (onlyNumbers_oneEntry 1)).2 .big bytes otherBytes
      (wellFormed_oneEntry 0) (wellFormed_oneEntry 1) written otherWritten
    have same : (oneEntry 0).same (oneEntry 1) = true := by
      rw [oneEntry, oneEntry, MatArray.same]
      decide
    exact ⟨bytes, written, agree.mp same ▸ otherWritten⟩

end MatFormat
