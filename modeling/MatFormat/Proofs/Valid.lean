/-
This file says what construction makes sure of, and proves it operation by operation. An
array that was built from its parts has parts as long as its shape asks for, is marked as
complex exactly when it has imaginary parts, and has no NUL in the names of its fields. Its
own name and that of its class are not looked at, whoever sets them.
-/

import MatFormat.Proofs.Outcome
import MatFormat.Proofs.WellFormed

namespace MatFormat

/-! ### Shape and flags of a new array -/

namespace ArrayInfo

theorem of_create {name : String} {dimensions : List Nat} {info : ArrayInfo}
    (created : create name dimensions = .ok info) :
    info.name = name ∧ info.shape.dimensions = dimensions ∧ info.flags = {} := by
  unfold create at created
  cases shaped : Shape.ofDimensions dimensions with
  | error reason =>
    rw [shaped] at created
    cases created
  | ok shape =>
    rw [shaped] at created
    cases created
    exact ⟨rfl, Shape.dimensions_of_ofDimensions shaped, rfl⟩

theorem not_complex_of_create {name : String} {dimensions : List Nat} {info : ArrayInfo}
    (created : create name dimensions = .ok info) : info.flags.complex = false := by
  rw [(of_create created).2.2]

theorem checkCount_eq_ok {info : ArrayInfo} {actual : Nat} :
    info.checkCount actual = .ok () ↔ actual = info.shape.count := by
  unfold checkCount
  split
  · rename_i equal
    exact ⟨fun _ => equal.symm, fun _ => rfl⟩
  · rename_i differs
    exact ⟨nofun, fun equal => absurd equal.symm differs⟩

end ArrayInfo

/-- A way to make an array of items in column-major order: the dimensions must be those of a
shape, and ask for as many items as there are. -/
def Makes {Item Made : Type} (name : String) (make : List Nat → List Item → Except Error Made)
    (wrap : ArrayInfo → List Item → Made) : Prop :=
  ∀ dimensions items made, make dimensions items = .ok made ↔
    ∃ info, ArrayInfo.create name dimensions = .ok info ∧ items.length = info.shape.count ∧
      made = wrap info items

theorem makes_of_checkCount {Item Made : Type} (name : String)
    (wrap : ArrayInfo → List Item → Made) :
    Makes name (fun dimensions items => do
      let info ← ArrayInfo.create name dimensions
      info.checkCount items.length
      pure (wrap info items)) wrap := by
  intro dimensions items made
  constructor
  · intro built
    obtain ⟨info, created, built⟩ := Outcome.bind_eq_ok.mp built
    obtain ⟨_, counted, built⟩ := Outcome.bind_eq_ok.mp built
    exact ⟨info, created, ArrayInfo.checkCount_eq_ok.mp counted,
      (Outcome.pure_eq_ok.mp built).symm⟩
  · rintro ⟨info, created, counted, rfl⟩
    dsimp only
    rw [Outcome.bind_of_ok created, Outcome.bind_of_ok (ArrayInfo.checkCount_eq_ok.mpr counted)]
    rfl

namespace MatArray

/-- What every operation on arrays makes sure of. -/
structure Valid (array : MatArray) : Prop where
  shaped : array.Shaped
  complex : array.info.flags.complex = array.isComplex
  fields : ∀ name ∈ array.fieldNames, NulFree name

/-! ### Any array -/

theorem children_modifyInfo (change : ArrayInfo → ArrayInfo) (array : MatArray) :
    (array.modifyInfo change).children = array.children := by
  cases array <;> rfl

/-- A change that leaves the shape alone leaves the parts of an array as long as it asks for. -/
theorem Shaped.modifyInfo {change : ArrayInfo → ArrayInfo} {array : MatArray}
    (shaped : array.Shaped) (shape : ∀ info, (change info).shape = info.shape) :
    (array.modifyInfo change).Shaped := by
  cases array with
  | numeric numericClass array =>
    exact ⟨shaped.real.trans (congrArg Shape.count (shape _).symm), fun values member =>
      (shaped.imag values member).trans (congrArg Shape.count (shape _).symm)⟩
  | char array => exact Eq.trans shaped (congrArg Shape.count (shape _).symm)
  | cell array => exact Eq.trans shaped (congrArg Shape.count (shape _).symm)
  | struct array =>
    exact fun field member => (shaped field member).trans (congrArg Shape.count (shape _).symm)
  | sparse array =>
    exact
      { shaped with
        pointers := shaped.pointers.trans (by rw [shape])
        rows := fun row member => Nat.lt_of_lt_of_eq (shaped.rows row member) (by rw [shape]) }

/-- A change that leaves the shape and the flag of complex arrays alone leaves an array
valid. -/
theorem Valid.modifyInfo {change : ArrayInfo → ArrayInfo} {array : MatArray}
    (valid : array.Valid) (shape : ∀ info, (change info).shape = info.shape)
    (complex : ∀ info, (change info).flags.complex = info.flags.complex) :
    (array.modifyInfo change).Valid := by
  obtain ⟨shaped, flag, fields⟩ := valid
  refine ⟨shaped.modifyInfo shape, ?_, ?_⟩
  · rw [info_modifyInfo, complex, flag]
    cases array <;> rfl
  · cases array <;> exact fields

/-- A change of an array itself leaves everything in its slots as it is. -/
theorem Everywhere.modifyInfo {property : MatArray → Prop} {change : ArrayInfo → ArrayInfo}
    {array : MatArray} (everywhere : array.Everywhere property)
    (here : property (array.modifyInfo change)) :
    (array.modifyInfo change).Everywhere property := by
  refine .intro _ here fun child member => ?_
  rw [children_modifyInfo] at member
  exact everywhere.child member

theorem everywhere_modifyInfo {change : ArrayInfo → ArrayInfo} {array : MatArray}
    (valid : array.Everywhere Valid) (shape : ∀ info, (change info).shape = info.shape)
    (complex : ∀ info, (change info).flags.complex = info.flags.complex) :
    (array.modifyInfo change).Everywhere Valid :=
  valid.modifyInfo (valid.here.modifyInfo shape complex)

end MatArray

/-! ### Numbers -/

namespace NumericArray

variable {numericClass : NumericClass} {array after : NumericArray numericClass}

theorem makes_ofList (name : String) :
    Makes name (ofList name) fun info real => ({ info, real } : NumericArray numericClass) :=
  makes_of_checkCount name _

theorem valid_ofList {name : String} {dimensions : List Nat} {real : List numericClass.Value}
    (built : ofList name dimensions real = .ok array) : (MatArray.numeric _ array).Valid := by
  obtain ⟨info, created, counted, rfl⟩ := (makes_ofList name dimensions real array).mp built
  exact ⟨⟨counted, nofun⟩, ArrayInfo.not_complex_of_create created, nofun⟩

theorem valid_ofParts {name : String} {dimensions : List Nat} {real imag : List numericClass.Value}
    (built : ofParts name dimensions real imag = .ok array) :
    (MatArray.numeric _ array).Valid := by
  obtain ⟨info, created, built⟩ := Outcome.bind_eq_ok.mp built
  obtain ⟨_, realCounted, built⟩ := Outcome.bind_eq_ok.mp built
  obtain ⟨_, imagCounted, built⟩ := Outcome.bind_eq_ok.mp built
  obtain rfl := Outcome.pure_eq_ok.mp built
  refine ⟨⟨ArrayInfo.checkCount_eq_ok.mp realCounted, fun values member => ?_⟩, rfl, nofun⟩
  rw [← Option.some.inj member]
  exact ArrayInfo.checkCount_eq_ok.mp imagCounted

theorem valid_zeros {name : String} {dimensions : List Nat}
    (built : zeros name dimensions = .ok array) : (MatArray.numeric _ array).Valid := by
  obtain ⟨info, created, built⟩ := Outcome.bind_eq_ok.mp built
  obtain ⟨_, _, built⟩ := Outcome.bind_eq_ok.mp built
  obtain rfl := Outcome.pure_eq_ok.mp built
  exact ⟨⟨List.length_replicate, nofun⟩,
    ArrayInfo.not_complex_of_create (Checked.lift_eq_ok.mp created), nofun⟩

theorem valid_ofColumns {name : String} {values : List numericClass.Value} {rows : Nat}
    (built : ofColumns name values rows = .ok array) : (MatArray.numeric _ array).Valid := by
  unfold ofColumns at built
  split at built
  · cases built
  · exact valid_ofList built

theorem valid_ofRows {name : String} {rows : List (List numericClass.Value)}
    (built : ofRows name rows = .ok array) : (MatArray.numeric _ array).Valid := by
  unfold ofRows at built
  dsimp only at built
  split at built
  · cases built
  · exact valid_ofList built

variable (valid : (MatArray.numeric _ array).Valid)
include valid

theorem valid_putReal? {index : Nat} {value : numericClass.Value}
    (put : array.putReal? index value = some after) : (MatArray.numeric _ after).Valid := by
  unfold putReal? at put
  split at put
  · cases put
    exact ⟨⟨List.length_set.trans valid.shaped.real, valid.shaped.imag⟩, valid.complex, nofun⟩
  · cases put

theorem valid_putImag? {index : Nat} {value : numericClass.Value}
    (put : array.putImag? index value = some after) : (MatArray.numeric _ after).Valid := by
  obtain ⟨imag, held, put⟩ := Option.bind_eq_some_iff.mp put
  split at put
  · cases put
    refine ⟨⟨valid.shaped.real, fun values member => ?_⟩, ?_, nofun⟩
    · rw [← Option.some.inj member, List.length_set]
      exact valid.shaped.imag imag held
    · exact valid.complex.trans (congrArg Option.isSome held)
  · cases put

theorem valid_set? {row column : Nat} {value : numericClass.Value}
    (put : array.set? row column value = some after) : (MatArray.numeric _ after).Valid := by
  obtain ⟨index, _, put⟩ := Option.bind_eq_some_iff.mp put
  exact valid_putReal? valid put

theorem valid_setImag? {row column : Nat} {value : numericClass.Value}
    (put : array.setImag? row column value = some after) : (MatArray.numeric _ after).Valid := by
  obtain ⟨index, _, put⟩ := Option.bind_eq_some_iff.mp put
  exact valid_putImag? valid put

end NumericArray

/-! ### Characters -/

namespace CharArray

variable {array after : CharArray}

theorem makes_ofUnits (name : String) : Makes name (ofUnits name) CharArray.mk :=
  makes_of_checkCount name _

theorem valid_ofUnits {name : String} {dimensions : List Nat} {units : List CodeUnit}
    (built : ofUnits name dimensions units = .ok array) : (MatArray.char array).Valid := by
  obtain ⟨info, created, counted, rfl⟩ := (makes_ofUnits name dimensions units array).mp built
  exact ⟨counted, ArrayInfo.not_complex_of_create created, nofun⟩

theorem valid_ofText {name text : String} (built : ofText name text = .ok array) :
    (MatArray.char array).Valid :=
  valid_ofUnits built

theorem valid_ofRows {name : String} {texts : List String}
    (built : ofRows name texts = .ok array) : (MatArray.char array).Valid := by
  unfold ofRows at built
  dsimp only at built
  split at built
  · cases built
  · exact valid_ofUnits built

theorem valid_set? (valid : (MatArray.char array).Valid) {row column : Nat} {unit : CodeUnit}
    (put : array.set? row column unit = some after) : (MatArray.char after).Valid := by
  obtain ⟨index, _, put⟩ := Option.bind_eq_some_iff.mp put
  split at put
  · cases put
    exact ⟨List.length_set.trans valid.shaped, valid.complex, nofun⟩
  · cases put

end CharArray

/-! ### Sparse matrices -/

namespace SparseArray

variable {array after : SparseArray}

theorem valid_empty {name : String} {rows columns : Nat}
    (built : empty name rows columns = .ok array) : (MatArray.sparse array).Valid := by
  obtain ⟨info, lifted, built⟩ := Outcome.bind_eq_ok.mp built
  have created := Checked.lift_eq_ok.mp lifted
  obtain ⟨_, _, built⟩ := Outcome.bind_eq_ok.mp built
  obtain rfl := Outcome.pure_eq_ok.mp built
  have width : info.shape.columns = columns := by
    rw [Shape.columns, (ArrayInfo.of_create created).2.1]
    exact Nat.mul_one columns
  refine ⟨⟨?_, rfl, ?_, ?_, nofun, rfl, nofun⟩, ArrayInfo.not_complex_of_create created, nofun⟩
  · rw [width, List.length_replicate]
  · exact List.pairwise_replicate.mpr (Or.inr (Nat.le_refl 0))
  · rw [List.getLastD_eq_getLast?, List.getLast?_replicate, if_neg (Nat.succ_ne_zero columns)]
    rfl

/-- What the check of the parts of a matrix makes sure of. -/
theorem of_checkStructure {info : ArrayInfo} {columnPointers rowIndices : List Nat}
    (checked : checkStructure info columnPointers rowIndices = .ok ()) :
    columnPointers.length = info.shape.columns + 1 ∧ columnPointers.headD 0 = 0 ∧
      columnPointers.Pairwise (· ≤ ·) ∧ columnPointers.getLastD 0 = rowIndices.length ∧
      ∀ row ∈ rowIndices, row < info.shape.rows := by
  unfold checkStructure at checked
  dsimp only at checked
  obtain ⟨pointers, checked⟩ := Outcome.refusal_eq_ok.mp checked
  obtain ⟨start, checked⟩ := Outcome.refusal_eq_ok.mp checked
  cases ascending : firstDescent? columnPointers with
  | some column =>
    rw [ascending] at checked
    cases checked
  | none =>
    rw [ascending] at checked
    dsimp only at checked
    obtain ⟨stop, checked⟩ := Outcome.refusal_eq_ok.mp checked
    cases fit : rowIndices.find? fun row => decide (info.shape.rows ≤ row) with
    | some row =>
      rw [fit] at checked
      cases checked
    | none =>
      exact ⟨not_not.mp pointers, not_not.mp start, (firstDescent?_eq_none_iff _).mp ascending,
        not_not.mp stop, find?_reaching_eq_none_iff.mp fit⟩

theorem valid_ofColumns {name : String} {rows columns : Nat} {columnPointers rowIndices : List Nat}
    {real : List Double} {imag : Option (List Double)}
    (built : ofColumns name rows columns columnPointers rowIndices real imag = .ok array) :
    (MatArray.sparse array).Valid := by
  obtain ⟨info, created, built⟩ := Outcome.bind_eq_ok.mp built
  obtain ⟨_, checked, built⟩ := Outcome.bind_eq_ok.mp built
  obtain ⟨pointers, start, ascending, stop, inside⟩ := of_checkStructure checked
  dsimp only at built
  obtain ⟨counted, built⟩ := Outcome.refusal_eq_ok.mp built
  have realCount := not_not.mp counted
  cases imag with
  | none =>
    obtain rfl := Outcome.pure_eq_ok.mp built
    exact ⟨⟨pointers, start, ascending, stop, inside, realCount, nofun⟩,
      ArrayInfo.not_complex_of_create created, nofun⟩
  | some values =>
    dsimp only at built
    obtain ⟨imagCounted, built⟩ := Outcome.refusal_eq_ok.mp built
    obtain rfl := Outcome.pure_eq_ok.mp built
    refine ⟨⟨pointers, start, ascending, stop, inside, realCount, fun other member => ?_⟩, rfl,
      nofun⟩
    rw [← Option.some.inj member]
    exact not_not.mp imagCounted

theorem valid_ofEntries {name : String} {rows columns : Nat} {complex : Bool}
    {entries : List Entry} (built : ofEntries name rows columns complex entries = .ok array) :
    (MatArray.sparse array).Valid := by
  unfold ofEntries at built
  cases outside : entries.find? fun entry =>
      decide (rows ≤ entry.row) || decide (columns ≤ entry.column) with
  | some entry =>
    rw [outside] at built
    cases built
  | none =>
    rw [outside] at built
    obtain ⟨_, _, built⟩ := Outcome.bind_eq_ok.mp built
    exact valid_ofColumns (Checked.lift_eq_ok.mp built)

variable (valid : (MatArray.sparse array).Valid)
include valid

theorem valid_withCapacity (capacity : Nat) :
    (MatArray.sparse { array with capacity }).Valid :=
  ⟨{ valid.shaped with }, valid.complex, nofun⟩

theorem valid_putReal? {place : Nat} {value : Double}
    (put : array.putReal? place value = some after) : (MatArray.sparse after).Valid := by
  unfold putReal? at put
  split at put
  · cases put
    exact ⟨{ valid.shaped with real := List.length_set.trans valid.shaped.real }, valid.complex,
      nofun⟩
  · cases put

theorem valid_putImag? {place : Nat} {value : Double}
    (put : array.putImag? place value = some after) : (MatArray.sparse after).Valid := by
  obtain ⟨imag, held, put⟩ := Option.bind_eq_some_iff.mp put
  split at put
  · cases put
    refine ⟨{ valid.shaped with imag := fun values member => ?_ },
      valid.complex.trans (congrArg Option.isSome held), nofun⟩
    rw [← Option.some.inj member, List.length_set]
    exact valid.shaped.imag imag held
  · cases put

end SparseArray

/-! ### Cells -/

theorem everywhere_toSlot {array : MatArray} (valid : array.Everywhere MatArray.Valid) :
    ∀ child ∈ array.toSlot, child.Everywhere MatArray.Valid := by
  intro child stored
  rw [(MatArray.mem_toSlot.mp stored).2]
  exact valid

namespace CellArray

open MatArray

variable {array after : CellArray MatArray}

theorem everywhere_valid {array : CellArray MatArray} :
    (cell array).Everywhere Valid ↔
      array.cells.length = array.info.shape.count ∧ array.info.flags.complex = false ∧
        ∀ child, some child ∈ array.cells → child.Everywhere Valid := by
  constructor
  · intro valid
    exact ⟨valid.here.shaped, valid.here.complex, fun child member =>
      valid.child ((mem_children_cell array child).mpr member)⟩
  · rintro ⟨shaped, plain, held⟩
    exact .intro _ ⟨shaped, plain, nofun⟩ fun child member =>
      held child ((mem_children_cell array child).mp member)

theorem valid_unset {slotSize : Nat} {name : String} {dimensions : List Nat}
    (built : unset slotSize name dimensions = .ok array) : (cell array).Everywhere Valid := by
  obtain ⟨info, created, built⟩ := Outcome.bind_eq_ok.mp built
  obtain ⟨_, _, built⟩ := Outcome.bind_eq_ok.mp built
  obtain rfl := Outcome.pure_eq_ok.mp built
  refine everywhere_valid.mpr ⟨List.length_replicate,
    ArrayInfo.not_complex_of_create (Checked.lift_eq_ok.mp created), fun child member => ?_⟩
  cases List.eq_of_mem_replicate member

theorem makes_ofList (name : String) :
    Makes name (ofList name) fun info cells => ({ info, cells } : CellArray MatArray) :=
  makes_of_checkCount name _

theorem valid_ofArrays {name : String} {dimensions : List Nat} {cells : List (Option MatArray)}
    (held : ∀ child, some child ∈ cells → child.Everywhere Valid)
    (built : ofArrays name dimensions cells = .ok array) : (cell array).Everywhere Valid := by
  obtain ⟨info, created, counted, rfl⟩ := (makes_ofList name dimensions _ array).mp built
  refine everywhere_valid.mpr ⟨counted, ArrayInfo.not_complex_of_create created,
    fun child member => ?_⟩
  obtain ⟨slot, slotMember, stored⟩ := List.mem_map.mp member
  obtain ⟨given, rfl, stored⟩ := Option.bind_eq_some_iff.mp stored
  exact everywhere_toSlot (held given slotMember) child stored

variable (valid : (cell array).Everywhere Valid)
include valid

/-- Putting a valid array, or none, into a cell leaves an array of cells valid. -/
theorem valid_setCell (index : Nat) {slot : Option MatArray}
    (stored : ∀ child ∈ slot, child.Everywhere Valid) :
    (cell { array with cells := array.cells.set index slot }).Everywhere Valid := by
  obtain ⟨shaped, plain, held⟩ := everywhere_valid.mp valid
  refine everywhere_valid.mpr ⟨List.length_set.trans shaped, plain, fun child member => ?_⟩
  rcases List.mem_or_eq_of_mem_set member with before | new
  · exact held child before
  · exact stored child new.symm

theorem valid_store {index : Nat} {child : MatArray} (new : child.Everywhere Valid)
    {previous : Option MatArray} (stored : array.store index child = .ok (previous, after)) :
    (cell after).Everywhere Valid := by
  unfold store set at stored
  split at stored
  · cases stored
    exact valid_setCell valid index (everywhere_toSlot new)
  · cases stored

theorem valid_take (index : Nat) : (cell (array.take index).2).Everywhere Valid :=
  valid_setCell valid index nofun

theorem valid_modify? {index : Nat} {child : MatArray} (new : child.Everywhere Valid)
    (changed : array.modify? index (fun _ => child) = some after) :
    (cell after).Everywhere Valid := by
  obtain ⟨item, _, changed⟩ := Option.bind_eq_some_iff.mp changed
  cases changed
  refine valid_setCell valid index fun other member => ?_
  rw [← Option.some.inj member]
  exact new

end CellArray

/-! ### Fields -/

namespace StructArray

open MatArray

/-- What construction makes sure of in a field of an array with a number of elements. -/
structure ValidField (count : Nat) (field : Field MatArray) : Prop where
  length : field.slots.length = count
  name : NulFree field.name
  slots : ∀ child, some child ∈ field.slots → child.Everywhere Valid

variable {array after : StructArray MatArray}

theorem everywhere_valid {array : StructArray MatArray} :
    (struct array).Everywhere Valid ↔
      array.info.flags.complex = false ∧ ∀ field ∈ array.fields, ValidField array.count field := by
  constructor
  · intro valid
    exact ⟨valid.here.complex, fun field member =>
      ⟨valid.here.shaped field member, valid.here.fields _ (List.mem_map_of_mem member),
        fun child slotMember =>
          valid.child ((mem_children_struct array child).mpr ⟨field, member, slotMember⟩)⟩⟩
  · rintro ⟨plain, fields⟩
    refine .intro _ ⟨fun field member => (fields field member).length, plain,
      fun name member => ?_⟩ fun child member => ?_
    · obtain ⟨field, fieldMember, rfl⟩ := List.mem_map.mp member
      exact (fields field fieldMember).name
    · obtain ⟨field, fieldMember, slotMember⟩ := (mem_children_struct array child).mp member
      exact (fields field fieldMember).slots child slotMember

theorem nulFree_of_isFieldName {name : String} (accepted : isFieldName name = true) :
    NulFree name := by
  unfold isFieldName at accepted
  rw [Bool.and_eq_true, List.all_eq_true] at accepted
  intro char member
  exact bne_iff_ne.mp (accepted.2 char member)

theorem mem_of_modifyFirst? {Item : Type} {test : Item → Bool} {change : Item → Item}
    {items changed : List Item} (found : modifyFirst? test change items = some changed)
    {item : Item} (member : item ∈ changed) : item ∈ items ∨ ∃ old ∈ items, change old = item := by
  induction items generalizing changed with
  | nil => cases found
  | cons first rest inductionHypothesis =>
    unfold modifyFirst? at found
    split at found
    · cases found
      rcases List.mem_cons.mp member with rfl | later
      · exact Or.inr ⟨first, List.mem_cons_self, rfl⟩
      · exact Or.inl (List.mem_cons_of_mem _ later)
    · obtain ⟨others, foundLater, rfl⟩ := Option.map_eq_some_iff.mp found
      rcases List.mem_cons.mp member with rfl | later
      · exact Or.inl List.mem_cons_self
      · rcases inductionHypothesis foundLater later with before | ⟨old, oldMember, same⟩
        · exact Or.inl (List.mem_cons_of_mem _ before)
        · exact Or.inr ⟨old, List.mem_cons_of_mem _ oldMember, same⟩

theorem valid_create {name : String} {dimensions : List Nat}
    (built : create name dimensions = .ok array) : (struct array).Everywhere Valid := by
  obtain ⟨info, created, built⟩ := Outcome.bind_eq_ok.mp built
  obtain rfl := Outcome.pure_eq_ok.mp built
  exact everywhere_valid.mpr ⟨ArrayInfo.not_complex_of_create created, nofun⟩

theorem valid_createObject {name className : String} {dimensions : List Nat}
    (built : createObject name className dimensions = .ok array) :
    (struct array).Everywhere Valid := by
  obtain ⟨info, created, built⟩ := Outcome.bind_eq_ok.mp built
  obtain rfl := Outcome.pure_eq_ok.mp built
  exact everywhere_valid.mpr ⟨ArrayInfo.not_complex_of_create created, nofun⟩

/-- A field is declared already, or it comes behind the others. -/
theorem of_addField {slotSize : Nat} {name : String}
    (added : array.addField slotSize name = .ok after) :
    after = array ∨ isFieldName name = true ∧
      after =
        { array with fields := array.fields ++ [⟨name, List.replicate array.count none⟩] } := by
  unfold addField at added
  split at added
  · exact Or.inl (Outcome.pure_eq_ok.mp added).symm
  · split at added
    · rename_i accepted
      obtain ⟨_, _, added⟩ := Outcome.bind_eq_ok.mp added
      exact Or.inr ⟨accepted, (Outcome.pure_eq_ok.mp added).symm⟩
    · cases added

theorem ValidField.setSlot {count : Nat} {field : Field MatArray} (valid : ValidField count field)
    (index : Nat) {slot : Option MatArray} (stored : ∀ child ∈ slot, child.Everywhere Valid) :
    ValidField count { field with slots := field.slots.set index slot } := by
  refine ⟨List.length_set.trans valid.length, valid.name, fun child member => ?_⟩
  rcases List.mem_or_eq_of_mem_set member with before | new
  · exact valid.slots child before
  · exact stored child new.symm

variable (valid : (struct array).Everywhere Valid)
include valid

theorem valid_addField {slotSize : Nat} {name : String}
    (added : array.addField slotSize name = .ok after) : (struct after).Everywhere Valid := by
  obtain ⟨plain, fields⟩ := everywhere_valid.mp valid
  rcases of_addField added with rfl | ⟨accepted, rfl⟩
  · exact valid
  · refine everywhere_valid.mpr ⟨plain, fun field member => ?_⟩
    rcases List.mem_append.mp member with before | new
    · exact fields field before
    · rw [List.mem_singleton.mp new]
      refine ⟨List.length_replicate, nulFree_of_isFieldName accepted, fun child unset => ?_⟩
      cases List.eq_of_mem_replicate unset

/-- Putting a valid array, or none, into a slot leaves a struct array valid. -/
theorem valid_setSlot {test : Field MatArray → Bool} {index : Nat} {slot : Option MatArray}
    (stored : ∀ child ∈ slot, child.Everywhere Valid) {fields : List (Field MatArray)}
    (found : modifyFirst? test (fun field => { field with slots := field.slots.set index slot })
      array.fields = some fields) :
    (struct { array with fields }).Everywhere Valid := by
  obtain ⟨plain, before⟩ := everywhere_valid.mp valid
  refine everywhere_valid.mpr ⟨plain, fun field member => ?_⟩
  rcases mem_of_modifyFirst? found member with same | ⟨old, oldMember, rfl⟩
  · exact before field same
  · exact (before old oldMember).setSlot index stored

theorem valid_store {slotSize : Nat} {name : String} {index : Nat} {child : MatArray}
    (new : child.Everywhere Valid) {previous : Option MatArray}
    (stored : array.store slotSize name index child = .ok (previous, after)) :
    (struct after).Everywhere Valid := by
  unfold store set at stored
  split at stored
  · obtain ⟨declared, added, stored⟩ := Outcome.bind_eq_ok.mp stored
    have declaredValid := valid_addField valid added
    cases Outcome.pure_eq_ok.mp stored
    cases found : modifyFirst? (fun field => field.name == name)
        (fun field => { field with slots := field.slots.set index child.toSlot })
        declared.fields with
    | none => exact declaredValid
    | some fields => exact valid_setSlot declaredValid (everywhere_toSlot new) found
  · cases stored

theorem valid_removeField? {name : String} {slots : List (Option MatArray)}
    (removed : array.removeField? name = some (slots, after)) :
    (struct after).Everywhere Valid := by
  obtain ⟨plain, fields⟩ := everywhere_valid.mp valid
  obtain ⟨field, _, removed⟩ := Option.bind_eq_some_iff.mp removed
  cases removed
  exact everywhere_valid.mpr
    ⟨plain, fun field member => fields field (List.mem_of_mem_eraseP member)⟩

theorem valid_modify? {name : String} {index : Nat} {child : MatArray}
    (new : child.Everywhere Valid)
    (changed : array.modify? name index (fun _ => child) = some after) :
    (struct after).Everywhere Valid := by
  obtain ⟨item, _, changed⟩ := Option.bind_eq_some_iff.mp changed
  obtain ⟨fields, found, changed⟩ := Option.bind_eq_some_iff.mp changed
  cases changed
  refine valid_setSlot valid (fun other member => ?_) found
  rw [← Option.some.inj member]
  exact new

end StructArray

end MatFormat
