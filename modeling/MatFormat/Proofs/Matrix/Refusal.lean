/-
This file proves that the writer fails in one way only: it refuses an array. No step of it
reports anything else, whatever the array, so a caller that meets a fault knows that the
array does not fit the format.
-/

import MatFormat.File.Writer
import MatFormat.Proofs.Matrix.Slots

namespace MatFormat

/-- A fault that names an array which the format or its own shape does not allow. -/
def Error.IsRefusal (fault : Error) : Prop :=
  ∃ (name : String) (reason : Invalidity), fault = .invalidArray name reason

/-- An outcome that is a value or the refusal of an array. -/
def OnlyRefuses {Value : Type} (outcome : Except Error Value) : Prop :=
  ∀ fault : Error, outcome = .error fault → fault.IsRefusal

namespace OnlyRefuses

variable {Value Next : Type}

theorem ok (value : Value) : OnlyRefuses (.ok value) := nofun

theorem invalidArray (name : String) (reason : Invalidity) :
    OnlyRefuses (.error (.invalidArray name reason) : Except Error Value) := by
  intro fault failed
  cases failed
  exact ⟨name, reason, rfl⟩

theorem bind {outcome : Except Error Value} {continuation : Value → Except Error Next}
    (first : OnlyRefuses outcome) (rest : ∀ value, OnlyRefuses (continuation value)) :
    OnlyRefuses (outcome >>= continuation) := by
  intro fault failed
  rcases Outcome.bind_eq_error.mp failed with failed | ⟨value, _, failed⟩
  · exact first fault failed
  · exact rest value fault failed

end OnlyRefuses

variable (order : ByteOrder)

/-! ### Elements -/

theorem onlyRefuses_encodeTag (type : DataType) (size : Nat) :
    OnlyRefuses (encodeTag order type size) := by
  unfold encodeTag
  split
  · exact .ok _
  · exact .invalidArray _ _

theorem onlyRefuses_encodeElement (type : DataType) (payload : List UInt8) :
    OnlyRefuses (encodeElement order type payload) := by
  unfold encodeElement
  dsimp only
  split
  · exact .ok _
  · exact (onlyRefuses_encodeTag order type payload.length).bind fun _ => .ok _

theorem onlyRefuses_encodeIndices (name : String) (indices : List Nat) :
    OnlyRefuses (encodeIndices order name indices) := by
  unfold encodeIndices
  split
  · exact .invalidArray _ _
  · exact onlyRefuses_encodeElement order _ _

theorem onlyRefuses_encodeParts (numericClass : NumericClass) (real : List numericClass.Value)
    (imag : Option (List numericClass.Value)) :
    OnlyRefuses (encodeParts order numericClass real imag) := by
  refine (onlyRefuses_encodeElement order _ _).bind fun _ => ?_
  cases imag with
  | none => exact .ok _
  | some imag => exact (onlyRefuses_encodeElement order _ _).bind fun _ => .ok _

theorem onlyRefuses_encodeMatrixElement (payload : List UInt8) :
    OnlyRefuses (encodeMatrixElement order payload) :=
  (onlyRefuses_encodeTag order _ _).bind fun _ => .ok _

/-! ### Parts of a payload -/

theorem onlyRefuses_encodeHead (array : MatArray) : OnlyRefuses (encodeHead order array) := by
  unfold encodeHead
  dsimp only
  split
  · exact .invalidArray _ _
  · exact (onlyRefuses_encodeElement order _ _).bind fun _ =>
      (onlyRefuses_encodeIndices order _ _).bind fun _ =>
        (onlyRefuses_encodeElement order _ _).bind fun _ => .ok _

theorem onlyRefuses_encodeSparse (array : SparseArray) :
    OnlyRefuses (encodeSparse order array) :=
  (onlyRefuses_encodeIndices order _ _).bind fun _ =>
    (onlyRefuses_encodeIndices order _ _).bind fun _ =>
      (onlyRefuses_encodeParts order _ _ _).bind fun _ => .ok _

theorem onlyRefuses_encodeFieldNames (name : String) (className : Option String)
    (fieldNames : List String) :
    OnlyRefuses (encodeFieldNames order name className fieldNames) := by
  rw [encodeFieldNames_eq]
  refine OnlyRefuses.bind ?_ fun classPart => ?_
  · cases className with
    | none => exact .ok _
    | some className => exact onlyRefuses_encodeElement order _ _
  · split
    · exact .invalidArray _ _
    · have fields : OnlyRefuses (writeFieldNames order fieldNames) :=
        (onlyRefuses_encodeElement order _ _).bind fun _ =>
          (onlyRefuses_encodeElement order _ _).bind fun _ => .ok _
      exact fields.bind fun _ => .ok _

theorem onlyRefuses_joinParts {parts : List (Except Error (List UInt8))}
    (each : ∀ part ∈ parts, OnlyRefuses part) : OnlyRefuses (joinParts parts) := by
  induction parts with
  | nil => exact .ok _
  | cons part rest inductionHypothesis =>
    exact (each part List.mem_cons_self).bind fun _ =>
      (inductionHypothesis fun other member => each other (List.mem_cons_of_mem _ member)).bind
        fun _ => .ok _

/-! ### Whole arrays -/

theorem onlyRefuses_encodeNumeric (numericClass : NumericClass)
    (array : NumericArray numericClass) :
    OnlyRefuses (encodeNumeric order numericClass array) :=
  (onlyRefuses_encodeHead order _).bind fun _ =>
    (onlyRefuses_encodeParts order _ _ _).bind fun _ => .ok _

theorem onlyRefuses_encodeSlot {slot : Option MatArray}
    (held : ∀ child ∈ slot, OnlyRefuses (child.encode order)) :
    OnlyRefuses (encodeSlot order slot) := by
  cases slot with
  | none =>
    rw [encodeSlot]
    exact (onlyRefuses_encodeNumeric order _ _).bind fun _ =>
      onlyRefuses_encodeMatrixElement order _
  | some child =>
    rw [encodeSlot]
    exact (held child rfl).bind fun _ => onlyRefuses_encodeMatrixElement order _

theorem onlyRefuses_encodeSlots {slots : List (Option MatArray)}
    (held : ∀ child, some child ∈ slots → OnlyRefuses (child.encode order)) :
    OnlyRefuses (joinParts (slots.map (encodeSlot order))) := by
  refine onlyRefuses_joinParts fun part member => ?_
  obtain ⟨slot, slotMember, rfl⟩ := List.mem_map.mp member
  exact onlyRefuses_encodeSlot order fun child inside =>
    held child (Option.mem_def.mp inside ▸ slotMember)

/-- What follows the head of an array is refused only where the array or one of its children
is. -/
theorem onlyRefuses_encodeBody {array : MatArray}
    (held : ∀ child ∈ array.children, OnlyRefuses (child.encode order)) :
    OnlyRefuses (array.encodeBody order) := by
  have inside (child : MatArray) (member : some child ∈ array.slots) :
      OnlyRefuses (child.encode order) := held child ((MatArray.mem_children _ _).mpr member)
  cases array with
  | numeric numericClass array => exact onlyRefuses_encodeParts order _ _ _
  | char array => exact onlyRefuses_encodeElement order _ _
  | sparse array => exact onlyRefuses_encodeSparse order array
  | cell array => exact onlyRefuses_encodeSlots order inside
  | struct array =>
    exact (onlyRefuses_encodeFieldNames order _ _ _).bind fun _ =>
      (onlyRefuses_encodeSlots order fun child member =>
        inside child (mem_slots_of_mem_slotsByElement member)).bind fun _ => .ok _

/-- The writer fails only by refusing an array, whatever the array holds. -/
theorem onlyRefuses_encode (array : MatArray) : OnlyRefuses (array.encode order) := by
  induction array using MatArray.tree_induction with
  | step array inductionHypothesis =>
    rw [MatArray.encode_eq]
    exact (onlyRefuses_encodeHead order array).bind fun _ =>
      (onlyRefuses_encodeBody order inductionHypothesis).bind fun _ => .ok _

theorem onlyRefuses_encodeTopLevel (compress : Compressor) (compression : Compression)
    (array : MatArray) : OnlyRefuses (encodeTopLevel compress order compression array) := by
  refine (onlyRefuses_encodeSlot order fun child _ => onlyRefuses_encode order child).bind
    fun element => ?_
  cases compression with
  | none => exact .ok _
  | level level => exact (onlyRefuses_encodeTag order _ _).bind fun _ => .ok _

/-- Writing a file fails only by refusing an array. -/
theorem onlyRefuses_encodeFileWith (compress : Compressor) (arrays : List MatArray)
    (options : WriteOptions) : OnlyRefuses (encodeFileWith compress arrays options) := by
  refine (onlyRefuses_joinParts fun part member => ?_).bind fun _ => .ok _
  obtain ⟨array, _, rfl⟩ := List.mem_map.mp member
  exact onlyRefuses_encodeTopLevel options.order compress options.compression array

end MatFormat
