/-
This file says which bytes spell a run of values. Integers may be stored in any type of
integers that holds all of them, signed or not or code units of text, and each is read as the
same number: it is widened without a change and then brought into the class that is asked
for, which keeps its value modulo the width of that class. Other values are stored in the type
of their class, which keeps their bits. Names stand in payloads of single bytes.
-/

import MatFormat.Proofs.Layout.Element
import MatFormat.Proofs.Run

namespace MatFormat

/-! ### Integers of a class -/

/-- A widened number that is an integer. -/
def Scalar.Is (number : Int) : Scalar → Prop
  | .int value => value = number
  | .uint value => value = number
  | .float _ => False

namespace NumericClass

/-- Whether the values of the class are integers. -/
def isInteger (numericClass : NumericClass) : Bool :=
  match numericClass.form with
  | .float _ => false
  | .signed | .unsigned => true

/-- The integer that a value of an integer class is. -/
def integer (numericClass : NumericClass) (value : numericClass.Value) : Int :=
  match numericClass.form with
  | .unsigned => value.toNat
  | .signed | .float _ => value.toInt

theorem ofInt_integer (numericClass : NumericClass) (value : numericClass.Value) :
    BitVec.ofInt _ (numericClass.integer value) = value := by
  unfold integer
  split
  · rw [BitVec.ofInt_natCast, BitVec.ofNat_toNat, BitVec.setWidth_eq]
  · exact BitVec.ofInt_toInt
  · exact BitVec.ofInt_toInt

theorem widen_is_integer {stored : NumericClass} (integer : stored.isInteger = true)
    (value : stored.Value) : (stored.widen value).Is (stored.integer value) := by
  unfold isInteger at integer
  cases form : stored.form with
  | float format =>
    rw [form] at integer
    cases integer
  | signed => simp only [widen, NumericClass.integer, form, Scalar.Is]
  | unsigned => simp only [widen, NumericClass.integer, form, Scalar.Is]

theorem narrow_of_is {wanted : NumericClass} (integer : wanted.isInteger = true) {number : Int}
    {scalar : Scalar} (is : scalar.Is number) : wanted.narrow scalar = BitVec.ofInt _ number := by
  unfold isInteger at integer
  cases scalar with
  | float pattern => exact is.elim
  | int value =>
    obtain rfl : value = number := is
    cases form : wanted.form with
    | float format =>
      rw [form] at integer
      cases integer
    | signed => simp only [narrow, form]
    | unsigned => simp only [narrow, form]
  | uint value =>
    obtain rfl : (value : Int) = number := is
    cases form : wanted.form with
    | float format =>
      rw [form] at integer
      cases integer
    | signed => simp only [narrow, form, BitVec.ofInt_natCast]
    | unsigned => simp only [narrow, form, BitVec.ofInt_natCast]

/-- An integer that is stored in a type of integers is read as the number of the class that is
asked for which is the same modulo the width of that class. -/
theorem load_integer {wanted stored : NumericClass} (wantedInteger : wanted.isInteger = true)
    (storedInteger : stored.isInteger = true) (order : ByteOrder) (value : stored.Value) :
    wanted.load stored order (stored.write order value) =
      BitVec.ofInt _ (stored.integer value) := by
  by_cases own : wanted = stored
  · subst own
    rw [load_self, ofInt_integer]
  · rw [load, if_neg own, read_write,
      narrow_of_is wantedInteger (widen_is_integer storedInteger value)]

end NumericClass

/-! ### Layouts of runs -/

/-- Bytes that spell integers as an element of any type of integers that holds them. -/
def IntegersLayout (order : ByteOrder) (numbers : List Int) (bytes : List UInt8) : Prop :=
  ∃ (type : DataType) (stored : NumericClass) (values : List stored.Value),
    type.storedClass? = some stored ∧ stored.isInteger = true ∧
      values.map stored.integer = numbers ∧
      ElementLayout order type (values.flatMap (stored.write order)) bytes

/-- Bytes that spell values of a class: in the type of the class, or as integers. -/
inductive ValuesLayout (order : ByteOrder) (numericClass : NumericClass)
    (values : List numericClass.Value) (bytes : List UInt8) : Prop where
  | own (spelled : ElementLayout order numericClass.dataType
      (values.flatMap (numericClass.write order)) bytes)
  | integers (integer : numericClass.isInteger = true)
      (spelled : IntegersLayout order (values.map numericClass.integer) bytes)

/-- Bytes that spell a name. -/
def NameLayout (order : ByteOrder) (name : String) (bytes : List UInt8) : Prop :=
  ElementLayout order .int8 (Utf8.encode name) bytes

theorem DataType.ne_compressed_of_storedClass? {type : DataType} {stored : NumericClass}
    (holds : type.storedClass? = some stored) : type ≠ .compressed := by
  rintro rfl
  cases holds

variable {order : ByteOrder} {bytes : List UInt8}

theorem tagSize_le_of_integersLayout {numbers : List Int}
    (layout : IntegersLayout order numbers bytes) : tagSize ≤ bytes.length := by
  obtain ⟨_, _, _, _, _, _, spelled⟩ := layout
  exact tagSize_le_of_layout spelled

namespace Element

/-! ### Values -/

variable {element : Element}

/-- A payload of whole values is read value by value. -/
theorem values_of_whole {type : DataType} {stored : NumericClass} {payload : List UInt8}
    (holds : element.Holds order type payload)
    (storage : type.storedClass? = some stored) (whole : type.size ∣ payload.length)
    (wanted : NumericClass) :
    element.values wanted =
      .ok ((pieces type.size (payload.length / type.size) payload).map
        (wanted.load stored order)) := by
  unfold values
  simp only [holds.type, storage, Tag.count, holds.size, Element.bytes, holds.bytes, holds.order]
  exact if_neg fun left => left (Nat.mod_eq_zero_of_dvd whole)

/-- Values are read in any class from the bytes that spell them in a type. -/
theorem values_of_holds {type : DataType} {stored : NumericClass} {values : List stored.Value}
    (holds : element.Holds order type (values.flatMap (stored.write order)))
    (storage : type.storedClass? = some stored) (wanted : NumericClass) :
    element.values wanted =
      .ok (values.map fun value => wanted.load stored order (stored.write order value)) := by
  have spelled : ∀ value ∈ values, (stored.write order value).length = stored.size :=
    fun value _ => stored.length_write order value
  have size := DataType.size_of_storedClass? storage
  have width := length_flatMap_of_width stored.size values (stored.write order) spelled
  rw [values_of_whole holds storage ⟨values.length, by rw [width, size, Nat.mul_comm]⟩, size, width,
    Nat.mul_div_cancel _ stored.size_pos, pieces_flatMap stored.size values _ spelled, List.map_map]
  rfl

theorem exactly_of_values {wanted : NumericClass} {values : List wanted.Value} {expected : Nat}
    (read : element.values wanted = .ok values) (count : values.length = expected) :
    element.exactly wanted expected = .ok values := by
  rw [exactly, Outcome.bind_of_ok read, count, checkCount_self]
  rfl

theorem atLeast_of_values {wanted : NumericClass} {values : List wanted.Value} {expected : Nat}
    (read : element.values wanted = .ok values) (count : values.length = expected) :
    element.atLeast wanted expected = .ok values := by
  rw [atLeast, Outcome.bind_of_ok read, count, if_neg (Nat.lt_irrefl _), ← count, List.take_length]
  rfl

/-- Numbers of 16 bits are read as they are. -/
theorem values_of_units {type : DataType} {units : List CodeUnit}
    (wide : type = .utf16 ∨ type = .uint16)
    (holds : element.Holds order type (units.flatMap (NumericClass.uint16.write order))) :
    element.values .uint16 = .ok units := by
  have storage : type.storedClass? = some .uint16 := by
    rcases wide with rfl | rfl <;> rfl
  rw [values_of_holds holds storage]
  simp only [NumericClass.load_self, List.map_id']

/-- Numbers are taken as code units if there are as many as expected. -/
theorem codeUnits_of_values {units : List CodeUnit} (other : element.tag.type ≠ .utf8)
    (read : element.values .uint16 = .ok units) (expected : Nat) :
    element.codeUnits expected =
      element.checkCount expected units.length >>= fun _ => pure units := by
  rw [codeUnits, if_neg other, Outcome.bind_of_ok read]

theorem codeUnits_of_holds {units : List CodeUnit} {expected : Nat}
    (holds : element.Holds order .uint16 (units.flatMap (NumericClass.uint16.write order)))
    (count : units.length = expected) : element.codeUnits expected = .ok units := by
  have numbers : ¬ element.tag.type = .utf8 := by
    rw [holds.type]
    decide
  rw [codeUnits_of_values numbers (values_of_units (Or.inr rfl) holds), count, checkCount_self]
  rfl

theorem name_of_holds {name : String} (holds : element.Holds order .int8 (Utf8.encode name)) :
    element.name = .ok (cutName name) := by
  rw [Element.name, holds.type]
  dsimp only
  rw [Element.bytes, holds.bytes, decodeLossy_beforeNul_encode]

end Element

/-! ### Reading runs -/

namespace Cursor

/-- However integers are spelled, they are read as the same numbers modulo the width of the
class that is asked for. -/
theorem element_of_integersLayout {numbers : List Int}
    (layout : IntegersLayout order numbers bytes) (rest : List UInt8) (offset : Nat) :
    ∃ element : Element,
      (Cursor.element ⟨bytes ++ rest, offset, order⟩).result =
        .ok (element, ⟨rest, offset + bytes.length, order⟩) ∧
      ∀ wanted : NumericClass, wanted.isInteger = true →
        element.values wanted = .ok (numbers.map fun number => BitVec.ofInt _ number) := by
  obtain ⟨type, stored, values, storage, storedInteger, rfl, spelled⟩ := layout
  obtain ⟨element, holds, _, read⟩ := element_of_layout spelled
    (DataType.ne_compressed_of_storedClass? storage) rest offset
  refine ⟨element, read, fun wanted wantedInteger => ?_⟩
  rw [Element.values_of_holds holds storage, List.map_map]
  exact congrArg Except.ok (List.map_congr_left fun value _ =>
    NumericClass.load_integer wantedInteger storedInteger order value)

/-- However values are spelled, they are read bit by bit. -/
theorem element_of_valuesLayout {numericClass : NumericClass} {values : List numericClass.Value}
    (layout : ValuesLayout order numericClass values bytes) (rest : List UInt8) (offset : Nat) :
    ∃ element : Element,
      (Cursor.element ⟨bytes ++ rest, offset, order⟩).result =
        .ok (element, ⟨rest, offset + bytes.length, order⟩) ∧
      element.values numericClass = .ok values := by
  cases layout with
  | own spelled =>
    obtain ⟨element, holds, _, read⟩ := element_of_layout spelled
      numericClass.dataType_ne_compressed rest offset
    refine ⟨element, read, ?_⟩
    rw [Element.values_of_holds holds numericClass.storedClass?_dataType]
    simp only [numericClass.load_self, List.map_id']
  | integers integer spelled =>
    obtain ⟨element, read, loaded⟩ := element_of_integersLayout spelled rest offset
    refine ⟨element, read, ?_⟩
    rw [loaded numericClass integer, List.map_map]
    simp only [Function.comp_def, numericClass.ofInt_integer, List.map_id']

theorem element_of_nameLayout {name : String} (layout : NameLayout order name bytes)
    (rest : List UInt8) (offset : Nat) :
    ∃ element : Element,
      (Cursor.element ⟨bytes ++ rest, offset, order⟩).result =
        .ok (element, ⟨rest, offset + bytes.length, order⟩) ∧
      element.name = .ok (cutName name) := by
  obtain ⟨element, holds, _, read⟩ := element_of_layout layout (by decide) rest offset
  exact ⟨element, read, Element.name_of_holds holds⟩

/-! ### Indices -/

/-- However indices are spelled, they are read as the signed numbers that they are. -/
theorem element_of_indicesLayout {indices : List Nat}
    (layout : IntegersLayout order (indices.map Int.ofNat) bytes)
    (small : ∀ index ∈ indices, index < indexLimit) (rest : List UInt8) (offset : Nat) :
    ∃ element : Element,
      (Cursor.element ⟨bytes ++ rest, offset, order⟩).result =
        .ok (element, ⟨rest, offset + bytes.length, order⟩) ∧
      element.integers = .ok (indices.map Int.ofNat) := by
  obtain ⟨element, read, loaded⟩ := element_of_integersLayout layout rest offset
  have limit : indexLimit = 2 ^ 31 := rfl
  refine ⟨element, read, ?_⟩
  rw [Element.integers, Outcome.bind_of_ok (loaded .int64 rfl), List.map_map, List.map_map]
  refine congrArg Except.ok (List.map_congr_left fun index member => ?_)
  have below := small index member
  show (BitVec.ofInt 64 (index : Int)).toInt = index
  rw [BitVec.toInt_ofInt]
  exact Int.bmod_eq_of_le (by omega) (by omega)

theorem indices_of_layout {indices : List Nat}
    (layout : IntegersLayout order (indices.map Int.ofNat) bytes)
    (small : ∀ index ∈ indices, index < indexLimit) (rest : List UInt8) (offset : Nat) :
    (Cursor.indices ⟨bytes ++ rest, offset, order⟩).result =
      .ok (indices, ⟨rest, offset + bytes.length, order⟩) := by
  obtain ⟨element, read, integers⟩ := element_of_indicesLayout layout small rest offset
  rw [Cursor.indices, Reading.result_bind_of_ok read]
  dsimp only
  rw [Reading.result_lift_bind_of_ok integers,
    Reading.result_lift_bind_of_ok (checkIndices_ofNat _ indices)]
  rfl

end Cursor

/-! ### What the writer gives -/

theorem layout_of_encodeValues {numericClass : NumericClass} {values : List numericClass.Value}
    (written : encodeValues order numericClass values = .ok bytes) :
    ValuesLayout order numericClass values bytes :=
  .own (layout_of_encodeElement written)

theorem layout_of_encodeName {name : String} (written : encodeName order name = .ok bytes) :
    NameLayout order name bytes :=
  layout_of_encodeElement written

/-- Integers of a class that are written in its own type. -/
theorem integersLayout_of_encodeValues {numericClass : NumericClass}
    (integer : numericClass.isInteger = true) {values : List numericClass.Value}
    (written : encodeValues order numericClass values = .ok bytes) :
    IntegersLayout order (values.map numericClass.integer) bytes :=
  ⟨numericClass.dataType, numericClass, values, numericClass.storedClass?_dataType, integer, rfl,
    layout_of_encodeElement written⟩

theorem integer_int32_ofNat {index : Nat} (small : index < indexLimit) :
    NumericClass.int32.integer (BitVec.ofNat _ index) = index := by
  have limit : indexLimit = 2 ^ 31 := rfl
  show (BitVec.ofNat 32 index).toInt = index
  rw [BitVec.toInt_ofNat']
  exact Int.bmod_eq_of_le (by omega) (by omega)

/-- Indices that could be written are below the limit. -/
theorem layout_of_encodeIndices {name : String} {indices : List Nat}
    (written : encodeIndices order name indices = .ok bytes) :
    (∀ index ∈ indices, index < indexLimit) ∧
      IntegersLayout order (indices.map Int.ofNat) bytes := by
  unfold encodeIndices at written
  split at written
  · cases written
  · rename_i narrow
    have small := find?_reaching_eq_none_iff.mp narrow
    have layout := integersLayout_of_encodeValues rfl written
    have numbers : (indices.map fun index => BitVec.ofNat _ index).map
        NumericClass.int32.integer = indices.map Int.ofNat := by
      rw [List.map_map]
      exact List.map_congr_left fun index member => integer_int32_ofNat (small index member)
    rw [numbers] at layout
    exact ⟨small, layout⟩

end MatFormat
