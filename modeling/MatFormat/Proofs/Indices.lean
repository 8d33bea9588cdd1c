/-
This file proves that dimensions and indices are never wrapped. The reader brings every stored
integer into 64 bits with a sign, which keeps it modulo 2^64 only, and then refuses the negative
ones. That is enough: an integer that is stored in at most 64 bits lies between -2^63 and 2^64, and
of these just the ones from 0 up to 2^63 keep clear of the negative half, where nothing of them is
changed. So whatever type an integer that is no index is stored in, it lands among those that are
refused, and no other index is read in its place.
-/

import MatFormat.Proofs.Conversion
import MatFormat.Proofs.Matrix.SparsePadding
import Mathlib.Data.List.Find

namespace MatFormat

variable {order : ByteOrder} {type : DataType} {payload : List UInt8} {element : Element}
  {signed : Bool} {number : Int}

/-! ### Integers and indices -/

/-- The integers that a payload of a type holds, in order. -/
def storedIntegers (signed : Bool) (order : ByteOrder) (type : DataType) (payload : List UInt8) :
    List Int :=
  (List.range (payload.length / type.size)).map fun place =>
    storedInteger signed order (valueBytes type payload place)

/-- Whether an integer is in the range of indices. -/
def IsIndex (number : Int) : Prop := 0 ≤ number ∧ number < 2 ^ 63

instance (number : Int) : Decidable (IsIndex number) :=
  inferInstanceAs (Decidable (0 ≤ number ∧ number < 2 ^ 63))

theorem DataType.size_le_eight (type : DataType) : type.size ≤ 8 := by
  cases type <;> decide

/-- Eight bytes hold no integer beyond those of 64 bits, with or without a sign. -/
theorem storedInteger_bounds {bytes : List UInt8} (short : bytes.length ≤ 8) :
    -2 ^ 63 ≤ storedInteger signed order bytes ∧ storedInteger signed order bytes < 2 ^ 64 := by
  have below := order.decode_lt bytes
  have width : 256 ^ bytes.length = 2 ^ (8 * bytes.length) := by rw [Nat.pow_mul]
  have limit : 2 ^ (8 * bytes.length) ≤ 2 ^ 64 := Nat.pow_le_pow_right Nat.two_pos (by omega)
  have cast : ((2 ^ (8 * bytes.length) : Nat) : Int) = 2 ^ (8 * bytes.length) := Nat.cast_pow _ _
  rw [width] at below
  unfold storedInteger
  rw [← cast]
  split <;> omega

theorem bounds_of_mem_storedIntegers (held : number ∈ storedIntegers signed order type payload) :
    -2 ^ 63 ≤ number ∧ number < 2 ^ 64 := by
  obtain ⟨place, _, rfl⟩ := List.mem_map.mp held
  refine storedInteger_bounds (Nat.le_trans ?_ type.size_le_eight)
  rw [valueBytes, List.length_take]
  exact Nat.min_le_left _ _

/-! ### Integers in 64 bits with a sign -/

/-- An integer becomes the one that 64 bits with a sign hold of it. -/
theorem toInt_of_becomes {value : NumericClass.int64.Value}
    (becomes : NumericClass.int64.Becomes number value) : value.toInt = number.bmod (2 ^ 64) := by
  rw [← becomes.unique _ (NumericClass.integer_ofInt_modEq rfl number)]
  exact BitVec.toInt_ofInt number

theorem bmod_of_isIndex (index : IsIndex number) : number.bmod (2 ^ 64) = number := by
  obtain ⟨low, high⟩ := index
  exact Int.bmod_eq_of_le (by omega) (by omega)

theorem map_ofNat_toNat {numbers : List Int} (inRange : ∀ number ∈ numbers, IsIndex number) :
    (numbers.map Int.toNat).map Int.ofNat = numbers := by
  rw [List.map_map]
  exact (List.map_congr_left fun number held => Int.toNat_of_nonneg (inRange number held).1).trans
    (List.map_id' numbers)

/-- Of the integers that are stored, just those that are no indices become negative. -/
theorem bmod_neg_iff (bounds : -2 ^ 63 ≤ number ∧ number < 2 ^ 64) :
    number.bmod (2 ^ 64) < 0 ↔ ¬ IsIndex number := by
  obtain ⟨low, high⟩ := bounds
  unfold IsIndex
  rw [Int.bmod_def]
  split <;> omega

/-- The first of the stored integers that is no index is the first that becomes negative. -/
theorem find?_bmod_storedIntegers :
    ((storedIntegers signed order type payload).map fun number => number.bmod (2 ^ 64)).find?
        (fun number => decide (number < 0)) =
      ((storedIntegers signed order type payload).find? fun number => decide ¬ IsIndex number).map
        fun number => number.bmod (2 ^ 64) := by
  rw [List.find?_map]
  refine congrArg (Option.map _) (List.find?_congr fun number held => ?_)
  exact decide_eq_decide.mpr (bmod_neg_iff (bounds_of_mem_storedIntegers held))

namespace Element

/-- The signed numbers of an element are what 64 bits hold of its integers. -/
theorem integers_of_whole (holds : element.Holds order type payload)
    (integer : type.signed? = some signed) (whole : type.size ∣ payload.length) :
    element.integers =
      .ok ((storedIntegers signed order type payload).map fun number => number.bmod (2 ^ 64)) := by
  have wide : NumericClass.int64.isInteger = true := rfl
  obtain ⟨values, read, counted, becomes⟩ := becomes_of_integers holds integer whole wide
  refine integers_eq_ok.mpr ⟨values, read, List.ext_getElem ?_ fun place inside stored => ?_⟩
  · rw [storedIntegers, List.length_map, List.length_map, List.length_range, List.length_map,
      ← counted, Nat.mul_div_cancel _ type.size_pos]
  · rw [List.length_map] at stored
    simp only [storedIntegers, List.getElem_map, List.getElem_range]
    exact (toInt_of_becomes (becomes place stored)).symm

/-- Numbers that do not fill a payload are refused. -/
theorem integers_of_partial (holds : element.Holds order type payload)
    (integer : type.signed? = some signed) (partly : ¬ type.size ∣ payload.length) :
    element.integers =
      .error (.malformed element.offset (.partialValue element.tag.size type)) := by
  obtain ⟨stored, storage, _⟩ := DataType.stored_of_signed? integer
  have left : element.tag.size % type.size ≠ 0 := by
    rw [holds.size]
    exact fun none => partly (Nat.dvd_of_mod_eq_zero none)
  unfold integers values
  dsimp only
  rw [holds.type, storage]
  dsimp only
  rw [if_pos left]
  rfl

/-- Why an element of some integers holds no indices: its last number is cut off, or its first
number that is out of the range of indices is told as what 64 bits hold of it. -/
inductive NoIndices (element : Element) (numbers : List Int) : Malformation → Prop where
  | partly (left : ¬ element.tag.type.size ∣ element.tag.size) :
      NoIndices element numbers (.partialValue element.tag.size element.tag.type)
  | outside {number : Int} (whole : element.tag.type.size ∣ element.tag.size)
      (first : numbers.find? (fun number => decide ¬ IsIndex number) = some number) :
      NoIndices element numbers (.negativeIndex (number.bmod (2 ^ 64)))

theorem NoIndices.not_indices {numbers : List Int} {reason : Malformation}
    (none : element.NoIndices numbers reason) :
    ¬ (element.tag.type.size ∣ element.tag.size ∧ ∀ number ∈ numbers, IsIndex number) := by
  rintro ⟨whole, inRange⟩
  cases none with
  | partly left => exact left whole
  | outside _ first =>
    have outside := List.find?_some first
    exact of_decide_eq_true outside (inRange _ (List.mem_of_find?_eq_some first))

/-- What reading the indices in an element of some integers comes to. -/
inductive IndicesOutcome (element : Element) (numbers : List Int) :
    Except Error (List Nat) → Prop where
  | indices (whole : element.tag.type.size ∣ element.tag.size)
      (inRange : ∀ number ∈ numbers, IsIndex number) :
      IndicesOutcome element numbers (.ok (numbers.map Int.toNat))
  | refused (reason : Malformation) (none : element.NoIndices numbers reason) :
      IndicesOutcome element numbers (.error (.malformed element.offset reason))

/-- Each integer of an element is an index as it is, or the element is refused. -/
theorem indicesOutcome_of_holds (holds : element.Holds order element.tag.type payload)
    (integer : element.tag.type.signed? = some signed) :
    element.IndicesOutcome (storedIntegers signed order element.tag.type payload)
      element.indices := by
  by_cases whole : element.tag.type.size ∣ payload.length
  · have wholeSize := holds.size ▸ whole
    rw [indices, Outcome.bind_of_ok (integers_of_whole holds integer whole), checkIndices_eq,
      find?_bmod_storedIntegers]
    cases first : (storedIntegers signed order element.tag.type payload).find? fun number =>
        decide ¬ IsIndex number with
    | some number => exact .refused _ (.outside wholeSize first)
    | none =>
      have inRange : ∀ number ∈ storedIntegers signed order element.tag.type payload,
          IsIndex number := fun number held => by
        simpa using List.find?_eq_none.mp first number held
      have kept := List.map_congr_left fun number held => bmod_of_isIndex (inRange number held)
      rw [List.map_id'] at kept
      dsimp only [Option.map_none]
      rw [kept]
      exact .indices wholeSize inRange
  · rw [indices, integers_of_partial holds integer whole]
    exact .refused _ (.partly (holds.size ▸ whole))

end Element

/-! ### Dimensions and indices -/

namespace Cursor

variable {cursor rest : Cursor}

/-- An element that was read holds its payload, in the order of the bytes that it is read from. -/
theorem holds_of_element (read : cursor.element.result = .ok (element, rest)) :
    element.Holds cursor.order element.tag.type element.bytes := by
  obtain ⟨size, _, _, _, _, order, _⟩ := takes_of_element read
  exact ⟨rfl, size, rfl, order⟩

theorem result_indices_of_element (read : cursor.element.result = .ok (element, rest)) :
    cursor.indices.result = element.indices >>= fun indices => pure (indices, rest) := by
  rw [result_indices, Outcome.bind_of_ok read]

/-- Indices are read from an element of integers exactly if it holds whole numbers that all are in
the range of indices, and then they are just the integers that it holds, in order. Otherwise the
element is refused as malformed. -/
theorem indices_of_stored (read : cursor.element.result = .ok (element, rest))
    (integer : element.tag.type.signed? = some signed) :
    ((∃ found, cursor.indices.result = .ok found) ↔
      element.tag.type.size ∣ element.tag.size ∧
        ∀ number ∈ storedIntegers signed cursor.order element.tag.type element.bytes,
          IsIndex number) ∧
    (∀ indices next, cursor.indices.result = .ok (indices, next) →
      indices.map Int.ofNat =
        storedIntegers signed cursor.order element.tag.type element.bytes ∧ next = rest) ∧
    (¬ (element.tag.type.size ∣ element.tag.size ∧
        ∀ number ∈ storedIntegers signed cursor.order element.tag.type element.bytes,
          IsIndex number) →
      ∃ reason, cursor.indices.result = .error (.malformed element.offset reason) ∧
        element.NoIndices (storedIntegers signed cursor.order element.tag.type element.bytes)
          reason) := by
  have outcome := Element.indicesOutcome_of_holds (holds_of_element read) integer
  rw [result_indices_of_element read]
  generalize element.indices = found at outcome
  cases outcome with
  | indices whole inRange =>
    refine ⟨⟨fun _ => ⟨whole, inRange⟩, fun _ => ⟨_, rfl⟩⟩, fun indices next same => ?_,
      fun other => absurd ⟨whole, inRange⟩ other⟩
    cases same
    exact ⟨map_ofNat_toNat inRange, rfl⟩
  | refused reason none =>
    have missing := none.not_indices
    exact ⟨⟨nofun, fun holds => absurd holds missing⟩, nofun, fun _ => ⟨reason, rfl, none⟩⟩

/-- Two dimensions in the packed form, as signed numbers of 16 bits. -/
def twoDimensions : Cursor := ⟨[0, 4, 0, 3, 0, 3, 0, 2], 16, .big⟩

/-- An index and one right above the range of indices, as unsigned numbers of 64 bits. -/
def highIndex : Cursor :=
  ⟨[13, 0, 0, 0, 16, 0, 0, 0, 7, 0, 0, 0, 0, 0, 0, 0, 0, 0, 0, 0, 0, 0, 0, 128], 40, .little⟩

theorem indices_of_stored_highIndex :
    twoDimensions.indices.result = .ok ([3, 2], ⟨[], 24, .big⟩) ∧
      highIndex.indices.result =
        .error (.malformed 48 (.negativeIndex (-9223372036854775808))) := by
  have dimensionsRead : twoDimensions.element.result =
      .ok (⟨⟨.int16, 4, true⟩, ⟨[0, 3, 0, 2], 20, .big⟩⟩, ⟨[], 24, .big⟩) := rfl
  have indexRead : highIndex.element.result =
      .ok (⟨⟨.uint64, 16, false⟩, ⟨highIndex.bytes.drop 8, 48, .little⟩⟩, ⟨[], 64, .little⟩) := rfl
  constructor
  · obtain ⟨accepted, exact, _⟩ := indices_of_stored dimensionsRead rfl
    obtain ⟨⟨indices, next⟩, read⟩ := accepted.mpr (by decide)
    obtain ⟨same, rfl⟩ := exact indices next read
    have numbers : indices.map Int.ofNat = [3, 2].map Int.ofNat := same
    rw [read, List.map_injective_iff.mpr (fun _ _ => Int.ofNat.inj) numbers]
  · obtain ⟨reason, refused, none⟩ := (indices_of_stored indexRead rfl).2.2 (by decide)
    cases none with
    | partly left => exact absurd (by decide) left
    | outside whole first =>
      have known : (storedIntegers false .little .uint64 (highIndex.bytes.drop 8)).find?
          (fun number => decide ¬ IsIndex number) = some 9223372036854775808 := by decide
      cases known.symm.trans first
      exact refused

end Cursor

end MatFormat
