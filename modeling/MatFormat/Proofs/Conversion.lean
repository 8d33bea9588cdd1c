/-
This file proves what becomes of stored integers. An integer of any type is read in any class of
integers as the one value that agrees with it modulo the width of the class, and so as itself if the
class has it: widening keeps the sign that the type gives it, and only then are high bits dropped.
Where the type is that of the class, its bytes are taken as they are. That is no other value than
the one that widening and narrowing would give, of the floating point numbers also for those of the
widest format, whose bits are never touched.
-/

import MatFormat.Proofs.Layout.Run
import Mathlib.Data.Int.ModEq
import Mathlib.Data.List.Basic

namespace MatFormat

variable {order : ByteOrder} {type : DataType} {payload : List UInt8} {element : Element}

/-! ### Stored integers -/

/-- Whether the integers of a type have a sign, absent for a type that holds no integers. -/
def DataType.signed? : DataType → Option Bool
  | int8 | int16 | int32 | int64 => some true
  | uint8 | uint16 | uint32 | uint64 | utf8 | utf16 | utf32 => some false
  | single | double | matrix | compressed => none

/-- The integer that bytes spell, in two's complement if it has a sign. -/
def storedInteger (signed : Bool) (order : ByteOrder) (bytes : List UInt8) : Int :=
  if signed = true ∧ 2 ^ (8 * bytes.length) ≤ 2 * order.decode bytes then
    order.decode bytes - 2 ^ (8 * bytes.length)
  else order.decode bytes

/-- How integers with or without a sign are read. -/
def NumericClass.Form.ofSign (signed : Bool) : NumericClass.Form :=
  if signed = true then .signed else .unsigned

/-- Integers are stored in a class of integers that has a sign if the type has. -/
theorem DataType.stored_of_signed? {signed : Bool} (integer : type.signed? = some signed) :
    ∃ stored, type.storedClass? = some stored ∧ stored.form = .ofSign signed := by
  cases type <;> cases integer <;> exact ⟨_, rfl, rfl⟩

/-- The bytes of one value of a payload. -/
def valueBytes (type : DataType) (payload : List UInt8) (place : Nat) : List UInt8 :=
  (payload.drop (place * type.size)).take type.size

namespace NumericClass

theorem isInteger_of_form {stored : NumericClass} {signed : Bool}
    (form : stored.form = .ofSign signed) : stored.isInteger = true := by
  unfold isInteger
  rw [form]
  cases signed <;> rfl

/-- The value that is read from the bytes of an integer is that integer. -/
theorem integer_read {stored : NumericClass} {signed : Bool}
    (form : stored.form = .ofSign signed) {bytes : List UInt8}
    (whole : bytes.length = stored.size) :
    stored.integer (stored.read order bytes) = storedInteger signed order bytes := by
  have small : order.decode bytes < 2 ^ (8 * stored.size) := by
    rw [← whole, Nat.pow_mul]
    exact order.decode_lt bytes
  have number : (stored.read order bytes).toNat = order.decode bytes := by
    rw [read, BitVec.toNat_ofNat, Nat.mod_eq_of_lt small]
  unfold integer storedInteger
  rw [form, whole, Form.ofSign]
  cases signed with
  | false =>
    simp only [Bool.false_eq_true, false_and, if_false]
    exact congrArg Int.ofNat number
  | true =>
    have cond := BitVec.toInt_eq_toNat_cond (stored.read order bytes)
    rw [number] at cond
    simp only [if_true, true_and]
    rw [cond]
    by_cases high : 2 ^ (8 * stored.size) ≤ 2 * order.decode bytes
    · rw [if_pos high, if_neg (Nat.not_lt_of_le high), Nat.cast_pow]
      rfl
    · rw [if_neg high, if_pos (Nat.lt_of_not_le high)]

/-! ### Values of a class -/

/-- The value of a class that an integer becomes: the only one that agrees with it modulo the width
of the class, and the integer itself if the class has it. -/
structure Becomes (wanted : NumericClass) (number : Int) (value : wanted.Value) : Prop where
  congruent : wanted.integer value ≡ number [ZMOD 2 ^ (8 * wanted.size)]
  unique : ∀ other : wanted.Value,
    wanted.integer other ≡ number [ZMOD 2 ^ (8 * wanted.size)] → other = value
  exact : wanted.bounds.1 ≤ number → number ≤ wanted.bounds.2 → wanted.integer value = number

theorem ofInt_eq_of_modEq {width : Nat} {first second : Int}
    (agree : first ≡ second [ZMOD 2 ^ width]) :
    BitVec.ofInt width first = BitVec.ofInt width second := by
  apply BitVec.eq_of_toNat_eq
  rw [BitVec.toNat_ofInt, BitVec.toNat_ofInt, Nat.cast_pow]
  exact congrArg Int.toNat agree

theorem cast_toNat_ofInt (width : Nat) (number : Int) :
    ((BitVec.ofInt width number).toNat : Int) = number % 2 ^ width := by
  have nonzero : ((2 ^ width : Nat) : Int) ≠ 0 :=
    Int.natCast_ne_zero.mpr (Nat.ne_of_gt (Nat.two_pow_pos width))
  rw [BitVec.toNat_ofInt, Int.toNat_of_nonneg (Int.emod_nonneg _ nonzero), Nat.cast_pow]
  rfl

theorem integer_ofInt_modEq {wanted : NumericClass} (wantedInteger : wanted.isInteger = true)
    (number : Int) :
    wanted.integer (BitVec.ofInt _ number) ≡ number [ZMOD 2 ^ (8 * wanted.size)] := by
  unfold isInteger at wantedInteger
  unfold integer
  cases form : wanted.form with
  | float format =>
    rw [form] at wantedInteger
    cases wantedInteger
  | signed =>
    dsimp only
    rw [BitVec.toInt_ofInt]
    have agree : number.bmod (2 ^ (8 * wanted.size)) % (2 ^ (8 * wanted.size) : Nat) =
      number % (2 ^ (8 * wanted.size) : Nat) := Int.bmod_emod
    rwa [Nat.cast_pow] at agree
  | unsigned =>
    dsimp only
    rw [cast_toNat_ofInt]
    exact Int.mod_modEq number _

/-- An integer in the range of a class is a value of it. -/
theorem integer_eq_of_bounds {wanted : NumericClass} (wantedInteger : wanted.isInteger = true)
    {number : Int} (low : wanted.bounds.1 ≤ number) (high : number ≤ wanted.bounds.2) :
    wanted.integer (BitVec.ofInt _ number) = number := by
  unfold isInteger at wantedInteger
  unfold bounds at low high
  unfold integer
  have positive := wanted.size_pos
  cases form : wanted.form with
  | float format =>
    rw [form] at wantedInteger
    cases wantedInteger
  | signed =>
    rw [form] at low high
    dsimp only at low high ⊢
    obtain ⟨rest, width⟩ : ∃ rest, 8 * wanted.size = rest + 1 :=
      ⟨8 * wanted.size - 1, by omega⟩
    rw [width, Nat.add_sub_cancel] at low high
    have double : ((2 ^ (rest + 1) : Nat) : Int) = 2 ^ rest * 2 := by
      rw [Nat.cast_pow, pow_succ]
      rfl
    rw [BitVec.toInt_ofInt, width]
    exact Int.bmod_eq_of_le_mul_two (by omega) (by omega)
  | unsigned =>
    rw [form] at low high
    dsimp only at low high ⊢
    rw [cast_toNat_ofInt]
    exact Int.emod_eq_of_lt low (Int.lt_of_le_sub_one high)

theorem becomes_ofInt {wanted : NumericClass} (wantedInteger : wanted.isInteger = true)
    (number : Int) : wanted.Becomes number (BitVec.ofInt _ number) where
  congruent := integer_ofInt_modEq wantedInteger number
  unique other agree := by rw [← wanted.ofInt_integer other, ofInt_eq_of_modEq agree]
  exact := integer_eq_of_bounds wantedInteger

/-- The bytes of a stored integer are loaded as the value that it becomes. -/
theorem becomes_load {wanted stored : NumericClass} (wantedInteger : wanted.isInteger = true)
    {signed : Bool} (form : stored.form = .ofSign signed)
    {bytes : List UInt8} (whole : bytes.length = stored.size) :
    wanted.Becomes (storedInteger signed order bytes) (wanted.load stored order bytes) := by
  rw [← stored.write_read order bytes whole, load_integer wantedInteger (isInteger_of_form form),
    stored.write_read order bytes whole, integer_read form whole]
  exact becomes_ofInt wantedInteger _

end NumericClass

/-! ### Runs -/

/-- The values of a class whose bytes follow one another. -/
def NumericClass.takenRun (wanted : NumericClass) (order : ByteOrder) (payload : List UInt8) :
    List wanted.Value :=
  (pieces wanted.size (payload.length / wanted.size) payload).map (wanted.read order)

/-- The numbers of a type, each widened and brought into a class. -/
def NumericClass.convertedRun (wanted : NumericClass) (type : DataType) (order : ByteOrder)
    (payload : List UInt8) : List (Option wanted.Value) :=
  (pieces type.size (payload.length / type.size) payload).map fun piece =>
    (Scalar.read? type order piece).map wanted.narrow

/-- Values of the type of their class are widened and narrowed to themselves. -/
theorem NumericClass.convertedRun_dataType {wanted : NumericClass} (kept : wanted ≠ .single)
    (order : ByteOrder) (payload : List UInt8) :
    wanted.convertedRun wanted.dataType order payload =
      (wanted.takenRun order payload).map some := by
  rw [convertedRun, takenRun, wanted.size_dataType, List.map_map]
  refine List.map_congr_left fun piece member => ?_
  have width := length_of_mem_pieces (Nat.div_mul_le_self _ _) member
  rw [Scalar.read?, wanted.storedClass?_dataType, Option.map_some, Option.map_some,
    List.take_of_length_le (Nat.le_of_eq width), narrow_widen kept]
  rfl

namespace Element

/-- Every stored integer becomes a value of the class that is asked for, in order. -/
theorem becomes_of_integers {signed : Bool} (holds : element.Holds order type payload)
    (integer : type.signed? = some signed) (whole : type.size ∣ payload.length)
    {wanted : NumericClass} (wantedInteger : wanted.isInteger = true) :
    ∃ values, element.values wanted = .ok values ∧
      values.length * type.size = payload.length ∧
      ∀ (place : Nat) (inside : place < values.length),
        wanted.Becomes (storedInteger signed order (valueBytes type payload place))
          values[place] := by
  obtain ⟨stored, storage, form⟩ := DataType.stored_of_signed? integer
  refine ⟨_, values_of_whole holds storage whole wanted, ?_, fun place inside => ?_⟩
  · rw [List.length_map, length_pieces, Nat.div_mul_cancel whole]
  · rw [List.length_map, length_pieces] at inside
    have piece : (pieces type.size (payload.length / type.size) payload)[place]? =
        some (valueBytes type payload place) := getElem?_pieces inside payload
    have width := length_of_mem_pieces (Nat.div_mul_le_self _ _) (List.mem_of_getElem? piece)
    obtain ⟨_, here⟩ := List.getElem?_eq_some_iff.mp piece
    rw [List.getElem_map, here]
    exact NumericClass.becomes_load wantedInteger form
      (width.trans (DataType.size_of_storedClass? storage))

/-- Values of the type of the class that is asked for are taken as they are. -/
theorem values_of_dataType {wanted : NumericClass}
    (holds : element.Holds order wanted.dataType payload)
    (whole : wanted.dataType.size ∣ payload.length) :
    element.values wanted = .ok (wanted.takenRun order payload) := by
  rw [values_of_whole holds wanted.storedClass?_dataType whole, NumericClass.takenRun,
    wanted.size_dataType]
  refine congrArg Except.ok (List.map_congr_left fun piece _ => ?_)
  rw [NumericClass.load, if_pos rfl]

end Element

/-! ### Runs of integers -/

/-- Stored integers are read, value by value and in order, as the values that they become in a
class. Values of the type of the class are taken as they are, which gives what widening and
narrowing each of them would give. -/
theorem conversion_of_integers (holds : element.Holds order type payload)
    (whole : type.size ∣ payload.length) (wanted : NumericClass) :
    (∀ signed, type.signed? = some signed → wanted.isInteger = true →
      ∃ values, element.values wanted = .ok values ∧
        values.length * type.size = payload.length ∧
        ∀ (place : Nat) (inside : place < values.length),
          wanted.Becomes (storedInteger signed order (valueBytes type payload place))
            values[place]) ∧
    (type = wanted.dataType → wanted ≠ .single →
      element.values wanted = .ok (wanted.takenRun order payload) ∧
        wanted.convertedRun type order payload = (wanted.takenRun order payload).map some) := by
  refine ⟨fun signed integer wantedInteger =>
    Element.becomes_of_integers holds integer whole wantedInteger, ?_⟩
  rintro rfl kept
  exact ⟨Element.values_of_dataType holds whole,
    NumericClass.convertedRun_dataType kept order payload⟩

/-- A number with a sign that its class does not have and one that it has, a code of 32 bits that
only a wider class with a sign has, and a number of the widest format. -/
theorem conversion_of_integers_mixed :
    (Element.single .big .int16 [0xFF, 0xFE, 0x00, 0x80]).values .uint8 = .ok [254, 128] ∧
      (∃ value, (Element.single .little .utf32 [0xFF, 0xFF, 0xFF, 0xFF]).values .int64 =
        .ok [value] ∧ NumericClass.int64.integer value = 4294967295) ∧
      (Element.single .big .double [0x40, 0x10, 0, 0, 0, 0, 0, 0]).values .double =
        .ok [0x4010000000000000] := by
  obtain ⟨wrapped, wrappedRead, wrappedLength, wraps⟩ := (conversion_of_integers
    (Element.holds_single .big .int16 [0xFF, 0xFE, 0x00, 0x80]) (by decide) .uint8).1 true rfl rfl
  obtain ⟨wide, wideRead, wideLength, keeps⟩ := (conversion_of_integers
    (Element.holds_single .little .utf32 [0xFF, 0xFF, 0xFF, 0xFF]) (by decide) .int64).1 false rfl
      rfl
  obtain ⟨first, second, rfl⟩ := List.length_eq_two.mp
    (Nat.eq_of_mul_eq_mul_right (by decide : 0 < 2) wrappedLength)
  obtain ⟨value, rfl⟩ := List.length_eq_one_iff.mp
    (Nat.eq_of_mul_eq_mul_right (by decide : 0 < 4) wideLength)
  have firstValue : 254 = first := (wraps 0 Nat.two_pos).unique 254 (by decide)
  have secondValue : 128 = second := (wraps 1 Nat.one_lt_two).unique 128 (by decide)
  refine ⟨?_, ⟨value, wideRead, (keeps 0 Nat.one_pos).exact (by decide) (by decide)⟩, ?_⟩
  · rw [wrappedRead, firstValue, secondValue]
  · exact ((conversion_of_integers (Element.holds_single .big .double _) (by decide) .double).2 rfl
      (by decide)).1

end MatFormat
