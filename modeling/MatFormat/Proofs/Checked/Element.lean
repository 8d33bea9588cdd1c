/-
This file proves that the values of an element are computed without a trap and are those of
the element. The size of a payload fits in a word, so the number of its values and the room for
them do; every piece that a value is read from has the width of the value; and a text type,
which is the only one that is not the type of the class that its values are read in, stores the
values of that class as they are.
-/

import MatFormat.Matrix.Reader
import MatFormat.Proofs.Checked.Window
import MatFormat.Proofs.Run

namespace MatFormat

/-! ### Classes -/

theorem NumericClass.size_le (numericClass : NumericClass) : numericClass.size ≤ 8 := by
  cases numericClass <;> decide

/-- A type that stores the values of a class and is not the type of the class is a text type. -/
theorem DataType.ne_single_of_storedClass? {type : DataType} {stored : NumericClass}
    (holds : type.storedClass? = some stored) (other : type ≠ stored.dataType) :
    stored ≠ .single := by
  rintro rfl
  cases type <;> cases holds
  exact other rfl

namespace Checked

/-! ### Values -/

theorem count_ok (tag : Tag) : count tag = .ok tag.count := quotient_of_pos tag.type.size_pos _

theorem readValue_of_length {numericClass : NumericClass} {piece : List UInt8}
    (whole : piece.length = numericClass.size) (order : ByteOrder) :
    readValue numericClass order piece = .ok (numericClass.read order piece) := by
  rw [readValue, Outcome.bind_of_ok (slice_all whole)]
  rfl

theorem convertValue_of_length {stored : NumericClass} {piece : List UInt8}
    (whole : piece.length = stored.size) (wanted : NumericClass) (order : ByteOrder) :
    convertValue stored wanted order piece =
      .ok (wanted.narrow (stored.widen (stored.read order piece))) := by
  rw [convertValue, Outcome.bind_of_ok (readValue_of_length whole order)]
  rfl

/-- Reading a value and bringing it into a class is loading it, unless it is stored in the type
of the class. -/
theorem load_of_ne {type : DataType} {stored wanted : NumericClass}
    (holds : type.storedClass? = some stored) (other : type ≠ wanted.dataType)
    (order : ByteOrder) (piece : List UInt8) :
    wanted.load stored order piece = wanted.narrow (stored.widen (stored.read order piece)) := by
  rw [NumericClass.load]
  split
  · rename_i same
    subst same
    exact (NumericClass.narrow_widen (DataType.ne_single_of_storedClass? holds other) _).symm
  · rfl

theorem agrees_checkCount (element : Element) (expected actual : Nat) :
    Agrees Eq (checkCount element.offset expected actual) (element.checkCount expected actual) := by
  unfold checkCount Element.checkCount
  exact .ite Iff.rfl (fun _ => .error _) fun _ =>
    .ite Iff.rfl (fun _ => .error _) fun _ => .ok rfl

namespace IsPart

variable {limit : Nat} {part : Part} {element : Element} (isPart : IsPart limit part element)
include isPart

theorem offset_ok : part.payload.offset = .ok element.offset := isPart.payload.offset_ok

theorem take_ok : ∃ rest : Window,
    part.payload.take part.tag.size = .ok (element.bytes, rest) := by
  rw [isPart.tag]
  exact isPart.payload.take_all isPart.whole

/-- The pieces of a payload that is a whole number of values long. -/
theorem chunks_ok : chunks element.tag.type.size element.bytes =
    .ok (pieces element.tag.type.size element.tag.count element.bytes) := by
  have whole : element.bytes.length = element.tag.size := isPart.whole
  rw [chunks_of_pos element.tag.type.size_pos, whole, Tag.count]

theorem length_of_mem_pieces {piece : List UInt8}
    (member : piece ∈ pieces element.tag.type.size element.tag.count element.bytes) :
    piece.length = element.tag.type.size := by
  have whole : element.bytes.length = element.tag.size := isPart.whole
  rw [Tag.count, ← whole] at member
  exact length_of_mem_chunks member

theorem agrees_values (wanted : NumericClass) :
    Agrees Eq (part.values wanted) (element.values wanted) := by
  have short := isPart.short
  have fits : wordLimit * 8 < allocationLimit := by decide
  have limits := allocationLimit_lt_countLimit
  have divided : element.tag.count * element.tag.type.size ≤ element.tag.size :=
    Nat.div_mul_le_self _ _
  obtain ⟨rest, taken⟩ := isPart.take_ok
  unfold Part.values Element.values
  rw [taken, isPart.tag, isPart.payload.order.symm]
  dsimp only
  refine .step isPart.offset_ok ?_
  cases holds : element.tag.type.storedClass? with
  | none => exact .error _
  | some stored =>
    have whole : element.tag.count * element.tag.type.size ≠ element.tag.size ↔
        element.tag.size % element.tag.type.size ≠ 0 := by
      have parts := Nat.div_add_mod' element.tag.size element.tag.type.size
      rw [Tag.count]
      omega
    have wide : element.tag.count * wanted.size ≤ element.tag.size * 8 :=
      Nat.mul_le_mul (Nat.div_le_self _ _) wanted.size_le
    refine .step (count_ok _) (.step (product_of_lt (by omega)) ?_)
    refine .ite whole (fun _ => .error _) fun _ => .step rfl (.step (reserve_of_lt (by omega)) ?_)
    split
    · rename_i same
      have itself : stored = wanted := Option.some.inj
        (holds.symm.trans (same ▸ wanted.storedClass?_dataType))
      have width : wanted.size = element.tag.type.size := by rw [same, wanted.size_dataType]
      subst itself
      rw [width]
      refine .step isPart.chunks_ok ?_
      rw [mapM_of_ok fun piece member => readValue_of_length
        ((isPart.length_of_mem_pieces member).trans width.symm) _]
      refine .ok (List.map_congr_left fun piece _ => ?_)
      rw [NumericClass.load, if_pos rfl]
    · rename_i other
      have width := DataType.size_of_storedClass? holds
      refine .step isPart.chunks_ok ?_
      rw [mapM_of_ok fun piece member => convertValue_of_length
        ((isPart.length_of_mem_pieces member).trans width) wanted _]
      exact .ok (List.map_congr_left fun piece _ => (load_of_ne holds other _ _).symm)

theorem agrees_exactly (wanted : NumericClass) (expected : Nat) :
    Agrees Eq (part.exactly wanted expected) (element.exactly wanted expected) := by
  refine (isPart.agrees_values wanted).bind_same fun values => ?_
  refine .step isPart.offset_ok ?_
  exact (agrees_checkCount element expected values.length).bind fun _ _ _ => .ok rfl

theorem agrees_atLeast (wanted : NumericClass) (expected : Nat) :
    Agrees Eq (part.atLeast wanted expected) (element.atLeast wanted expected) := by
  refine (isPart.agrees_values wanted).bind_same fun values => ?_
  exact .ite Iff.rfl (fun _ => .step isPart.offset_ok (.error _)) fun _ => .ok rfl

theorem agrees_integers : Agrees Eq part.integers element.integers := by
  refine (isPart.agrees_values .int64).bind_same fun values => ?_
  exact .ok rfl

/-! ### Text -/

theorem agrees_codeUnits (expected : Nat) :
    Agrees Eq (part.codeUnits expected) (element.codeUnits expected) := by
  obtain ⟨rest, taken⟩ := isPart.take_ok
  rw [isPart.tag] at taken
  unfold Part.codeUnits Element.codeUnits
  rw [isPart.tag]
  refine .step isPart.offset_ok ?_
  split
  · refine .step taken ?_
    dsimp only
    cases Utf8.decode element.bytes with
    | error fault => exact .error _
    | ok text => exact (agrees_checkCount element expected _).bind fun _ _ _ => .ok rfl
  · refine (isPart.agrees_values .uint16).bind_same fun units => ?_
    exact (agrees_checkCount element expected _).bind fun _ _ _ => .ok rfl

theorem agrees_name : Agrees Eq part.name element.name := by
  obtain ⟨rest, taken⟩ := isPart.take_ok
  have bytes : Agrees Eq
      (part.payload.take part.tag.size >>= fun read =>
        before (fun byte => byte == 0) read.1 >>= fun spelled => pure (Utf8.decodeLossy spelled))
      (.ok (Utf8.decodeLossy (Element.beforeNul element.bytes))) :=
    .step taken (.step (before_eq _ _) (.ok rfl))
  have units : Agrees Eq
      (part.values .uint16 >>= fun units =>
        before (fun unit => unit.toNat == 0) units >>= fun spelled =>
          pure (Utf16.decodeLossy spelled))
      (element.values .uint16 >>= fun units =>
        pure (Utf16.decodeLossy (units.takeWhile fun unit => unit.toNat != 0))) := by
    refine (isPart.agrees_values .uint16).bind_same fun units => ?_
    exact .step (before_eq _ _) (.ok rfl)
  unfold Part.name Element.name
  rw [← isPart.tag]
  cases part.tag.type
  case utf8 | int8 | uint8 => exact bytes
  all_goals exact units

theorem agrees_fieldNames {length : Nat} (positive : 0 < length) :
    Agrees Eq (part.fieldNames length) (element.fieldNames length).result := by
  obtain ⟨rest, taken⟩ := isPart.take_ok
  have whole : element.bytes.length = element.tag.size := isPart.whole
  rw [Element.fieldNames, Reading.result_noteIf]
  refine .step taken ?_
  rw [isPart.tag]
  refine .step (quotient_of_pos positive _) (.step (remainder_of_pos positive _)
    (.step (chunks_of_pos positive _) ?_))
  rw [whole, List.take_of_length_le (Nat.le_of_eq (length_pieces _ _ _)),
    mapM_of_ok fun slot _ => by rw [Outcome.bind_of_ok (before_eq _ slot)]; rfl]
  exact .ok rfl

end IsPart

/-! ### Indices -/

theorem Sees.agrees_indices {limit : Nat} {window : Window} {cursor : Cursor}
    (sees : Sees limit window cursor) :
    Agrees (Follows limit Eq) window.indices cursor.indices.result := by
  refine sees.agrees_element.reading fun (part, window) (element, cursor) ⟨isPart, sees⟩ => ?_
  refine isPart.agrees_integers.reading_same fun values => ?_
  refine .step isPart.offset_ok ?_
  have checked : Agrees Eq (lift (checkIndices element.offset values))
      (liftM (checkIndices element.offset values) : Reading (List Nat)).result := .lift _
  exact checked.reading fun indices _ same => .ok ⟨same, sees⟩

end Checked

end MatFormat
