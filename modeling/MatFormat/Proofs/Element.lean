/-
This file proves that tags are read back, of both forms and at any offset, and that an element
is read from its tag, its payload and its padding, however many bytes follow.
-/

import MatFormat.Element
import MatFormat.Proofs.Outcome

namespace MatFormat

/-! ### Written tags -/

/-- The bytes of a tag that is not packed. -/
def tagBytes (order : ByteOrder) (type : DataType) (size : Nat) : List UInt8 :=
  order.encode 4 type.code ++ order.encode 4 size

theorem length_tagBytes {order : ByteOrder} (type : DataType) (size : Nat) :
    (tagBytes order type size).length = tagSize := by
  rw [tagBytes, List.length_append, order.length_encode, order.length_encode]
  rfl

theorem encodeTag_of_lt (order : ByteOrder) (type : DataType) {size : Nat}
    (fits : size < wordLimit) :
    encodeTag order type size = .ok (tagBytes order type size) := if_pos fits

/-- A tag can be written if its size fits in a word. -/
theorem encodeTag_eq_ok {order : ByteOrder} {type : DataType} {size : Nat} {bytes : List UInt8} :
    encodeTag order type size = .ok bytes ↔
      size < wordLimit ∧ bytes = tagBytes order type size := by
  unfold encodeTag
  constructor
  · intro written
    split at written
    · rename_i fits
      exact ⟨fits, (Except.ok.inj written).symm⟩
    · cases written
  · rintro ⟨fits, rfl⟩
    exact if_pos fits

theorem length_encodeTag {order : ByteOrder} {type : DataType} {size : Nat}
    {bytes : List UInt8} (written : encodeTag order type size = .ok bytes) :
    bytes.length = tagSize := by
  obtain ⟨_, rfl⟩ := encodeTag_eq_ok.mp written
  exact length_tagBytes type size

namespace Cursor

/-! ### Reading known bytes -/

theorem take_append (front rest : List UInt8) (offset : Nat) (order : ByteOrder) :
    Cursor.take ⟨front ++ rest, offset, order⟩ front.length =
      .ok (front, ⟨rest, offset + front.length, order⟩) := by
  rw [take_of_le _ _ (by simp [remaining])]
  simp

theorem split_append (front rest : List UInt8) (offset : Nat) (order : ByteOrder) :
    Cursor.split ⟨front ++ rest, offset, order⟩ front.length =
      .ok (⟨front, offset, order⟩, ⟨rest, offset + front.length, order⟩) := by
  rw [split, take_append]
  rfl

theorem skipAtMost_append (front rest : List UInt8) (offset : Nat) (order : ByteOrder) :
    Cursor.skipAtMost ⟨front ++ rest, offset, order⟩ front.length =
      (front.length, ⟨rest, offset + front.length, order⟩) := by
  simp [skipAtMost, List.splitAt_eq]

/-- A number that fits into its bytes is read back. -/
theorem number_append (order : ByteOrder) (width value : Nat) (fits : value < 256 ^ width)
    (rest : List UInt8) (offset : Nat) :
    Cursor.number ⟨order.encode width value ++ rest, offset, order⟩ width =
      .ok (value, ⟨rest, offset + width, order⟩) := by
  have taken := take_append (order.encode width value) rest offset order
  rw [order.length_encode] at taken
  rw [number, taken, Outcome.bind_of_ok rfl]
  dsimp only
  rw [order.decode_encode, Nat.mod_eq_of_lt fits]
  rfl

/-! ### Reading tags and elements -/

/-- A tag that is not packed is read back. -/
theorem tag_of_written {order : ByteOrder} {type : DataType} {size : Nat} {bytes : List UInt8}
    (written : encodeTag order type size = .ok bytes) (rest : List UInt8) (offset : Nat) :
    Cursor.tag ⟨bytes ++ rest, offset, order⟩ =
      .ok (⟨type, size, false⟩, ⟨rest, offset + tagSize, order⟩) := by
  obtain ⟨fits, rfl⟩ := encodeTag_eq_ok.mp written
  have small := type.code_lt
  have code : type.code < 256 ^ 4 := Nat.lt_trans small (by decide)
  have upper : ¬ type.code / 65536 ≠ 0 := by omega
  rw [tagBytes, tag, List.append_assoc]
  dsimp only
  rw [number_append order 4 type.code code, Outcome.bind_of_ok rfl]
  dsimp only
  rw [if_neg upper, number_append order 4 size fits, Outcome.bind_of_ok rfl]
  dsimp only
  rw [DataType.ofCode?_code]
  rfl

/-- A packed tag is read back. -/
theorem tag_of_packed (order : ByteOrder) (type : DataType) (size : Nat)
    (positive : 1 ≤ size) (short : size ≤ packedLimit) (primitive : type.isPrimitive = true)
    (rest : List UInt8) (offset : Nat) :
    Cursor.tag ⟨order.encode 4 (size * 65536 + type.code) ++ rest, offset, order⟩ =
      .ok (⟨type, size, true⟩, ⟨rest, offset + 4, order⟩) := by
  have small := type.code_lt
  have limit : packedLimit = 4 := rfl
  have word : size * 65536 + type.code < 256 ^ 4 := by
    have bound : (256 : Nat) ^ 4 = 4294967296 := by decide
    omega
  have upper : (size * 65536 + type.code) / 65536 = size := by omega
  have lower : (size * 65536 + type.code) % 65536 = type.code := by omega
  rw [tag]
  dsimp only
  rw [number_append order 4 _ word, Outcome.bind_of_ok rfl]
  dsimp only
  rw [upper, lower, if_pos (by omega), if_neg (by omega), DataType.ofCode?_code]
  dsimp only
  rw [if_neg (by simp [primitive])]
  rfl

/-- After its tag, an element with all its padding is read without a remark, up to the bytes
behind it. -/
theorem reading_element_of_tag {cursor next : Cursor} {tag : Tag} {payload rest : List UInt8}
    {offset : Nat} {order : ByteOrder} (padding : List UInt8)
    (read : cursor.tag = .ok (tag, next))
    (here : next = ⟨payload ++ (padding ++ rest), offset, order⟩)
    (size : tag.size = payload.length) (padded : tag.padding = padding.length) :
    cursor.element =
      pure (⟨tag, ⟨payload, offset, order⟩⟩,
        ⟨rest, offset + payload.length + padding.length, order⟩) := by
  have divided := split_append payload (padding ++ rest) offset order
  rw [element, Reading.lift_bind_of_ok read]
  dsimp only
  rw [here, size, Reading.lift_bind_of_ok divided]
  dsimp only
  rw [padded, skipAtMost_append]
  dsimp only
  rw [if_neg (Nat.lt_irrefl _)]

theorem element_of_tag {cursor next : Cursor} {tag : Tag} {payload rest : List UInt8}
    {offset : Nat} {order : ByteOrder} (padding : List UInt8)
    (read : cursor.tag = .ok (tag, next))
    (here : next = ⟨payload ++ (padding ++ rest), offset, order⟩)
    (size : tag.size = payload.length) (padded : tag.padding = padding.length) :
    cursor.element.result =
      .ok (⟨tag, ⟨payload, offset, order⟩⟩,
        ⟨rest, offset + payload.length + padding.length, order⟩) :=
  congrArg Reading.result (reading_element_of_tag padding read here size padded)

end Cursor

end MatFormat
