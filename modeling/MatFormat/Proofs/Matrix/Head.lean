/-
This file takes the head of a written matrix apart. The class and the flags share a word
without touching each other, the dimensions are kept as they are, and of the name the part
before its first NUL.
-/

import MatFormat.Matrix.Reader
import MatFormat.Proofs.Kept

namespace MatFormat

/-! ### Class and flags in one word -/

theorem Flags.word_mod (flags : Flags) : flags.word % 512 = 0 := by
  obtain ⟨complex, global, logical⟩ := flags
  cases complex <;> cases global <;> cases logical <;> rfl

theorem Flags.word_lt (flags : Flags) : flags.word < 4096 := by
  obtain ⟨complex, global, logical⟩ := flags
  cases complex <;> cases global <;> cases logical <;> decide

/-- A class in the lowest byte leaves the flags of a word alone. -/
theorem Flags.ofWord_add_word (code : Nat) (small : code < 256) (flags : Flags) :
    ofWord (code + flags.word) = flags := by
  obtain ⟨complex, global, logical⟩ := flags
  have bit (position : Nat) (value : Nat) :
      value.testBit position = decide (value / 2 ^ position % 2 = 1) :=
    Nat.testBit_eq_decide_div_mod_eq
  cases complex <;> cases global <;> cases logical <;>
    simp [ofWord, word, bit] <;> omega

theorem ArrayClass.code_add_word_lt (arrayClass : ArrayClass) (flags : Flags) :
    arrayClass.code + flags.word < wordLimit := by
  have small := arrayClass.code_lt
  have word := flags.word_lt
  have limit : wordLimit = 2 ^ 32 := rfl
  omega

theorem ArrayClass.code_add_word_mod (arrayClass : ArrayClass) (flags : Flags) :
    (arrayClass.code + flags.word) % 256 = arrayClass.code := by
  have small := arrayClass.code_lt
  have aligned := flags.word_mod
  omega

/-! ### The head -/

/-- The head that is read where an array was written. -/
def MatArray.writtenHead (array : MatArray) (offset : Nat) : MatrixHead where
  classCode := array.arrayClass.code
  flags := array.writtenFlags
  capacity := array.writtenCapacity
  dimensions := array.dimensions
  name := cutName array.name
  offset := offset

theorem MatArray.matrixBody_writtenHead (cursor : Cursor)
    (nested : Cursor → Reading (Option MatArray)) (array : MatArray) (start : Nat) :
    cursor.matrixBody nested (array.writtenHead start) =
      cursor.classBody nested array.arrayClass array.keptInfo array.writtenCapacity := by
  rw [Cursor.matrixBody, writtenHead]
  dsimp only
  rw [ArrayClass.ofCode?_code]
  dsimp only
  rw [dimensions, Shape.ofDimensions_dimensions]
  rfl

theorem toNat_word {word : Nat} (fits : word < wordLimit) :
    (BitVec.ofNat (8 * NumericClass.uint32.size) word).toNat = word := by
  rw [BitVec.toNat_ofNat]
  exact Nat.mod_eq_of_lt fits

/-- Two words that are written as one element. -/
theorem encodeElement_words (order : ByteOrder) {first second : Nat}
    (firstFits : first < wordLimit) (secondFits : second < wordLimit) :
    encodeElement order .uint32 (order.encode 4 first ++ order.encode 4 second) =
      encodeValues order .uint32 [BitVec.ofNat _ first, BitVec.ofNat _ second] := by
  have spelled (word : Nat) (fits : word < wordLimit) :
      NumericClass.uint32.write order (BitVec.ofNat _ word) = order.encode 4 word := by
    rw [NumericClass.write, toNat_word fits]
    rfl
  rw [encodeValues, List.flatMap_cons, List.flatMap_cons, List.flatMap_nil, List.append_nil,
    spelled first firstFits, spelled second secondFits]
  rfl

/-- A written head is the flags and the capacity, the dimensions and the name, each of which
could be written. -/
theorem parts_of_encodeHead {order : ByteOrder} {array : MatArray} {bytes : List UInt8}
    (written : encodeHead order array = .ok bytes) :
    ∃ flags dimensions name : List UInt8,
      bytes = flags ++ (dimensions ++ name) ∧ array.writtenCapacity < wordLimit ∧
      encodeValues order .uint32
        [BitVec.ofNat _ (array.arrayClass.code + array.writtenFlags.word),
          BitVec.ofNat _ array.writtenCapacity] = .ok flags ∧
      encodeIndices order array.name array.dimensions = .ok dimensions ∧
      encodeName order array.name = .ok name := by
  unfold encodeHead at written
  dsimp only at written
  split at written
  · cases written
  · rename_i fits
    have capacity : array.writtenCapacity < wordLimit := Nat.lt_of_not_le fits
    rw [encodeElement_words order (ArrayClass.code_add_word_lt _ _) capacity] at written
    obtain ⟨flags, flagsWritten, written⟩ := Outcome.bind_eq_ok.mp written
    obtain ⟨dimensions, dimensionsWritten, written⟩ := Outcome.bind_eq_ok.mp written
    obtain ⟨name, nameWritten, written⟩ := Outcome.bind_eq_ok.mp written
    rw [Outcome.pure_eq_ok] at written
    exact ⟨flags, dimensions, name, by rw [← written, List.append_assoc], capacity,
      flagsWritten, dimensionsWritten, nameWritten⟩

end MatFormat
