/-
This file proves that a stream of stored blocks spells the bytes that were stored. Every
block starts and ends at a whole byte, so the reader holds no bits back between two blocks,
and the blocks are as long as the writer meant them: all but the last one are full.
-/

import MatFormat.Proofs.Outcome
import MatFormat.Zlib.Inflate
import MatFormat.Zlib.Store

namespace MatFormat

namespace Zlib

/-! ### Taking bits -/

/-- Bits that are held are taken without opening a byte. -/
theorem take_of_le {wanted held count : Nat} (enough : wanted ≤ count) (bytes : List UInt8) :
    BitSource.take ⟨held, count, bytes⟩ wanted =
      .ok (held % 2 ^ wanted, ⟨held / 2 ^ wanted, count - wanted, bytes⟩) := by
  rw [BitSource.take]
  cases bytes <;> exact if_pos enough

/-- Where too few bits are held a byte is opened. -/
theorem take_cons_of_lt {wanted held count : Nat} (short : count < wanted) (byte : UInt8)
    (rest : List UInt8) :
    BitSource.take ⟨held, count, byte :: rest⟩ wanted =
      BitSource.take ⟨held + byte.toNat * 2 ^ count, count + 8, rest⟩ wanted :=
  if_neg (Nat.not_le_of_lt short)

theorem take_byte (byte : UInt8) (rest : List UInt8) :
    (BitSource.ofBytes (byte :: rest)).take 8 = .ok (byte.toNat, .ofBytes rest) := by
  have opened : 0 + byte.toNat * 2 ^ 0 = byte.toNat := by omega
  rw [BitSource.ofBytes, take_cons_of_lt (by decide), opened, take_of_le (by decide),
    Nat.mod_eq_of_lt byte.toNat_lt, Nat.div_eq_of_lt byte.toNat_lt]
  rfl

/-- A number that is spelled in two bytes is taken as sixteen bits. -/
theorem take_encode {value : Nat} (small : value < 2 ^ 16) (rest : List UInt8) :
    (BitSource.ofBytes (ByteOrder.little.encode 2 value ++ rest)).take 16 =
      .ok (value, .ofBytes rest) := by
  have low : (UInt8.ofNat value).toNat = value % 256 := by simp
  have high : (UInt8.ofNat (value / 256)).toNat = value / 256 % 256 := by simp
  have opened : 0 + value % 256 * 2 ^ 0 + value / 256 % 256 * 2 ^ (0 + 8) = value := by omega
  have spelled : ByteOrder.little.encode 2 value =
      [UInt8.ofNat value, UInt8.ofNat (value / 256)] := rfl
  rw [spelled, List.cons_append, List.cons_append, List.nil_append, BitSource.ofBytes,
    take_cons_of_lt (by decide), take_cons_of_lt (by decide), low, high, opened,
    take_of_le (by decide), Nat.mod_eq_of_lt small, Nat.div_eq_of_lt small]
  rfl

/-! ### Blocks -/

/-- The first byte of a stored block tells whether it is the last, and that it is stored. -/
theorem readBlock_cons (last : Bool) (bytes : List UInt8) (output : Array UInt8) :
    readBlock ⟨.ofBytes ((if last then 1 else 0) :: bytes), output⟩ =
      (readStored ⟨⟨0, 5, bytes⟩, output⟩ >>= fun state => pure (last, state)) := by
  rw [readBlock, BitSource.ofBytes]
  dsimp only
  rw [take_cons_of_lt (by decide), take_of_le (by decide), Outcome.bind_of_ok rfl]
  dsimp only
  rw [take_of_le (by decide), Outcome.bind_of_ok rfl]
  cases last <;> rfl

/-- A stored block is read as its bytes. -/
theorem readBlock_storedBlock (last : Bool) {content : List UInt8}
    (fits : content.length ≤ storedLimit) (rest : List UInt8) (output : Array UInt8) :
    readBlock ⟨.ofBytes (storedBlock last content ++ rest), output⟩ =
      .ok (last, ⟨.ofBytes rest, output ++ content.toArray⟩) := by
  have limit : storedLimit = 65535 := rfl
  have length : content.length < 2 ^ 16 := by omega
  have complement : storedLimit - content.length < 2 ^ 16 := by omega
  have sum : ¬ content.length + (storedLimit - content.length) ≠ 65535 := by omega
  rw [storedBlock, List.cons_append, readBlock_cons, readStored, BitSource.align]
  dsimp only
  rw [List.append_assoc, List.append_assoc]
  rw [← BitSource.ofBytes, Outcome.bind_of_ok (take_encode length _)]
  dsimp only
  rw [Outcome.bind_of_ok (take_encode complement _)]
  dsimp only
  rw [if_neg sum, BitSource.ofBytes]
  dsimp only
  rw [List.splitAt_eq, List.take_left, List.drop_left]
  dsimp only
  rw [if_neg (Nat.lt_irrefl _)]
  rfl

/-- Stored blocks are read as the bytes they store, in at most as many turns as there are
blocks. -/
theorem readBlocks_storedBlocks {full bits : Nat} {content : List UInt8}
    (enough : full < bits) (least : full * storedLimit ≤ content.length)
    (most : content.length ≤ (full + 1) * storedLimit) (rest : List UInt8)
    (output : Array UInt8) :
    readBlocks bits ⟨.ofBytes (storedBlocks full content ++ rest), output⟩ =
      .ok ⟨.ofBytes rest, output ++ content.toArray⟩ := by
  induction full generalizing bits content output with
  | zero =>
    obtain ⟨turns, rfl⟩ := Nat.exists_eq_add_of_lt enough
    rw [Nat.zero_add, storedBlocks, readBlocks,
      Outcome.bind_of_ok (readBlock_storedBlock true (by omega) rest output)]
    rfl
  | succ full inductionHypothesis =>
    obtain ⟨turns, rfl⟩ := Nat.exists_eq_add_of_lt enough
    rw [Nat.succ_mul] at least most
    have whole : (content.take storedLimit).length = storedLimit := by
      rw [List.length_take]
      omega
    have dropped : (content.drop storedLimit).length = content.length - storedLimit :=
      List.length_drop
    rw [storedBlocks, readBlocks, List.append_assoc,
      Outcome.bind_of_ok (readBlock_storedBlock false (Nat.le_of_eq whole) _ output)]
    dsimp only
    rw [if_neg Bool.false_ne_true, inductionHypothesis (by omega) (by omega) (by omega),
      Array.append_assoc, List.append_toArray (content.take storedLimit),
      List.take_append_drop]

theorem length_lt_storedBlocks (full : Nat) (content : List UInt8) :
    full < (storedBlocks full content).length := by
  induction full generalizing content with
  | zero => exact Nat.succ_pos _
  | succ full inductionHypothesis =>
    have rest := inductionHypothesis (content.drop storedLimit)
    rw [storedBlocks, storedBlock, List.length_append, List.length_cons]
    omega

/-! ### Streams -/

theorem adler32_lt (bytes : List UInt8) : adler32 bytes < 256 ^ 4 := by
  have step (sums : Nat × Nat) (byte : UInt8) :
      (adlerStep sums byte).1 < adlerModulus ∧ (adlerStep sums byte).2 < adlerModulus :=
    ⟨Nat.mod_lt _ (by decide), Nat.mod_lt _ (by decide)⟩
  have run (bytes : List UInt8) (sums : Nat × Nat)
      (small : sums.1 < adlerModulus ∧ sums.2 < adlerModulus) :
      (bytes.foldl adlerStep sums).1 < adlerModulus ∧
        (bytes.foldl adlerStep sums).2 < adlerModulus := by
    induction bytes generalizing sums with
    | nil => exact small
    | cons byte rest inductionHypothesis => exact inductionHypothesis _ (step sums byte)
  have sums := run bytes (1, 0) ⟨by decide, by decide⟩
  have modulus : adlerModulus = 65521 := rfl
  rw [adler32]
  omega

theorem headIsValid_levelByte (level : Nat) : headIsValid 0x78 (levelByte level).toNat = true := by
  unfold levelByte
  split
  · rfl
  split
  · rfl
  split <;> rfl

/-- Inflating a stream of stored blocks gives the stored bytes and nothing more. -/
theorem inflate_deflate (level : Nat) (content : List UInt8) :
    inflate (deflate level content) = .ok (content, []) := by
  have limit : storedLimit = 65535 := rfl
  have checksum : (ByteOrder.big.encode 4 (adler32 content)).length = 4 :=
    ByteOrder.big.length_encode 4 _
  have divided : (ByteOrder.big.encode 4 (adler32 content)).splitAt 4 =
      (ByteOrder.big.encode 4 (adler32 content), []) := by
    rw [List.splitAt_eq, List.take_of_length_le (Nat.le_of_eq checksum),
      List.drop_of_length_le (Nat.le_of_eq checksum)]
  have blocks := length_lt_storedBlocks ((content.length - 1) / storedLimit) content
  have enough : (content.length - 1) / storedLimit <
      (BitSource.ofBytes (storedBlocks ((content.length - 1) / storedLimit) content
        ++ ByteOrder.big.encode 4 (adler32 content))).length := by
    rw [BitSource.length, BitSource.ofBytes, List.length_append]
    dsimp only
    omega
  have least : (content.length - 1) / storedLimit * storedLimit ≤ content.length := by
    rw [limit]
    omega
  have most : content.length ≤ ((content.length - 1) / storedLimit + 1) * storedLimit := by
    rw [limit]
    omega
  have read := readBlocks_storedBlocks enough least most
    (ByteOrder.big.encode 4 (adler32 content)) #[]
  rw [inflate, deflate]
  dsimp only
  rw [Outcome.bind_of_ok (take_byte _ _)]
  dsimp only
  rw [Outcome.bind_of_ok (take_byte _ _)]
  dsimp only
  rw [if_neg (by rw [show (0x78 : UInt8).toNat = 0x78 from rfl, headIsValid_levelByte]; decide),
    Outcome.bind_of_ok read, BitSource.ofBytes]
  dsimp only
  rw [divided]
  dsimp only
  rw [checksum, if_neg (Nat.lt_irrefl _), ByteOrder.decode_encode,
    Nat.mod_eq_of_lt (adler32_lt content)]
  simp only [Array.empty_append, ne_eq, not_true_eq_false, if_false]
  rfl

theorem inflater_deflate (level : Nat) (content : List UInt8) :
    inflater (deflate level content) = .ok content := by
  rw [inflater, inflate_deflate]

end Zlib

end MatFormat
