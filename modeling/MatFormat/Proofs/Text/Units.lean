/-
This file bounds the code units of a text by the bytes that spell it in UTF-8. No character takes
more than two units, and those of one byte take one. So while the bytes are read, the units of
the finished characters, with one more where a character has been started, are never more than
the bytes so far.
-/

import MatFormat.Proofs.Text.Utf8
import MatFormat.Text.Utf16
import Mathlib.Algebra.Ring.Nat

namespace MatFormat

namespace Utf16

theorem length_encodeChar_le (char : Char) : (encodeChar char).length ≤ 2 := by
  unfold encodeChar
  dsimp only
  split
  · exact Nat.le_succ 1
  · exact Nat.le_refl 2

theorem length_encodeChar_of_lt {char : Char} (small : char.toNat < 0x10000) :
    (encodeChar char).length = 1 := by
  unfold encodeChar
  rw [if_pos small]
  rfl

end Utf16

namespace Utf8

/-- The code units of the character that a piece is, if it is one. -/
def Piece.units : Piece → Nat
  | .char value => (Utf16.encodeChar value).length
  | .invalid _ => 0
  | .incomplete _ => 0

namespace Scan

/-- The code units of the finished characters, and one more if a character has been started. -/
def units (scan : Scan) : Nat :=
  (scan.pieces.map Piece.units).sum + if scan.start.isSome then 1 else 0

theorem units_ready (pieces : List Piece) :
    units ⟨pieces, none⟩ = (pieces.map Piece.units).sum := rfl

theorem units_started (pieces : List Piece) (start : Start) :
    units ⟨pieces, some start⟩ = (pieces.map Piece.units).sum + 1 := rfl

theorem units_lead_le (pieces : List Piece) {byte : Nat} (small : byte < 256) :
    (lead pieces byte).units ≤ (pieces.map Piece.units).sum + 1 := by
  unfold lead
  split
  · have single : (Piece.char (Char.ofNat byte)).units = 1 := by
      apply Utf16.length_encodeChar_of_lt
      rw [toNat_ofNat_of_scalar (.inl (by omega))]
      omega
    rw [units_ready, List.map_cons, List.sum_cons, single]
    omega
  · split
    · exact Nat.le_refl _
    · rw [units_ready, List.map_cons, List.sum_cons, Piece.units, Nat.zero_add]
      exact Nat.le_succ _

/-- One byte adds at most one unit: a character that it completes was counted once before. -/
theorem units_push_le (scan : Scan) (byte : UInt8) : (scan.push byte).units ≤ scan.units + 1 := by
  obtain ⟨pieces, start⟩ := scan
  cases start with
  | none => exact units_lead_le pieces byte.toNat_lt
  | some start =>
    rw [units_started]
    unfold push
    dsimp only
    split
    · split
      · have atMost := Utf16.length_encodeChar_le
          (Char.ofNat (start.bits * 64 + (byte.toNat - 0x80)))
        rw [units_ready, List.map_cons, List.sum_cons, Piece.units]
        omega
      · exact Nat.le_succ _
    · have led := units_lead_le (.invalid start.length :: pieces) byte.toNat_lt
      rw [List.map_cons, List.sum_cons, Piece.units, Nat.zero_add] at led
      exact Nat.le_succ_of_le led

theorem units_foldl_le (bytes : List UInt8) (scan : Scan) :
    (bytes.foldl push scan).units ≤ scan.units + bytes.length := by
  induction bytes generalizing scan with
  | nil => exact Nat.le_refl _
  | cons byte rest inductionHypothesis =>
    have step := scan.units_push_le byte
    have later := inductionHypothesis (scan.push byte)
    rw [List.foldl_cons, List.length_cons]
    omega

theorem units_finish_le (scan : Scan) : (scan.finish.map Piece.units).sum ≤ scan.units := by
  obtain ⟨pieces, start⟩ := scan
  cases start with
  | none => simp [finish, units]
  | some start => simp [finish, units, Piece.units]

end Scan

theorem units_pieces_le (bytes : List UInt8) :
    ((pieces bytes).map Piece.units).sum ≤ bytes.length := by
  have scanned := Scan.units_foldl_le bytes {}
  have finished := (bytes.foldl Scan.push {}).units_finish_le
  rw [show Scan.units {} = 0 from rfl] at scanned
  rw [pieces]
  omega

/-- A text that is collected from pieces has their code units and those of the characters before. -/
theorem length_encodeList_of_collect {index : Nat} {before text : List Char}
    {pieces : List Piece} (collected : Piece.collect index before pieces = .ok text) :
    (Utf16.encodeList text).length =
      (Utf16.encodeList before).length + (pieces.map Piece.units).sum := by
  induction pieces generalizing index before with
  | nil =>
    obtain rfl := Except.ok.inj collected
    simp [Utf16.encodeList, List.length_flatMap, List.map_reverse]
  | cons piece rest inductionHypothesis =>
    cases piece with
    | char value =>
      rw [inductionHypothesis collected, List.map_cons, List.sum_cons]
      simp only [Utf16.encodeList, List.flatMap_cons, List.length_append, Piece.units]
      omega
    | invalid => cases collected
    | incomplete => cases collected

/-- A text has no more code units than it has bytes. -/
theorem length_encodeList_of_decode {bytes : List UInt8} {text : List Char}
    (decoded : decode bytes = .ok text) : (Utf16.encodeList text).length ≤ bytes.length := by
  rw [length_encodeList_of_collect decoded]
  exact (Nat.zero_add _).symm ▸ units_pieces_le bytes

end Utf8

end MatFormat
