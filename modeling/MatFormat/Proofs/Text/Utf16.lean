/-
This file proves that lenient reading gives a spelled text back, and that code units without NUL
never read as a text with NUL. A scan of the units of a character ends with that character. A
scan of units without NUL keeps the characters it has finished free of NUL, and a first half that
it holds back is a first half of a pair, so that every pair it completes is a character above the
first 65536.
-/

import MatFormat.Proofs.Text.Utf8
import MatFormat.Text.Utf16

namespace MatFormat

namespace Utf16

/-! ### Spelled texts -/

theorem toNat_unit {code : Nat} (small : code < 0x10000) :
    (BitVec.ofNat _ code : CodeUnit).toNat = code := by
  rw [BitVec.toNat_ofNat]
  exact Nat.mod_eq_of_lt small

theorem push_ready (text : List Char) (unit : CodeUnit) :
    Scan.push ⟨text, none⟩ unit = Scan.lead text unit.toNat := rfl

/-- The units of a character scan as that character: a unit of its own is no surrogate, and the
two halves of a pair give the character back. -/
theorem foldl_push_encodeChar (char : Char) (text : List Char) :
    (encodeChar char).foldl Scan.push ⟨text, none⟩ = ⟨char :: text, none⟩ := by
  have scalar := Utf8.isScalar char
  have same := Char.ofNat_toNat char
  unfold encodeChar
  dsimp only
  by_cases basic : char.toNat < 0x10000
  · rw [if_pos basic, List.foldl_cons, List.foldl_nil, push_ready, toNat_unit basic, Scan.lead,
      if_neg (by omega), if_neg (by omega), same]
  · have high : 0xD800 + (char.toNat - 0x10000) / 1024 ≤ 0xDBFF := by omega
    have low : 0xDC00 + (char.toNat - 0x10000) % 1024 ≤ 0xDFFF := by omega
    have code : 0x10000 + (0xD800 + (char.toNat - 0x10000) / 1024 - 0xD800) * 1024
        + (0xDC00 + (char.toNat - 0x10000) % 1024 - 0xDC00) = char.toNat := by omega
    rw [if_neg basic, List.foldl_cons, List.foldl_cons, List.foldl_nil, push_ready,
      toNat_unit (by omega), Scan.lead, if_pos ⟨by omega, high⟩, Scan.push]
    dsimp only
    rw [toNat_unit (by omega), if_pos ⟨by omega, low⟩, code, same]

theorem foldl_push_encodeList (units : List Char) (text : List Char) :
    (encodeList units).foldl Scan.push ⟨text, none⟩ = ⟨units.reverse ++ text, none⟩ := by
  induction units generalizing text with
  | nil => rfl
  | cons char rest inductionHypothesis =>
    rw [encodeList, List.flatMap_cons, List.foldl_append, foldl_push_encodeChar, ← encodeList,
      inductionHypothesis, List.reverse_cons, List.append_assoc, List.singleton_append]

/-- Lenient reading gives a spelled text back. -/
theorem decodeLossy_encodeList (text : List Char) :
    decodeLossy (encodeList text) = String.ofList text := by
  rw [decodeLossy, foldl_push_encodeList, Scan.finish, List.append_nil, List.reverse_reverse]

theorem decodeLossy_encode (text : String) : decodeLossy (encode text) = text := by
  rw [encode, decodeLossy_encodeList, String.ofList_toList]

/-! ### NUL -/

/-- A scan that has met no NUL so far. -/
structure Scan.WithoutNul (scan : Scan) : Prop where
  text : ∀ char ∈ scan.text, char.toNat ≠ 0
  high : ∀ high, scan.high = some high → 0xD800 ≤ high ∧ high ≤ 0xDBFF

theorem replacement_ne_nul : Utf8.replacement.toNat ≠ 0 := by decide

/-- A character that is not NUL leaves a text free of NUL, with no pair started. -/
theorem Scan.WithoutNul.of_cons {text : List Char} (plain : ∀ char ∈ text, char.toNat ≠ 0)
    {char : Char} (nonzero : char.toNat ≠ 0) : Scan.WithoutNul ⟨char :: text, none⟩ := by
  refine ⟨fun other member => ?_, fun high started => by cases started⟩
  rcases List.mem_cons.mp member with rfl | earlier
  · exact nonzero
  · exact plain other earlier

theorem Scan.WithoutNul.lead {text : List Char} (plain : ∀ char ∈ text, char.toNat ≠ 0)
    {unit : Nat} (nonzero : unit ≠ 0) (small : unit < 0x10000) :
    (Scan.lead text unit).WithoutNul := by
  unfold Scan.lead
  split
  · rename_i half
    refine ⟨plain, fun high started => ?_⟩
    rw [← Option.some.inj started]
    exact half
  split
  · exact Scan.WithoutNul.of_cons plain replacement_ne_nul
  · refine Scan.WithoutNul.of_cons plain ?_
    rw [Utf8.toNat_ofNat_of_scalar (by omega)]
    exact nonzero

theorem Scan.WithoutNul.push {scan : Scan} (plain : scan.WithoutNul) {unit : CodeUnit}
    (nonzero : unit.toNat ≠ 0) : (scan.push unit).WithoutNul := by
  have small : unit.toNat < 0x10000 := unit.isLt
  obtain ⟨text, high⟩ := scan
  cases high with
  | none => exact Scan.WithoutNul.lead plain.text nonzero small
  | some high =>
    have half := plain.high high rfl
    rw [Scan.push]
    dsimp only
    split
    · refine Scan.WithoutNul.of_cons plain.text ?_
      rw [Utf8.toNat_ofNat_of_scalar (by omega)]
      omega
    · exact Scan.WithoutNul.lead
        (Scan.WithoutNul.of_cons plain.text replacement_ne_nul).text nonzero small

theorem Scan.WithoutNul.foldl {units : List CodeUnit} (nonzero : ∀ unit ∈ units, unit.toNat ≠ 0)
    {scan : Scan} (plain : scan.WithoutNul) : (units.foldl Scan.push scan).WithoutNul := by
  induction units generalizing scan with
  | nil => exact plain
  | cons unit rest inductionHypothesis =>
    exact inductionHypothesis (fun other member => nonzero other (List.mem_cons_of_mem _ member))
      (plain.push (nonzero unit List.mem_cons_self))

/-- Code units without NUL never read as a text with NUL. -/
theorem nul_not_mem_decodeLossy {units : List CodeUnit}
    (nonzero : ∀ unit ∈ units, unit.toNat ≠ 0) :
    ∀ char ∈ (decodeLossy units).toList, char.toNat ≠ 0 := by
  have start : ({} : Scan).WithoutNul :=
    ⟨fun char member => absurd member List.not_mem_nil, fun high started => by cases started⟩
  have scanned := Scan.WithoutNul.foldl nonzero start
  rw [decodeLossy, String.toList_ofList, Scan.finish]
  intro char member
  split at member
  · exact scanned.text char (List.mem_reverse.mp member)
  · rcases List.mem_cons.mp (List.mem_reverse.mp member) with rfl | earlier
    · exact replacement_ne_nul
    · exact scanned.text char earlier

theorem ne_zero_of_mem_encodeChar {char : Char} (plain : char.toNat ≠ 0) :
    ∀ unit ∈ encodeChar char, unit.toNat ≠ 0 := by
  have scalar := Utf8.isScalar char
  unfold encodeChar
  dsimp only
  split
  · rename_i basic
    intro unit member
    rw [List.mem_singleton.mp member, toNat_unit basic]
    exact plain
  · simp only [List.mem_cons, List.not_mem_nil, or_false, forall_eq_or_imp, forall_eq]
    rw [toNat_unit (by omega), toNat_unit (by omega)]
    exact ⟨by omega, by omega⟩

/-- A text without NUL is spelled without NUL. -/
theorem ne_zero_of_mem_encodeList {text : List Char} (plain : ∀ char ∈ text, char.toNat ≠ 0) :
    ∀ unit ∈ encodeList text, unit.toNat ≠ 0 := by
  intro unit member
  obtain ⟨char, charMember, unitMember⟩ := List.mem_flatMap.mp member
  exact ne_zero_of_mem_encodeChar (plain char charMember) unit unitMember

end Utf16

end MatFormat
