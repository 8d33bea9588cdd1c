/-
This file spells text as UTF-16 code units and reads it back. A character above the first
65536 takes a pair of surrogates; a surrogate that stands alone reads as the replacement
character.
-/

import MatFormat.NumericClass
import MatFormat.Text.Utf8

namespace MatFormat

/-- A UTF-16 code unit. -/
abbrev CodeUnit : Type := NumericClass.uint16.Value

namespace Utf16

/-- The code units of one character. -/
def encodeChar (char : Char) : List CodeUnit :=
  let code := char.toNat
  if code < 0x10000 then [BitVec.ofNat _ code]
  else
    [BitVec.ofNat _ (0xD800 + (code - 0x10000) / 1024),
      BitVec.ofNat _ (0xDC00 + (code - 0x10000) % 1024)]

/-- The code units of a list of characters. -/
def encodeList (text : List Char) : List CodeUnit :=
  text.flatMap encodeChar

/-- The code units of a text. -/
def encode (text : String) : List CodeUnit :=
  encodeList text.toList

/-- What is known of a run of units after some of them: the finished characters, latest
first, and the first half of a pair that has been started. -/
structure Scan where
  text : List Char := []
  high : Option Nat := none
deriving DecidableEq, Repr

namespace Scan

/-- Read a unit where no pair has been started. -/
def lead (text : List Char) (unit : Nat) : Scan :=
  if 0xD800 ≤ unit ∧ unit ≤ 0xDBFF then ⟨text, some unit⟩
  else if 0xDC00 ≤ unit ∧ unit ≤ 0xDFFF then ⟨Utf8.replacement :: text, none⟩
  else ⟨Char.ofNat unit :: text, none⟩

/-- Read one unit. A first half that is not followed by a second half stands alone. -/
def push (scan : Scan) (unit : CodeUnit) : Scan :=
  match scan.high with
  | none => lead scan.text unit.toNat
  | some high =>
    if 0xDC00 ≤ unit.toNat ∧ unit.toNat ≤ 0xDFFF then
      ⟨Char.ofNat (0x10000 + (high - 0xD800) * 1024 + (unit.toNat - 0xDC00)) :: scan.text, none⟩
    else lead (Utf8.replacement :: scan.text) unit.toNat

/-- The characters at the end of a run. -/
def finish (scan : Scan) : List Char :=
  match scan.high with
  | none => scan.text.reverse
  | some _ => (Utf8.replacement :: scan.text).reverse

end Scan

/-- The text of a run of code units; a surrogate that stands alone is replaced. -/
def decodeLossy (units : List CodeUnit) : String :=
  String.ofList (units.foldl Scan.push {}).finish

end Utf16

end MatFormat
