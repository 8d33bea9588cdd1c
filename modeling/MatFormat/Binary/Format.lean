/-
This file describes the binary interchange formats of floating point numbers by two
widths, that of the exponent field and that of the fraction field, and works on their bit
patterns alone. Finite numbers are taken apart into an integer times a power of two, so
every conversion is exact arithmetic on integers followed by one rounding to the nearest
pattern, a tie going to the even one. Not-a-number patterns keep their sign and the leading
bits of their fraction through a conversion and come out quiet.
-/

import MatFormat.Power

namespace MatFormat

/-- A binary interchange format: one sign bit, an exponent field and a fraction field. -/
structure BinaryFormat where
  exponentBits : Nat
  fractionBits : Nat
deriving DecidableEq, Repr

namespace BinaryFormat

/-- The 32-bit format. -/
abbrev binary32 : BinaryFormat := ⟨8, 23⟩

/-- The 64-bit format. -/
abbrev binary64 : BinaryFormat := ⟨11, 52⟩

/-- The largest value of the exponent field, which marks infinities and not-a-number. -/
def topField (format : BinaryFormat) : Nat := 2 ^ format.exponentBits - 1

/-- The power of two that the lowest fraction bit of the smallest numbers stands for. -/
def lowestExponent (format : BinaryFormat) : Int :=
  2 - 2 ^ (format.exponentBits - 1) - format.fractionBits

/-- The bit pattern that is all zeros but for the sign. -/
def signBit (format : BinaryFormat) (negative : Bool) : Nat :=
  if negative then 2 ^ (format.exponentBits + format.fractionBits) else 0

/-- What a bit pattern stands for. A finite number is `mantissa * 2 ^ exponent`. -/
inductive Datum where
  | notANumber (negative : Bool) (fraction : Nat)
  | infinite (negative : Bool)
  | finite (negative : Bool) (mantissa : Nat) (exponent : Int)
deriving DecidableEq, Repr

/-- Take a bit pattern apart. -/
def datum (format : BinaryFormat) (pattern : Nat) : Datum :=
  let fraction := pattern % 2 ^ format.fractionBits
  let field := pattern / 2 ^ format.fractionBits % 2 ^ format.exponentBits
  let negative := pattern / 2 ^ (format.exponentBits + format.fractionBits) % 2 == 1
  if field = format.topField then
    if fraction = 0 then .infinite negative else .notANumber negative fraction
  else if field = 0 then .finite negative fraction format.lowestExponent
  else .finite negative (2 ^ format.fractionBits + fraction) (format.lowestExponent + (field - 1))

/-- Whether a bit pattern stands for no number. -/
def isNotANumber (format : BinaryFormat) (pattern : Nat) : Bool :=
  match format.datum pattern with
  | .notANumber _ _ => true
  | _ => false

/-! ### Rounding -/

/-- The integer nearest to `mantissa / 2 ^ places`, a tie going to the even one. -/
def roundShift (mantissa places : Nat) : Nat :=
  let quotient := mantissa / 2 ^ places
  let remainder := mantissa % 2 ^ places
  if 2 ^ places < 2 * remainder ∨ (2 ^ places = 2 * remainder ∧ quotient % 2 = 1) then
    quotient + 1
  else quotient

/-- The pattern nearest to `mantissa * 2 ^ exponent`. The exponent of the last kept bit is
fixed first; a carry out of the fraction field then runs into the exponent field, and past
the largest finite number into the pattern of infinity. -/
def ofScaled (format : BinaryFormat) (negative : Bool) (mantissa : Nat) (exponent : Int) : Nat :=
  let magnitude :=
    if mantissa = 0 then 0 else
      let unit := max (exponent + mantissa.log2 - format.fractionBits) format.lowestExponent
      let kept :=
        if unit ≤ exponent then mantissa * 2 ^ (exponent - unit).toNat
        else roundShift mantissa (unit - exponent).toNat
      min ((unit - format.lowestExponent).toNat * 2 ^ format.fractionBits + kept)
        (format.topField * 2 ^ format.fractionBits)
  format.signBit negative + magnitude

/-- The pattern nearest to an integer. -/
def ofInt (format : BinaryFormat) (value : Int) : Nat :=
  format.ofScaled (value < 0) value.natAbs 0

/-! ### Conversions -/

/-- Move a pattern of one format into another. -/
def convert (source target : BinaryFormat) (pattern : Nat) : Nat :=
  match source.datum pattern with
  | .finite negative mantissa exponent => target.ofScaled negative mantissa exponent
  | .infinite negative => target.signBit negative + target.topField * 2 ^ target.fractionBits
  | .notANumber negative fraction =>
    let aligned :=
      fraction * 2 ^ (target.fractionBits - source.fractionBits)
        / 2 ^ (source.fractionBits - target.fractionBits)
    let quiet := 2 ^ (target.fractionBits - 1)
    target.signBit negative + target.topField * 2 ^ target.fractionBits
      + (aligned % quiet + quiet)

/-- The integer that a pattern stands for after dropping its fraction, held within the
bounds; not-a-number becomes zero. -/
def truncate (format : BinaryFormat) (low high : Int) (pattern : Nat) : Int :=
  match format.datum pattern with
  | .notANumber _ _ => 0
  | .infinite negative => if negative then low else high
  | .finite negative mantissa exponent =>
    let size : Nat := mantissa * 2 ^ exponent.toNat / 2 ^ (-exponent).toNat
    let whole : Int := if negative then -size else size
    max low (min high whole)

end BinaryFormat

end MatFormat
