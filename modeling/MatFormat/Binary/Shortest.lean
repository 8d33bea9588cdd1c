/-
This file prints the number that a bit pattern stands for with the fewest decimal digits
that read back as the same pattern. Around each finite number lies the interval of reals
that round to it, with its ends counted in when the mantissa is even. The printer tries
grids of decimals from coarse to fine and stops at the first that has a point in the
interval; of two neighbours in the interval it takes the nearer, and the upper one at a tie.
-/

import MatFormat.Binary.Format

namespace MatFormat

namespace BinaryFormat

/-- A decimal number `digits * 10 ^ exponent`. -/
structure Decimal where
  digits : Nat
  exponent : Int
deriving DecidableEq, Repr

/-- The interval of numbers that round to one pattern, as whole multiples of
`numerator / denominator`: the number itself lies at `center`, its ends at `low` and `high`. -/
structure RoundingInterval where
  numerator : Nat
  denominator : Nat
  low : Nat
  center : Nat
  high : Nat
  closed : Bool
deriving DecidableEq, Repr

/-- The interval around `mantissa * 2 ^ exponent`. The gap below is half as wide at a power
of two, where the lower neighbour has the next smaller exponent. -/
def roundingInterval (format : BinaryFormat) (mantissa : Nat) (exponent : Int) :
    RoundingInterval where
  numerator := 2 ^ exponent.toNat
  denominator := 4 * 2 ^ (-exponent).toNat
  low := 4 * mantissa - (if mantissa = 2 ^ format.fractionBits then 1 else 2)
  center := 4 * mantissa
  high := 4 * mantissa + 2
  closed := mantissa % 2 == 0

namespace RoundingInterval

/-- Whether the decimal lies in the interval. -/
def contains (interval : RoundingInterval) (decimal : Decimal) : Bool :=
  let left := decimal.digits * 10 ^ decimal.exponent.toNat * interval.denominator
  let unit := interval.numerator * 10 ^ (-decimal.exponent).toNat
  if interval.closed then
    decide (interval.low * unit ≤ left) && decide (left ≤ interval.high * unit)
  else decide (interval.low * unit < left) && decide (left < interval.high * unit)

/-- The largest point at or below the number on the grid of multiples of `10 ^ exponent`. -/
def floorOn (interval : RoundingInterval) (exponent : Int) : Decimal where
  digits := interval.center * interval.numerator * 10 ^ (-exponent).toNat
    / (interval.denominator * 10 ^ exponent.toNat)
  exponent := exponent

/-- Whether the number is at least as near to the next grid point as to this one. -/
def nearerAbove (interval : RoundingInterval) (below : Decimal) : Bool :=
  decide ((2 * below.digits + 1) * 10 ^ below.exponent.toNat * interval.denominator
    ≤ 2 * (interval.center * interval.numerator * 10 ^ (-below.exponent).toNat))

/-- The point of one grid to print, if the grid has one in the interval. -/
def pick? (interval : RoundingInterval) (exponent : Int) : Option Decimal :=
  let below := interval.floorOn exponent
  let above : Decimal := { below with digits := below.digits + 1 }
  match interval.contains below, interval.contains above with
  | true, true => some (if interval.nearerAbove below then above else below)
  | true, false => some below
  | false, true => some above
  | false, false => none

/-- The first grid with a point in the interval, from `exponent` downwards. The last grid
tried is fine enough for every number, so the search always ends with a point. -/
def search (interval : RoundingInterval) : (grids : Nat) → (exponent : Int) → Decimal
  | 0, exponent => interval.floorOn exponent
  | grids + 1, exponent =>
    (interval.pick? exponent).getD (interval.search grids (exponent - 1))

end RoundingInterval

/-- An exponent of ten above every number `mantissa * 2 ^ exponent`, by less than three. -/
def decimalBound (mantissa : Nat) (exponent : Int) : Int :=
  (exponent + mantissa.log2 + 1) * 30103 / 100000 + 1

/-- The shortest decimal that reads back as `mantissa * 2 ^ exponent`. -/
def shortest (format : BinaryFormat) (mantissa : Nat) (exponent : Int) : Decimal :=
  (format.roundingInterval mantissa exponent).search format.fractionBits
    (decimalBound mantissa exponent)

/-! ### Positional text -/

/-- The digits with the point in its place: zeros fill up to the point on either side, and
a whole number shows no point. -/
def Decimal.text (decimal : Decimal) : String :=
  let digits := toString decimal.digits
  if 0 ≤ decimal.exponent then digits ++ String.ofList (List.replicate decimal.exponent.toNat '0')
  else
    let places := (-decimal.exponent).toNat
    let padded := List.replicate (places + 1 - digits.length) '0' ++ digits.toList
    String.ofList (padded.take (padded.length - places)) ++ "."
      ++ String.ofList (padded.drop (padded.length - places))

/-- The text of the number that a pattern stands for. -/
def text (format : BinaryFormat) (pattern : Nat) : String :=
  match format.datum pattern with
  | .notANumber _ _ => "NaN"
  | .infinite negative => (if negative then "-" else "") ++ "inf"
  | .finite negative mantissa exponent =>
    (if negative then "-" else "")
      ++ (if mantissa = 0 then "0" else (format.shortest mantissa exponent).text)

end BinaryFormat

end MatFormat
