/-
This file computes the Adler-32 checksum that closes a zlib stream: the sum of the bytes
starting from one, and the sum of all those sums, both modulo the largest prime below
65536.
-/

namespace MatFormat

namespace Zlib

/-- The modulus of both sums. -/
def adlerModulus : Nat := 65521

/-- Both sums after one more byte. -/
def adlerStep (sums : Nat × Nat) (byte : UInt8) : Nat × Nat :=
  let first := (sums.1 + byte.toNat) % adlerModulus
  (first, (sums.2 + first) % adlerModulus)

/-- The checksum of a run of bytes. -/
def adler32 (bytes : List UInt8) : Nat :=
  let sums := bytes.foldl adlerStep (1, 0)
  sums.2 * 65536 + sums.1

end Zlib

end MatFormat
