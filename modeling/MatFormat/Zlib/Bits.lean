/-
This file reads a run of bytes bit by bit, the lowest bit of each byte first. Bytes are
opened only when a bit of them is asked for, so at most seven bits are ever held back and
skipping to the next whole byte only drops those.
-/

import MatFormat.ByteOrder

namespace MatFormat

namespace Zlib

/-- Why a compressed stream cannot be read: it ends early, or it breaks a rule of the
format. -/
inductive Fault where
  | incomplete
  | corrupt
deriving DecidableEq, Repr

/-- The text of a fault. -/
def Fault.message : Fault → String
  | incomplete => "incomplete deflate stream"
  | corrupt => "corrupt deflate stream"

/-- A place in a stream of bits: the unread bits of the opened byte as a number, how many
they are, and the bytes after it. -/
structure BitSource where
  held : Nat
  count : Nat
  bytes : List UInt8
deriving DecidableEq, Repr

namespace BitSource

/-- The start of a run of bytes. -/
def ofBytes (bytes : List UInt8) : BitSource := ⟨0, 0, bytes⟩

/-- The number of unread bits. -/
def length (source : BitSource) : Nat := source.count + 8 * source.bytes.length

/-- Open bytes until `wanted` bits are held, then take them as a number. -/
def takeFrom (wanted held count : Nat) : List UInt8 → Except Fault (Nat × BitSource)
  | [] =>
    if wanted ≤ count then .ok (held % 2 ^ wanted, ⟨held / 2 ^ wanted, count - wanted, []⟩)
    else .error .incomplete
  | byte :: rest =>
    if wanted ≤ count then
      .ok (held % 2 ^ wanted, ⟨held / 2 ^ wanted, count - wanted, byte :: rest⟩)
    else takeFrom wanted (held + byte.toNat * 2 ^ count) (count + 8) rest

/-- The next `wanted` bits as a number, the first bit lowest. -/
def take (source : BitSource) (wanted : Nat) : Except Fault (Nat × BitSource) :=
  takeFrom wanted source.held source.count source.bytes

/-- Drop the unread bits of the opened byte. -/
def align (source : BitSource) : BitSource := ⟨0, 0, source.bytes⟩

end BitSource

end Zlib

end MatFormat
