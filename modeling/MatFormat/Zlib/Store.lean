/-
This file writes zlib streams. Every stream holds its bytes in stored blocks, which every
reader of the format accepts and which cost five bytes for each 65535; the level asked for
is announced in the head and changes nothing else.
-/

import MatFormat.Zlib.Adler
import MatFormat.ByteOrder

namespace MatFormat

namespace Zlib

/-- The most bytes that one stored block holds. -/
def storedLimit : Nat := 65535

/-- One stored block. -/
def storedBlock (last : Bool) (content : List UInt8) : List UInt8 :=
  (if last then 1 else 0) :: (ByteOrder.little.encode 2 content.length
    ++ ByteOrder.little.encode 2 (storedLimit - content.length) ++ content)

/-- A run of bytes as `full` full blocks and a last one with the rest. -/
def storedBlocks : (full : Nat) → List UInt8 → List UInt8
  | 0, content => storedBlock true content
  | full + 1, content =>
    storedBlock false (content.take storedLimit) ++ storedBlocks full (content.drop storedLimit)

/-- The second byte of the head, which announces how hard the writer was asked to compress
and makes 31 divide the sum of the head. -/
def levelByte (level : Nat) : UInt8 :=
  if level ≤ 1 then 0x01
  else if level ≤ 5 then 0x5E
  else if level = 6 then 0x9C
  else 0xDA

/-- The stream that spells a run of bytes. -/
def deflate (level : Nat) (content : List UInt8) : List UInt8 :=
  0x78 :: levelByte level :: (storedBlocks ((content.length - 1) / storedLimit) content
    ++ ByteOrder.big.encode 4 (adler32 content))

end Zlib

end MatFormat
