/-
This file reads zlib streams. A stream is a two-byte head, a sequence of blocks, and the
checksum of everything the blocks spell. A block stores its bytes as they are, or codes
them as literals and as copies of earlier output, with a code that is fixed or stands at
the start of the block. A window of zeros lies before the output, so a copy that reaches
before the start copies zeros and is left for the checksum to refuse. Files are read with any
inflater; this is one, for reading files that were in fact compressed.
-/

import MatFormat.Zlib.Adler
import MatFormat.Zlib.PrefixCode

namespace MatFormat

namespace Zlib

/-- The place in the bits and the bytes spelled so far. -/
structure Inflation where
  source : BitSource
  output : Array UInt8
deriving Repr

/-! ### Copies -/

/-- A number written as a base and extra bits that are added to it. -/
structure Extended where
  base : Nat
  extra : Nat
deriving DecidableEq, Repr

/-- The lengths of a copy, from symbol 257 upwards. -/
def copyLengths : Array Extended :=
  #[⟨3, 0⟩, ⟨4, 0⟩, ⟨5, 0⟩, ⟨6, 0⟩, ⟨7, 0⟩, ⟨8, 0⟩, ⟨9, 0⟩, ⟨10, 0⟩, ⟨11, 1⟩, ⟨13, 1⟩, ⟨15, 1⟩,
    ⟨17, 1⟩, ⟨19, 2⟩, ⟨23, 2⟩, ⟨27, 2⟩, ⟨31, 2⟩, ⟨35, 3⟩, ⟨43, 3⟩, ⟨51, 3⟩, ⟨59, 3⟩, ⟨67, 4⟩,
    ⟨83, 4⟩, ⟨99, 4⟩, ⟨115, 4⟩, ⟨131, 5⟩, ⟨163, 5⟩, ⟨195, 5⟩, ⟨227, 5⟩, ⟨258, 0⟩]

/-- The distances of a copy, from symbol 0 upwards. -/
def copyDistances : Array Extended :=
  #[⟨1, 0⟩, ⟨2, 0⟩, ⟨3, 0⟩, ⟨4, 0⟩, ⟨5, 1⟩, ⟨7, 1⟩, ⟨9, 2⟩, ⟨13, 2⟩, ⟨17, 3⟩, ⟨25, 3⟩, ⟨33, 4⟩,
    ⟨49, 4⟩, ⟨65, 5⟩, ⟨97, 5⟩, ⟨129, 6⟩, ⟨193, 6⟩, ⟨257, 7⟩, ⟨385, 7⟩, ⟨513, 8⟩, ⟨769, 8⟩,
    ⟨1025, 9⟩, ⟨1537, 9⟩, ⟨2049, 10⟩, ⟨3073, 10⟩, ⟨4097, 11⟩, ⟨6145, 11⟩, ⟨8193, 12⟩,
    ⟨12289, 12⟩, ⟨16385, 13⟩, ⟨24577, 13⟩]

/-- Read the number that a symbol of a table stands for. A symbol that the table lacks
breaks a rule. -/
def readExtended (table : Array Extended) (symbol : Nat) (source : BitSource) :
    Except Fault (Nat × BitSource) :=
  match table[symbol]? with
  | none => .error .corrupt
  | some entry => do
    let (extra, source) ← source.take entry.extra
    pure (entry.base + extra, source)

/-- Append `length` bytes, each a copy of the byte `distance` places before it. -/
def appendCopy (distance : Nat) : (length : Nat) → Array UInt8 → Array UInt8
  | 0, output => output
  | length + 1, output =>
    let byte := if distance ≤ output.size then output[output.size - distance]?.getD 0 else 0
    appendCopy distance length (output.push byte)

/-! ### Coded blocks -/

/-- Read a coded block to its end. Each symbol takes at least one bit, so a block that goes
on when `bits` symbols have been read has no bits left to go on with. -/
def readCoded (literals distances : PrefixCode) :
    (bits : Nat) → Inflation → Except Fault Inflation
  | 0, _ => .error .incomplete
  | bits + 1, ⟨source, output⟩ => do
    let (symbol, source) ← literals.read source
    if symbol < 256 then
      readCoded literals distances bits ⟨source, output.push (UInt8.ofNat symbol)⟩
    else if symbol = 256 then pure ⟨source, output⟩
    else
      let (length, source) ← readExtended copyLengths (symbol - 257) source
      let (symbol, source) ← distances.read source
      let (distance, source) ← readExtended copyDistances symbol source
      readCoded literals distances bits ⟨source, appendCopy distance length output⟩

/-- The word lengths of the fixed code for literals and copy lengths. -/
def fixedLiteralLengths : List Nat :=
  List.replicate 144 8 ++ List.replicate 112 9 ++ List.replicate 24 7 ++ List.replicate 8 8

/-- The word lengths of the fixed code for copy distances. -/
def fixedDistanceLengths : List Nat := List.replicate 32 5

/-- The order in which a block tells the word lengths of the code for word lengths. -/
def lengthSymbolOrder : List Nat :=
  [16, 17, 18, 0, 8, 7, 9, 6, 10, 5, 11, 4, 12, 3, 13, 2, 14, 1, 15]

/-- Read `count` numbers of three bits. -/
def readTriples : (count : Nat) → BitSource → Except Fault (List Nat × BitSource)
  | 0, source => .ok ([], source)
  | count + 1, source => do
    let (value, source) ← source.take 3
    let (values, source) ← readTriples count source
    pure (value :: values, source)

/-- Read word lengths until `missing` more are known. Symbols up to 15 are lengths, 16
repeats the length before, 17 and 18 are runs of zeros. The known lengths stand latest
first. A run must not go past the wanted count. Each symbol gives at least one length, so
`turns` may start at `missing`. -/
def readLengths (code : PrefixCode) :
    (turns missing : Nat) → (known : List Nat) → BitSource →
      Except Fault (List Nat × BitSource)
  | 0, missing, known, source =>
    if missing = 0 then .ok (known.reverse, source) else .error .corrupt
  | turns + 1, missing, known, source =>
    if missing = 0 then .ok (known.reverse, source) else do
      let (symbol, source) ← code.read source
      if symbol < 16 then readLengths code turns (missing - 1) (symbol :: known) source
      else
        let (value, base, extra) ←
          if symbol = 16 then
            match known with
            | [] => throw Fault.corrupt
            | last :: _ => pure (last, 3, 2)
          else if symbol = 17 then pure (0, 3, 3)
          else pure (0, 11, 7)
        let (more, source) ← source.take extra
        let count := base + more
        if missing < count then throw .corrupt
        else readLengths code turns (missing - count) (List.replicate count value ++ known) source

/-- Read the two codes at the start of a block. -/
def readCodes (source : BitSource) : Except Fault (PrefixCode × PrefixCode × BitSource) := do
  let (literals, source) ← source.take 5
  let (distances, source) ← source.take 5
  let (triples, source) ← source.take 4
  let literals := literals + 257
  let distances := distances + 1
  if 286 < literals ∨ 30 < distances then throw .corrupt
  let (told, source) ← readTriples (triples + 4) source
  let lengthOf (symbol : Nat) : Nat := (lengthSymbolOrder.zip told).lookup symbol |>.getD 0
  let code ← PrefixCode.ofLengths ((List.range 19).map lengthOf) false
  let (lengths, source) ← readLengths code (literals + distances) (literals + distances) [] source
  let literalCode ← PrefixCode.ofLengths (lengths.take literals) true
  let distanceCode ← PrefixCode.ofLengths (lengths.drop literals) true
  pure (literalCode, distanceCode, source)

/-! ### Blocks and streams -/

/-- Read a stored block: its length, the complement of its length, and its bytes. -/
def readStored (state : Inflation) : Except Fault Inflation := do
  let (length, source) ← state.source.align.take 16
  let (complement, source) ← source.take 16
  if length + complement ≠ 65535 then throw .corrupt
  let (content, rest) := source.bytes.splitAt length
  if content.length < length then throw .incomplete
  pure ⟨⟨0, 0, rest⟩, state.output ++ content.toArray⟩

/-- Read one block and tell whether it is the last. -/
def readBlock (state : Inflation) : Except Fault (Bool × Inflation) := do
  let (last, source) ← state.source.take 1
  let (kind, source) ← source.take 2
  let state : Inflation := ⟨source, state.output⟩
  let state ←
    match kind with
    | 0 => readStored state
    | 1 => do
      let literals ← PrefixCode.ofLengths fixedLiteralLengths true
      let distances ← PrefixCode.ofLengths fixedDistanceLengths true
      readCoded literals distances source.length state
    | 2 => do
      let (literals, distances, source) ← readCodes source
      readCoded literals distances source.length ⟨source, state.output⟩
    | _ => throw .corrupt
  pure (last == 1, state)

/-- Read blocks up to the last one. Each block takes at least three bits, so no more than
`bits` blocks can follow. -/
def readBlocks : (bits : Nat) → Inflation → Except Fault Inflation
  | 0, _ => .error .incomplete
  | bits + 1, state => do
    let (last, state) ← readBlock state
    if last then pure state else readBlocks bits state

/-- Whether the two bytes of a head announce a stream that can be read: the right method, a
window of at most 32768 bytes, no preset dictionary, and a sum that 31 divides. -/
def headIsValid (first second : Nat) : Bool :=
  first % 16 == 8 && decide (first / 16 ≤ 7) && second / 32 % 2 == 0
    && (first * 256 + second) % 31 == 0

/-- Read a stream: the bytes it spells, and the bytes after its end. -/
def inflate (bytes : List UInt8) : Except Fault (List UInt8 × List UInt8) := do
  let source := BitSource.ofBytes bytes
  let (first, source) ← source.take 8
  let (second, source) ← source.take 8
  if !headIsValid first second then throw .corrupt
  let state ← readBlocks source.length ⟨source, #[]⟩
  let (checksum, rest) := state.source.bytes.splitAt 4
  if checksum.length < 4 then throw .incomplete
  let output := state.output.toList
  if ByteOrder.big.decode checksum ≠ adler32 output then throw .corrupt
  pure (output, rest)

/-- The bytes that a stream spells, or the text of its fault. Bytes after the end of the stream
are of no account. -/
def inflater (stream : List UInt8) : Except String (List UInt8) :=
  match inflate stream with
  | .error fault => .error fault.message
  | .ok (content, _) => .ok content

end Zlib

end MatFormat
