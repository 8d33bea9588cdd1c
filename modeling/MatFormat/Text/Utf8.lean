/-
This file spells text as UTF-8 and reads it back. The reader looks at one byte after the
other and cuts any run of bytes into pieces: characters, and sequences that spell none. A
sequence that spells none is as long as it could still have been the start of a character,
so the pieces never depend on what follows them. Strict reading refuses the first such
sequence; lenient reading puts one replacement character in the place of each.
-/

namespace MatFormat

namespace Utf8

/-! ### Writing -/

/-- The bytes of one character. -/
def encodeChar (char : Char) : List UInt8 :=
  let code := char.toNat
  if code < 0x80 then [UInt8.ofNat code]
  else if code < 0x800 then
    [UInt8.ofNat (0xC0 + code / 64), UInt8.ofNat (0x80 + code % 64)]
  else if code < 0x10000 then
    [UInt8.ofNat (0xE0 + code / 4096), UInt8.ofNat (0x80 + code / 64 % 64),
      UInt8.ofNat (0x80 + code % 64)]
  else
    [UInt8.ofNat (0xF0 + code / 262144), UInt8.ofNat (0x80 + code / 4096 % 64),
      UInt8.ofNat (0x80 + code / 64 % 64), UInt8.ofNat (0x80 + code % 64)]

/-- The bytes of a text. -/
def encode (text : String) : List UInt8 :=
  text.toList.flatMap encodeChar

/-! ### Pieces -/

/-- A piece of a run of bytes: a character, a sequence that no byte could complete, or a
sequence that the end of the run cuts off. -/
inductive Piece where
  | char (value : Char)
  | invalid (length : Nat)
  | incomplete (length : Nat)
deriving DecidableEq, Repr

/-- The start of a character: the bits and the bytes it has so far, the bytes it still needs
after the next one, and the range of the next one. -/
structure Start where
  bits : Nat
  length : Nat
  missing : Nat
  low : Nat
  high : Nat
deriving DecidableEq, Repr

/-- The start that a leading byte makes. The range of the second byte leaves out spellings
longer than needed, surrogates, and codes above the last character. -/
def Start.ofByte? (byte : Nat) : Option Start :=
  if 0xC2 ≤ byte ∧ byte ≤ 0xDF then some ⟨byte - 0xC0, 1, 0, 0x80, 0xBF⟩
  else if byte = 0xE0 then some ⟨0, 1, 1, 0xA0, 0xBF⟩
  else if byte = 0xED then some ⟨0xD, 1, 1, 0x80, 0x9F⟩
  else if 0xE1 ≤ byte ∧ byte ≤ 0xEF then some ⟨byte - 0xE0, 1, 1, 0x80, 0xBF⟩
  else if byte = 0xF0 then some ⟨0, 1, 2, 0x90, 0xBF⟩
  else if byte = 0xF4 then some ⟨4, 1, 2, 0x80, 0x8F⟩
  else if 0xF1 ≤ byte ∧ byte ≤ 0xF3 then some ⟨byte - 0xF0, 1, 2, 0x80, 0xBF⟩
  else none

/-- What is known of a run after some of its bytes: the finished pieces, latest first, and
the character that has been started. -/
structure Scan where
  pieces : List Piece := []
  start : Option Start := none
deriving DecidableEq, Repr

namespace Scan

/-- Read a byte where no character has been started. -/
def lead (pieces : List Piece) (byte : Nat) : Scan :=
  if byte < 0x80 then ⟨.char (Char.ofNat byte) :: pieces, none⟩
  else
    match Start.ofByte? byte with
    | some start => ⟨pieces, some start⟩
    | none => ⟨.invalid 1 :: pieces, none⟩

/-- Read one byte. A byte that cannot go on with the started character ends it as invalid
and is then read as a leading byte. -/
def push (scan : Scan) (byte : UInt8) : Scan :=
  match scan.start with
  | none => lead scan.pieces byte.toNat
  | some start =>
    if start.low ≤ byte.toNat ∧ byte.toNat ≤ start.high then
      let bits := start.bits * 64 + (byte.toNat - 0x80)
      match start.missing with
      | 0 => ⟨.char (Char.ofNat bits) :: scan.pieces, none⟩
      | missing + 1 => ⟨scan.pieces, some ⟨bits, start.length + 1, missing, 0x80, 0xBF⟩⟩
    else lead (.invalid start.length :: scan.pieces) byte.toNat

/-- The pieces at the end of a run. -/
def finish (scan : Scan) : List Piece :=
  match scan.start with
  | none => scan.pieces.reverse
  | some start => (.incomplete start.length :: scan.pieces).reverse

end Scan

/-- The pieces of a run of bytes. -/
def pieces (bytes : List UInt8) : List Piece :=
  (bytes.foldl Scan.push {}).finish

/-! ### Lenient reading -/

/-- The character that stands in the place of a sequence that spells none. -/
def replacement : Char := '\uFFFD'

/-- The character that a piece gives in lenient reading. -/
def Piece.lossy : Piece → Char
  | .char value => value
  | .invalid _ => replacement
  | .incomplete _ => replacement

/-- The text of a run of bytes, read leniently. -/
def decodeLossy (bytes : List UInt8) : String :=
  String.ofList ((pieces bytes).map Piece.lossy)

/-! ### Strict reading -/

/-- Where and how a run of bytes fails to be UTF-8. -/
inductive Fault where
  | invalid (length index : Nat)
  | incomplete (index : Nat)
deriving DecidableEq, Repr

/-- The text of a fault. -/
def Fault.message : Fault → String
  | invalid length index => s!"invalid utf-8 sequence of {length} bytes from index {index}"
  | incomplete index => s!"incomplete utf-8 byte sequence from index {index}"

/-- The characters of pieces, or the first fault. The index counts the bytes of the pieces
before, and `text` holds their characters, latest first. -/
def Piece.collect (index : Nat) (text : List Char) : List Piece → Except Fault (List Char)
  | [] => .ok text.reverse
  | .char value :: rest => collect (index + (encodeChar value).length) (value :: text) rest
  | .invalid length :: _ => .error (.invalid length index)
  | .incomplete _ :: _ => .error (.incomplete index)

/-- The characters of a run of bytes, read strictly. -/
def decode (bytes : List UInt8) : Except Fault (List Char) :=
  Piece.collect 0 [] (pieces bytes)

end Utf8

end MatFormat
