/-
This file builds canonical prefix codes from the lengths of their words and reads words of
them. Words of one length are consecutive numbers in the order of their symbols, and the
first word of a length follows the last of the length before. A code must use up all words
exactly. Only where that is allowed may a code leave words unused, and then it has no symbol
at all or one symbol with a word of one bit. Bits that cannot become a word break a rule as
soon as that shows, and not only when the longest word has been read.
-/

import MatFormat.Zlib.Bits

namespace MatFormat

namespace Zlib

/-- The longest word of a code. -/
def maximalWord : Nat := 15

/-- A canonical prefix code: how many words there are of each length from one upwards, and
the symbols in the order of their words. -/
structure PrefixCode where
  counts : List Nat
  symbols : Array Nat
deriving DecidableEq, Repr

namespace PrefixCode

/-- The symbols whose words have one length. -/
def symbolsOfLength (lengths : List Nat) (length : Nat) : List Nat :=
  (lengths.zipIdx.filter fun entry => entry.1 == length).map Prod.snd

/-- The lengths that a word can have. -/
def wordLengths : List Nat := (List.range maximalWord).map (· + 1)

/-- The share of all words of the greatest length that the words of a code take up. -/
def weight (counts : List Nat) : Nat :=
  (counts.zip wordLengths).foldl (fun sum entry => sum + entry.1 * 2 ^ (maximalWord - entry.2)) 0

/-- Whether a code uses up all words exactly. -/
def isComplete (counts : List Nat) : Bool :=
  weight counts == 2 ^ maximalWord

/-- Whether a code has no symbol, or one symbol with a word of one bit. -/
def isDegenerate (counts : List Nat) : Bool :=
  counts.headD 0 ≤ 1 && counts.tail.all (· == 0)

/-- The code in which symbol `i` has a word of the `i`-th length, and no word where that is
zero. -/
def ofLengths (lengths : List Nat) (degenerateAllowed : Bool) : Except Fault PrefixCode :=
  let groups := wordLengths.map (symbolsOfLength lengths)
  let counts := groups.map List.length
  if isComplete counts || (degenerateAllowed && isDegenerate counts) then
    .ok ⟨counts, groups.flatten.toArray⟩
  else .error .corrupt

/-- Read bits until they are a word. Here `counts` are the counts of the lengths not yet
reached, `word` holds the bits read, `first` is the first word of the length reached and
`index` the place of its symbol. Bits that are no word break a rule when no longer word is
left. -/
def readWord (symbols : Array Nat) :
    (counts : List Nat) → (word first index : Nat) → BitSource → Except Fault (Nat × BitSource)
  | [], _, _, _, _ => .error .corrupt
  | count :: counts, word, first, index, source => do
    let (bit, source) ← source.take 1
    let word := 2 * word + bit
    if word < first + count then
      match symbols[index + (word - first)]? with
      | some symbol => pure (symbol, source)
      | none => throw .corrupt
    else if counts.all (· == 0) then throw .corrupt
    else readWord symbols counts word (2 * (first + count)) (index + count) source

/-- Read one word and give its symbol. -/
def read (code : PrefixCode) (source : BitSource) : Except Fault (Nat × BitSource) :=
  readWord code.symbols code.counts 0 0 0 source

end PrefixCode

end Zlib

end MatFormat
