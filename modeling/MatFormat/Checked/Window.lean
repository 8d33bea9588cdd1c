/-
This file reads bytes through a window: a slice of bytes, the position in it, and the offset
at which the slice starts in the whole run. Every offset and every length is computed from
these with machine numbers.
-/

import MatFormat.Checked.Arithmetic

namespace MatFormat

namespace Checked

/-- A place in a slice of bytes. -/
structure Window where
  data : List UInt8
  position : Nat
  base : Nat
  order : ByteOrder
deriving DecidableEq, Repr

namespace Window

/-- The start of a run of bytes. -/
def ofBytes (data : List UInt8) (order : ByteOrder) : Window := ⟨data, 0, 0, order⟩

/-- The offset in the whole run. -/
def offset (window : Window) : Computation Nat := sum window.base window.position

/-- The number of bytes that can still be read. -/
def remaining (window : Window) : Computation Nat :=
  difference window.data.length window.position

/-- Whether no byte is left. -/
def atEnd (window : Window) : Bool := decide (window.data.length ≤ window.position)

/-- Take exactly `count` bytes. -/
def take (window : Window) (count : Nat) : Computation (List UInt8 × Window) := do
  let left ← window.remaining
  if left < count then
    let offset ← window.offset
    let left ← window.remaining
    fail (.truncated offset count left)
  else
    let stop ← sum window.position count
    let taken ← slice window.data window.position stop
    let position ← sum window.position count
    pure (taken, { window with position })

/-- Pass over exactly `count` bytes. -/
def skip (window : Window) (count : Nat) : Computation Window := do
  let (_, rest) ← window.take count
  pure rest

/-- Take exactly `count` bytes as a window of their own. -/
def split (window : Window) (count : Nat) : Computation (Window × Window) := do
  let base ← window.offset
  let (taken, rest) ← window.take count
  pure (⟨taken, 0, base, window.order⟩, rest)

/-- Pass over `count` bytes, or over all that are left if they are fewer, and tell how many
they were. -/
def skipAtMost (window : Window) (count : Nat) : Computation (Nat × Window) := do
  let left ← window.remaining
  let skipped := min count left
  let position ← sum window.position skipped
  pure (skipped, { window with position })

/-- Take a number of two bytes. -/
def half (window : Window) : Computation (Nat × Window) := do
  let (taken, rest) ← window.take 2
  let first ← item taken 0
  let second ← item taken 1
  pure (window.order.decode [first, second], rest)

/-- Take a number of four bytes. -/
def word (window : Window) : Computation (Nat × Window) := do
  let (taken, rest) ← window.take 4
  let first ← item taken 0
  let second ← item taken 1
  let third ← item taken 2
  let fourth ← item taken 3
  pure (window.order.decode [first, second, third, fourth], rest)

end Window

end Checked

end MatFormat
