/-
This file proves that a window never leaves the buffer that it comes from. A window keeps a slice,
the position in it and the offset at which the slice starts, and splitting changes all three at
once: the bytes that are split off become the slice, the position starts again at zero, and the
offset is that of the place where the bytes were. What no call changes is that the offset and the
position add up to a place in the whole buffer, and that what is left of the slice are the bytes of
the buffer from this place on. So this holds however deep windows are split and whichever of those
that were handed out before is read from next.
-/

import MatFormat.Proofs.Checked.Window
import Mathlib.Algebra.Ring.Nat
import Mathlib.Logic.Relation

namespace MatFormat

namespace Checked

/-- What a call comes to that asks for `count` bytes where `remaining` are left: a value if there
are as many, and otherwise an error that tells the place and how many there are. -/
def granted {Value : Type} (offset remaining count : Nat) (value : Value) : Computation Value :=
  if count ≤ remaining then .ok value else fail (.truncated offset count remaining)

namespace Window

/-! ### Calls -/

/-- A call on a window hands out another one: the one behind what was read, or the one over the
bytes that were split off. -/
inductive Leads (window : Window) : Window → Prop where
  | take {count : Nat} {taken : List UInt8} {rest : Window}
      (called : window.take count = .ok (taken, rest)) : Leads window rest
  | skip {count : Nat} {rest : Window} (called : window.skip count = .ok rest) : Leads window rest
  | skipAtMost {count skipped : Nat} {rest : Window}
      (called : window.skipAtMost count = .ok (skipped, rest)) : Leads window rest
  | half {value : Nat} {rest : Window} (called : window.half = .ok (value, rest)) :
      Leads window rest
  | word {value : Nat} {rest : Window} (called : window.word = .ok (value, rest)) :
      Leads window rest
  | inner {count : Nat} {inner rest : Window}
      (called : window.split count = .ok (inner, rest)) : Leads window inner
  | rest {count : Nat} {inner rest : Window}
      (called : window.split count = .ok (inner, rest)) : Leads window rest

/-- Take runs of bytes of some lengths, one after the other. -/
def takes (window : Window) : (counts : List Nat) → Computation (List (List UInt8) × Window)
  | [] => pure ([], window)
  | count :: counts => do
    let (first, window) ← window.take count
    let (others, window) ← takes window counts
    pure (first :: others, window)

/-- The bytes that can still be read. -/
def unread (window : Window) : List UInt8 := window.data.drop window.position

/-- The window some bytes further on in the same slice. -/
def behind (window : Window) (count : Nat) : Window :=
  { window with position := window.position + count }

/-- The window over a slice that starts at an offset. -/
def ofSlice (data : List UInt8) (base : Nat) (order : ByteOrder) : Window := ⟨data, 0, base, order⟩

/-! ### Views -/

/-- A window that shows a number of bytes of a buffer from an offset on. -/
structure Shows (buffer : List UInt8) (order : ByteOrder) (offset remaining : Nat)
    (window : Window) : Prop where
  inside : offset + remaining ≤ buffer.length
  place : window.offset = .ok offset
  left : window.remaining = .ok remaining
  unread : window.unread = (buffer.drop offset).take remaining
  order : window.order = order

/-- What calls come to on a window that shows a number of bytes of a buffer from an offset on. -/
structure Serves (buffer : List UInt8) (order : ByteOrder) (offset remaining : Nat)
    (window : Window) : Prop where
  take : ∀ count, window.take count = granted offset remaining count
    ((buffer.drop offset).take count, window.behind count)
  skip : ∀ count, window.skip count = granted offset remaining count (window.behind count)
  split : ∀ count, window.split count = granted offset remaining count
    (ofSlice ((buffer.drop offset).take count) offset order, window.behind count)
  half : window.half = granted offset remaining 2
    (order.decode ((buffer.drop offset).take 2), window.behind 2)
  word : window.word = granted offset remaining 4
    (order.decode ((buffer.drop offset).take 4), window.behind 4)
  skipAtMost : ∀ count, window.skipAtMost count =
    .ok (min count remaining, window.behind (min count remaining))
  /-- What is handed out are windows on the next bytes and on those behind them. -/
  parts : ∀ count ≤ remaining,
    (ofSlice ((buffer.drop offset).take count) offset order).Shows buffer order offset count ∧
    (window.behind count).Shows buffer order (offset + count) (remaining - count)
  /-- Slices that are taken one after the other make up what is passed over at once. -/
  takes : ∀ counts slices rest, window.takes counts = .ok (slices, rest) ↔
    slices.map List.length = counts ∧
      slices.flatten = (buffer.drop offset).take counts.sum ∧ window.skip counts.sum = .ok rest

/-- Calls on a window come to what the same calls on a cursor do, up to the window of each cursor
that is handed out. -/
structure Mirrors (window : Window) (cursor : Cursor) : Prop where
  take : ∀ count, Agrees (Follows cursor.remaining Eq) (window.take count) (cursor.take count)
  skip : ∀ count, Agrees (Sees cursor.remaining) (window.skip count) (cursor.skip count)
  split : ∀ count, Agrees (fun first second => Sees count first.1 second.1 ∧
      second.1.remaining = count ∧ Sees cursor.remaining first.2 second.2)
    (window.split count) (cursor.split count)
  half : Agrees (Follows cursor.remaining Eq) window.half (cursor.number 2)
  word : Agrees (Follows cursor.remaining Eq) window.word (cursor.number 4)
  skipAtMost : ∀ count, ∃ rest : Window,
    window.skipAtMost count = .ok ((cursor.skipAtMost count).1, rest) ∧
    Sees cursor.remaining rest (cursor.skipAtMost count).2

end Window

/-- The cursor over a number of bytes of a buffer from an offset on. -/
def cursorOver (buffer : List UInt8) (order : ByteOrder) (offset remaining : Nat) : Cursor :=
  ⟨(buffer.drop offset).take remaining, offset, order⟩

variable {Value Next : Type} {buffer : List UInt8} {order : ByteOrder}
  {offset remaining limit count : Nat} {window : Window}

theorem granted_eq_ok {value found : Value} :
    granted offset remaining count value = .ok found ↔ count ≤ remaining ∧ found = value :=
  Outcome.guarded_eq_ok

/-- A call that goes on with the bytes of another one asks for as many. -/
theorem granted_bind {value : Value} {next : Next} {rest : Value → Computation Next}
    (goesOn : count ≤ remaining → rest value = .ok next) :
    (granted offset remaining count value >>= rest) = granted offset remaining count next := by
  unfold granted
  split
  · rename_i enough
    exact goesOn enough
  · rfl

/-! ### Windows over a buffer -/

theorem length_slice (inside : offset + count ≤ buffer.length) :
    ((buffer.drop offset).take count).length = count := by
  rw [List.length_take, List.length_drop]
  omega

theorem remaining_cursorOver (order : ByteOrder) (inside : offset + remaining ≤ buffer.length) :
    (cursorOver buffer order offset remaining).remaining = remaining :=
  length_slice inside

theorem Sees.shows (sees : Sees limit window (cursorOver buffer order offset remaining))
    (inside : offset + remaining ≤ buffer.length) :
    window.Shows buffer order offset remaining where
  inside := inside
  place := sees.offset_ok
  left := sees.remaining_ok.trans (congrArg Except.ok (remaining_cursorOver order inside))
  unread := sees.bytes.symm
  order := sees.order.symm

theorem Sees.mirrors {cursor : Cursor} (sees : Sees limit window cursor) :
    window.Mirrors cursor where
  take := sees.exact.agrees_take
  skip := sees.exact.agrees_skip
  split := sees.exact.agrees_split
  half := sees.exact.agrees_half
  word := sees.exact.agrees_word
  skipAtMost := sees.exact.agrees_skipAtMost

namespace Window

theorem behind_behind (window : Window) (first second : Nat) :
    (window.behind first).behind second = window.behind (first + second) := by
  rw [behind, behind, behind, Nat.add_assoc]

theorem shows_ofBytes (buffer : Buffer) (order : ByteOrder) :
    (ofBytes buffer.bytes order).Shows buffer.bytes order 0 buffer.bytes.length where
  inside := Nat.le_of_eq (Nat.zero_add _)
  place := rfl
  left := difference_of_le (Nat.zero_le _)
  unread := by
    rw [List.drop_zero, List.take_length]
    rfl
  order := rfl

namespace Shows

theorem inside_of_le (shows : window.Shows buffer order offset remaining)
    (enough : count ≤ remaining) : offset + count ≤ buffer.length :=
  Nat.le_trans (Nat.add_le_add_left enough offset) shows.inside

variable (shows : window.Shows buffer order offset remaining)
  (fits : buffer.length < allocationLimit)
include shows fits

/-- A window that shows bytes of a buffer is the one of the cursor over them: its slice ends with
these bytes and starts in front of them as far as the position says, so it is no longer than the
buffer behind its start. -/
theorem sees : Sees remaining window (cursorOver buffer order offset remaining) := by
  obtain ⟨covers, left⟩ := difference_eq_ok.mp shows.left
  obtain ⟨_, place⟩ := sum_eq_ok.mp shows.place
  have inside := shows.inside
  exact ⟨covers, by omega, shows.unread.symm, place, shows.order.symm,
    Nat.le_of_eq (remaining_cursorOver order inside)⟩

theorem shows_behind (enough : count ≤ remaining) :
    (window.behind count).Shows buffer order (offset + count) (remaining - count) := by
  have whole := remaining_cursorOver order shows.inside
  have inside := shows.inside
  obtain ⟨_, rest⟩ := (shows.sees fits).passed (whole.symm ▸ enough)
  dsimp only [cursorOver] at rest
  rw [List.drop_take, List.drop_drop] at rest
  exact Sees.shows rest (by omega)

/-- The window over bytes that are split off starts with its slice. -/
theorem shows_ofSlice (enough : count ≤ remaining) :
    (ofSlice ((buffer.drop offset).take count) offset order).Shows buffer order offset count := by
  have inside := shows.inside_of_le enough
  have length := length_slice inside
  have sees : Sees count (ofSlice ((buffer.drop offset).take count) offset order)
      (cursorOver buffer order offset count) :=
    ⟨Nat.zero_le _, Nat.lt_of_le_of_lt (length.symm ▸ inside) fits, rfl, rfl, rfl,
      Nat.le_of_eq length⟩
  exact sees.shows inside

/-! ### What calls come to -/

theorem take_eq (count : Nat) : window.take count = granted offset remaining count
    ((buffer.drop offset).take count, window.behind count) := by
  have whole := remaining_cursorOver order shows.inside
  have sees := shows.sees fits
  unfold granted
  split
  · rename_i enough
    rw [(sees.take_of_enough (whole.symm ▸ enough)).1, cursorOver, List.take_take,
      Nat.min_eq_left enough]
    rfl
  · rename_i short
    rw [sees.take_of_short (whole.symm ▸ Nat.lt_of_not_le short), whole]
    rfl

theorem skip_eq (count : Nat) :
    window.skip count = granted offset remaining count (window.behind count) := by
  rw [skip, shows.take_eq fits]
  exact granted_bind fun _ => rfl

theorem split_eq (count : Nat) : window.split count = granted offset remaining count
    (ofSlice ((buffer.drop offset).take count) offset order, window.behind count) := by
  rw [split, Outcome.bind_of_ok shows.place, shows.take_eq fits]
  exact granted_bind fun _ => by rw [shows.order]; rfl

theorem half_eq : window.half = granted offset remaining 2
    (order.decode ((buffer.drop offset).take 2), window.behind 2) := by
  rw [half, shows.take_eq fits]
  refine granted_bind fun enough => ?_
  obtain ⟨first, second, bytes⟩ :=
    List.length_eq_two.mp (length_slice (shows.inside_of_le enough))
  rw [bytes, ← shows.order]
  rfl

theorem word_eq : window.word = granted offset remaining 4
    (order.decode ((buffer.drop offset).take 4), window.behind 4) := by
  rw [word, shows.take_eq fits]
  refine granted_bind fun enough => ?_
  obtain ⟨first, second, third, fourth, bytes⟩ :=
    List.length_eq_four.mp (length_slice (shows.inside_of_le enough))
  rw [bytes, ← shows.order]
  rfl

theorem skipAtMost_eq (count : Nat) : window.skipAtMost count =
    .ok (min count remaining, window.behind (min count remaining)) := by
  have whole := remaining_cursorOver order shows.inside
  have enough := Nat.min_le_right count remaining
  rw [skipAtMost, Outcome.bind_of_ok shows.left]
  dsimp only
  rw [Outcome.bind_of_ok ((shows.sees fits).passed (whole.symm ▸ enough)).1]
  rfl

theorem skip_behind (enough : count ≤ remaining) (more : Nat) {rest : Window} :
    (window.behind count).skip more = .ok rest ↔ window.skip (count + more) = .ok rest := by
  rw [(shows.shows_behind fits enough).skip_eq fits, shows.skip_eq fits, granted_eq_ok,
    granted_eq_ok, behind_behind]
  refine and_congr_left fun _ => ?_
  omega

/-- Slices that are taken one after the other lie side by side, from the first to the last. -/
theorem takes_eq_ok {counts : List Nat} {slices : List (List UInt8)} {rest : Window} :
    window.takes counts = .ok (slices, rest) ↔
      slices.map List.length = counts ∧
        slices.flatten = (buffer.drop offset).take counts.sum ∧
          window.skip counts.sum = .ok rest := by
  induction counts generalizing window offset remaining slices with
  | nil =>
    have stays : window.skip ([] : List Nat).sum = .ok window :=
      (shows.skip_eq fits 0).trans (if_pos (Nat.zero_le _))
    rw [stays, List.map_eq_nil_iff]
    constructor
    · intro same
      cases same
      exact ⟨rfl, rfl, rfl⟩
    · rintro ⟨rfl, _, ⟨⟩⟩
      rfl
  | cons count counts inductionHypothesis =>
    rw [takes, shows.take_eq fits, Outcome.bind_eq_ok, List.sum_cons]
    constructor
    · rintro ⟨first, taken, later⟩
      obtain ⟨enough, rfl⟩ := granted_eq_ok.mp taken
      obtain ⟨⟨others, last⟩, othersTaken, same⟩ := Outcome.bind_eq_ok.mp later
      cases same
      obtain ⟨lengths, joined, passed⟩ :=
        (inductionHypothesis (shows.shows_behind fits enough)).mp othersTaken
      refine ⟨?_, ?_, (shows.skip_behind fits enough _).mp passed⟩
      · rw [List.map_cons, lengths, length_slice (shows.inside_of_le enough)]
      · rw [List.flatten_cons, joined, List.take_add, List.drop_drop]
    · rintro ⟨lengths, joined, passed⟩
      have enough : count ≤ remaining := by
        rw [shows.skip_eq fits, granted_eq_ok] at passed
        omega
      cases slices with
      | nil => cases lengths
      | cons first others =>
        obtain ⟨firstLength, otherLengths⟩ := List.cons.inj lengths
        rw [List.flatten_cons, List.take_add, List.drop_drop] at joined
        have sameLength := firstLength.trans (length_slice (shows.inside_of_le enough)).symm
        obtain ⟨rfl, othersJoined⟩ := List.append_inj joined sameLength
        have othersTaken := (inductionHypothesis (shows.shows_behind fits enough)).mpr
          ⟨otherLengths, othersJoined, (shows.skip_behind fits enough _).mpr passed⟩
        refine ⟨_, granted_eq_ok.mpr ⟨enough, rfl⟩, ?_⟩
        dsimp only
        rw [Outcome.bind_of_ok othersTaken]
        rfl

theorem serves : window.Serves buffer order offset remaining where
  take := shows.take_eq fits
  skip := shows.skip_eq fits
  split := shows.split_eq fits
  half := shows.half_eq fits
  word := shows.word_eq fits
  skipAtMost := shows.skipAtMost_eq fits
  parts _ enough := ⟨shows.shows_ofSlice fits enough, shows.shows_behind fits enough⟩
  takes _ _ _ := shows.takes_eq_ok fits

/-! ### Sequences of calls -/

/-- What a call hands out shows bytes of the buffer again. -/
theorem exists_shows_of_leads {next : Window} (leads : window.Leads next) :
    ∃ offset remaining, next.Shows buffer order offset remaining := by
  have serves := shows.serves fits
  cases leads with
  | take called =>
    obtain ⟨enough, ⟨⟩⟩ := granted_eq_ok.mp ((serves.take _).symm.trans called)
    exact ⟨_, _, (serves.parts _ enough).2⟩
  | skip called =>
    obtain ⟨enough, ⟨⟩⟩ := granted_eq_ok.mp ((serves.skip _).symm.trans called)
    exact ⟨_, _, (serves.parts _ enough).2⟩
  | skipAtMost called =>
    cases (serves.skipAtMost _).symm.trans called
    exact ⟨_, _, (serves.parts _ (Nat.min_le_right _ _)).2⟩
  | half called =>
    obtain ⟨enough, ⟨⟩⟩ := granted_eq_ok.mp (serves.half.symm.trans called)
    exact ⟨_, _, (serves.parts _ enough).2⟩
  | word called =>
    obtain ⟨enough, ⟨⟩⟩ := granted_eq_ok.mp (serves.word.symm.trans called)
    exact ⟨_, _, (serves.parts _ enough).2⟩
  | inner called =>
    obtain ⟨enough, ⟨⟩⟩ := granted_eq_ok.mp ((serves.split _).symm.trans called)
    exact ⟨_, _, (serves.parts _ enough).1⟩
  | rest called =>
    obtain ⟨enough, ⟨⟩⟩ := granted_eq_ok.mp ((serves.split _).symm.trans called)
    exact ⟨_, _, (serves.parts _ enough).2⟩

end Shows

/-- Every window that any sequence of calls hands out shows bytes of the buffer. -/
theorem exists_shows_of_obtained {buffer : Buffer}
    (obtained : Relation.ReflTransGen Leads (ofBytes buffer.bytes order) window) :
    ∃ offset remaining, window.Shows buffer.bytes order offset remaining := by
  induction obtained with
  | refl => exact ⟨_, _, shows_ofBytes buffer order⟩
  | tail _ leads inductionHypothesis =>
    obtain ⟨_, _, shows⟩ := inductionHypothesis
    exact shows.exists_shows_of_leads buffer.fits leads

/-- Whatever is read from a buffer and split off it, each window that is handed out shows a number
of bytes of the buffer from an offset on, serves every further call from these alone, and comes to
what the cursor over them does. -/
theorem view_of_obtained {buffer : Buffer}
    (obtained : Relation.ReflTransGen Leads (ofBytes buffer.bytes order) window) :
    ∃ offset remaining, window.Shows buffer.bytes order offset remaining ∧
      window.Serves buffer.bytes order offset remaining ∧
      window.Mirrors (cursorOver buffer.bytes order offset remaining) := by
  obtain ⟨offset, remaining, shows⟩ := exists_shows_of_obtained obtained
  exact ⟨offset, remaining, shows, shows.serves buffer.fits, (shows.sees buffer.fits).mirrors⟩

/-- Sixteen bytes that tell their places. -/
def sixteen : Buffer := ⟨(List.range 16).map UInt8.ofNat, by decide⟩

/-- A window over eight bytes from the middle, some bytes further on, still tells its place among
all sixteen. -/
theorem view_of_obtained_innerWindow :
    ∃ window : Window, Relation.ReflTransGen Leads (ofBytes sixteen.bytes .little) window ∧
      window.offset = .ok 6 ∧ window.unread = [6, 7, 8, 9, 10, 11] ∧
      window.take 7 = fail (.truncated 6 7 6) := by
  let middle := (ofBytes sixteen.bytes .little).behind 4
  let inner := ofSlice [4, 5, 6, 7, 8, 9, 10, 11] 4 .little
  have start : (ofBytes sixteen.bytes .little).skip 4 = .ok middle := rfl
  have split : middle.split 8 = .ok (inner, middle.behind 8) := rfl
  have last : inner.skip 2 = .ok (inner.behind 2) := rfl
  have obtained : Relation.ReflTransGen Leads (ofBytes sixteen.bytes .little) (inner.behind 2) :=
    ((Relation.ReflTransGen.single (.skip start)).tail (.inner split)).tail (.skip last)
  obtain ⟨offset, remaining, shows, serves, _⟩ := view_of_obtained obtained
  obtain rfl : 6 = offset := Except.ok.inj shows.place
  obtain rfl : 6 = remaining := Except.ok.inj shows.left
  exact ⟨_, obtained, shows.place, shows.unread, serves.take 7⟩

end Window

end Checked

end MatFormat
