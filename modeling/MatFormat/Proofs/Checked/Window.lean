/-
This file proves that a window is a cursor. The bytes that can still be read lie inside the
slice of the window, and its base and its slice together stay below the size of any vector, so
every offset and every length that is computed from a window is the one of its cursor. A bound
on the bytes that are left is carried along: the payload of an element has fewer bytes than the
window that the element is read from.
-/

import MatFormat.Checked.Element
import MatFormat.Proofs.Checked.Arithmetic
import MatFormat.Proofs.Cursor
import Mathlib.Data.List.Basic

namespace MatFormat

/-! ### What elements take -/

namespace Cursor

theorem size_lt_of_tag {cursor rest : Cursor} {tag : Tag}
    (read : cursor.tag = .ok (tag, rest)) :
    tag.size < wordLimit ∧ (tag.packed = true → tag.size ≤ packedLimit) := by
  obtain ⟨⟨word, afterWord⟩, wordRead, read⟩ := Outcome.bind_eq_ok.mp read
  dsimp only at read
  split at read
  · split at read
    · cases read
    · rename_i short
      have limit : packedLimit = 4 := rfl
      split at read
      · cases read
      · split at read
        · cases read
        · cases read
          exact ⟨Nat.lt_of_le_of_lt (Nat.le_of_not_lt short) (by decide),
            fun _ => Nat.le_of_not_lt short⟩
  · obtain ⟨⟨size, afterSize⟩, sizeRead, read⟩ := Outcome.bind_eq_ok.mp read
    obtain ⟨⟨taken, afterTaken⟩, taking, sizeRead⟩ := Outcome.bind_eq_ok.mp sizeRead
    obtain ⟨enough, rfl, _⟩ := take_eq_ok.mp taking
    have bound := afterWord.order.decode_lt (afterWord.bytes.take 4)
    have length : (afterWord.bytes.take 4).length = 4 := by
      rw [List.length_take]
      exact Nat.min_eq_left enough
    rw [length] at bound
    cases sizeRead
    dsimp only at read
    split at read
    · cases read
    · cases read
      exact ⟨bound, nofun⟩

end Cursor

namespace Checked

/-! ### Windows -/

/-- A window with at most `limit` bytes left is the cursor over these bytes. -/
structure Sees (limit : Nat) (window : Window) (cursor : Cursor) : Prop where
  inside : window.position ≤ window.data.length
  fits : window.base + window.data.length < allocationLimit
  bytes : cursor.bytes = window.data.drop window.position
  offset : cursor.offset = window.base + window.position
  order : cursor.order = window.order
  left : cursor.remaining ≤ limit

/-- What is read together with the window that is left. -/
def Follows {Value Other : Type} (limit : Nat) (values : Value → Other → Prop)
    (first : Value × Window) (second : Other × Cursor) : Prop :=
  values first.1 second.1 ∧ Sees limit first.2 second.2

/-- A step that reads one value. -/
theorem Agrees.bind_follows {Value Next OtherNext : Type} {limit : Nat}
    {nextValues : Next → OtherNext → Prop} {computation : Computation (Value × Window)}
    {outcome : Except Error (Value × Cursor)} {rest : Value × Window → Computation Next}
    {otherRest : Value × Cursor → Except Error OtherNext}
    (steps : Agrees (Follows limit Eq) computation outcome)
    (rests : ∀ value window cursor, Sees limit window cursor →
      Agrees nextValues (rest (value, window)) (otherRest (value, cursor))) :
    Agrees nextValues (computation >>= rest) (outcome >>= otherRest) := by
  refine steps.bind fun (value, window) (other, cursor) ⟨same, sees⟩ => ?_
  obtain rfl : value = other := same
  exact rests value window cursor sees

theorem Agrees.reading_follows {Value Next OtherNext : Type} {limit : Nat}
    {nextValues : Next → OtherNext → Prop} {computation : Computation (Value × Window)}
    {reading : Reading (Value × Cursor)} {rest : Value × Window → Computation Next}
    {otherRest : Value × Cursor → Reading OtherNext}
    (steps : Agrees (Follows limit Eq) computation reading.result)
    (rests : ∀ value window cursor, Sees limit window cursor →
      Agrees nextValues (rest (value, window)) (otherRest (value, cursor)).result) :
    Agrees nextValues (computation >>= rest) (reading >>= otherRest).result := by
  rw [Reading.result_bind]
  exact steps.bind_follows rests

theorem allocationLimit_lt_countLimit : allocationLimit < countLimit := by decide

namespace Sees

variable {limit : Nat} {window : Window} {cursor : Cursor}

theorem mono {wider : Nat} (sees : Sees limit window cursor) (covers : limit ≤ wider) :
    Sees wider window cursor := { sees with left := Nat.le_trans sees.left covers }

section

variable (sees : Sees limit window cursor)
include sees

/-- A window sees no more bytes than it has left. -/
theorem exact : Sees cursor.remaining window cursor := { sees with left := Nat.le_refl _ }

theorem remaining_eq : cursor.remaining = window.data.length - window.position := by
  rw [Cursor.remaining, sees.bytes, List.length_drop]

theorem remaining_ok : window.remaining = .ok cursor.remaining := by
  rw [Window.remaining, difference_of_le sees.inside, sees.remaining_eq]

theorem offset_ok : window.offset = .ok cursor.offset := by
  have inside := sees.inside
  have fits := sees.fits
  have limits := allocationLimit_lt_countLimit
  rw [Window.offset, sum_of_lt (by omega), sees.offset]

theorem atEnd_eq : window.atEnd = cursor.atEnd := by
  rw [Window.atEnd, Cursor.atEnd, sees.bytes, Bool.eq_iff_iff, decide_eq_true_iff,
    List.isEmpty_iff, List.drop_eq_nil_iff]

/-- The window behind some of the bytes that are left. -/
theorem passed {count : Nat} (enough : count ≤ cursor.remaining) :
    sum window.position count = .ok (window.position + count) ∧
      Sees limit { window with position := window.position + count }
        ⟨cursor.bytes.drop count, cursor.offset + count, cursor.order⟩ := by
  have inside := sees.inside
  have fits := sees.fits
  have limits := allocationLimit_lt_countLimit
  have left := sees.left
  have length := sees.remaining_eq
  refine ⟨sum_of_lt (by omega), ⟨?_, fits, ?_, ?_, sees.order, ?_⟩⟩
  · show window.position + count ≤ window.data.length
    omega
  · show cursor.bytes.drop count = window.data.drop (window.position + count)
    rw [sees.bytes, List.drop_drop]
  · show cursor.offset + count = window.base + (window.position + count)
    rw [sees.offset, Nat.add_assoc]
  · rw [Cursor.remaining] at left ⊢
    rw [List.length_drop]
    omega

theorem take_of_short {count : Nat} (short : cursor.remaining < count) :
    window.take count = fail (.truncated cursor.offset count cursor.remaining) := by
  rw [Window.take, Outcome.bind_of_ok sees.remaining_ok, if_pos short,
    Outcome.bind_of_ok sees.offset_ok, Outcome.bind_of_ok sees.remaining_ok]

theorem take_of_enough {count : Nat} (enough : count ≤ cursor.remaining) :
    window.take count =
        .ok (cursor.bytes.take count, { window with position := window.position + count }) ∧
      Sees limit { window with position := window.position + count }
        ⟨cursor.bytes.drop count, cursor.offset + count, cursor.order⟩ := by
  obtain ⟨position, rest⟩ := sees.passed enough
  refine ⟨?_, rest⟩
  rw [Window.take, Outcome.bind_of_ok sees.remaining_ok, if_neg (Nat.not_lt.mpr enough),
    Outcome.bind_of_ok position,
    Outcome.bind_of_ok (slice_of_le (Nat.le_add_right _ _) rest.inside),
    Outcome.bind_of_ok position, Nat.add_sub_cancel_left, ← sees.bytes]
  rfl

/-- All bytes that are left can be taken. -/
theorem take_all {count : Nat} (whole : cursor.remaining = count) :
    ∃ rest : Window, window.take count = .ok (cursor.bytes, rest) := by
  obtain ⟨taken, _⟩ := sees.take_of_enough (Nat.le_of_eq whole.symm)
  refine ⟨{ window with position := window.position + count }, ?_⟩
  rw [taken, ← whole, Cursor.remaining, List.take_length]

theorem agrees_take (count : Nat) :
    Agrees (Follows limit Eq) (window.take count) (cursor.take count) := by
  rcases Nat.lt_or_ge cursor.remaining count with short | enough
  · rw [sees.take_of_short short, Cursor.take_of_lt cursor count short]
    exact .error _
  · obtain ⟨taken, rest⟩ := sees.take_of_enough enough
    rw [taken, Cursor.take_of_le cursor count enough]
    exact .ok ⟨rfl, rest⟩

theorem agrees_skip (count : Nat) :
    Agrees (Sees limit) (window.skip count) (cursor.skip count) :=
  (sees.agrees_take count).bind_follows fun _ _ _ rest => .ok rest

theorem agrees_split (count : Nat) :
    Agrees (fun first second => Sees count first.1 second.1 ∧ second.1.remaining = count ∧
        Sees limit first.2 second.2)
      (window.split count) (cursor.split count) := by
  refine .step sees.offset_ok ?_
  rw [Cursor.split]
  rcases Nat.lt_or_ge cursor.remaining count with short | enough
  · rw [sees.take_of_short short, Cursor.take_of_lt cursor count short]
    exact .error _
  · obtain ⟨taken, rest⟩ := sees.take_of_enough enough
    have length : (cursor.bytes.take count).length = count := by
      rw [List.length_take]
      exact Nat.min_eq_left enough
    have below : cursor.offset + count < allocationLimit := by
      have inside := rest.inside
      have fits := sees.fits
      have offset := sees.offset
      dsimp only at inside
      omega
    rw [taken, Cursor.take_of_le cursor count enough]
    exact .ok ⟨⟨Nat.zero_le _, length.symm ▸ below, rfl, rfl, sees.order, Nat.le_of_eq length⟩,
      length, rest⟩

theorem agrees_half : Agrees (Follows limit Eq) window.half (cursor.number 2) := by
  rw [Window.half, Cursor.number]
  rcases Nat.lt_or_ge cursor.remaining 2 with short | enough
  · rw [sees.take_of_short short, Cursor.take_of_lt cursor 2 short]
    exact .error _
  · obtain ⟨taken, rest⟩ := sees.take_of_enough enough
    obtain ⟨first, second, bytes⟩ := List.length_eq_two.mp (List.length_take_of_le enough)
    rw [taken, Cursor.take_of_le cursor 2 enough, Outcome.bind_of_ok rfl, Outcome.bind_of_ok rfl]
    dsimp only
    rw [bytes]
    exact .ok ⟨by rw [sees.order], rest⟩

theorem agrees_word : Agrees (Follows limit Eq) window.word (cursor.number 4) := by
  rw [Window.word, Cursor.number]
  rcases Nat.lt_or_ge cursor.remaining 4 with short | enough
  · rw [sees.take_of_short short, Cursor.take_of_lt cursor 4 short]
    exact .error _
  · obtain ⟨taken, rest⟩ := sees.take_of_enough enough
    have length : (cursor.bytes.take 4).length = 4 := by
      rw [List.length_take]
      exact Nat.min_eq_left enough
    obtain ⟨first, second, third, fourth, bytes⟩ := List.length_eq_four.mp length
    rw [taken, Cursor.take_of_le cursor 4 enough, Outcome.bind_of_ok rfl, Outcome.bind_of_ok rfl]
    dsimp only
    rw [bytes]
    exact .ok ⟨by rw [sees.order], rest⟩

theorem agrees_skipAtMost (count : Nat) :
    ∃ rest : Window, window.skipAtMost count = .ok ((cursor.skipAtMost count).1, rest) ∧
      Sees limit rest (cursor.skipAtMost count).2 := by
  obtain ⟨position, rest⟩ := sees.passed (Nat.min_le_right count cursor.remaining)
  have skipped : cursor.skipAtMost count = (min count cursor.remaining,
      ⟨cursor.bytes.drop (min count cursor.remaining),
        cursor.offset + min count cursor.remaining, cursor.order⟩) := by
    rw [Cursor.skipAtMost, List.splitAt_eq]
    dsimp only
    rw [List.length_take, Cursor.remaining]
    congr 2
    rcases Nat.le_total count cursor.bytes.length with covers | short
    · rw [Nat.min_eq_left covers]
    · rw [Nat.min_eq_right short, List.drop_length, List.drop_eq_nil_of_le short]
  rw [skipped]
  refine ⟨_, ?_, rest⟩
  rw [Window.skipAtMost, Outcome.bind_of_ok sees.remaining_ok]
  dsimp only
  rw [Outcome.bind_of_ok position]
  rfl

/-! ### Elements -/

theorem agrees_tag : Agrees (Follows limit Eq) window.tag cursor.tag := by
  refine .step sees.offset_ok ?_
  refine sees.agrees_word.bind_follows fun word window cursor sees => ?_
  dsimp only
  split
  · refine .ite Iff.rfl (fun _ => .error _) fun _ => ?_
    cases DataType.ofCode? (word % 65536) with
    | none => exact .error _
    | some type => exact .ite Iff.rfl (fun _ => .error _) fun _ => .ok ⟨rfl, sees⟩
  · refine sees.agrees_word.bind_follows fun size window cursor sees => ?_
    cases DataType.ofCode? word with
    | none => exact .error _
    | some type => exact .ok ⟨rfl, sees⟩

end

end Sees

theorem padding_ok {tag : Tag} (packs : tag.packed = true → tag.size ≤ packedLimit) :
    padding tag = .ok tag.padding := by
  unfold padding Tag.padding
  split
  · rename_i packed
    exact difference_of_le (packs packed)
  · split
    · rfl
    · have below : tag.size % 8 ≤ 8 := Nat.le_of_lt (Nat.mod_lt _ (by decide))
      rw [Outcome.bind_of_ok (remainder_of_pos (by decide) _),
        Outcome.bind_of_ok (difference_of_le below), remainder_of_pos (by decide), paddingTo8]

/-- An element that was read, whose payload has at most `limit` bytes. -/
structure IsPart (limit : Nat) (part : Part) (element : Element) : Prop where
  tag : part.tag = element.tag
  payload : Sees limit part.payload element.payload
  whole : element.payload.remaining = element.tag.size
  short : element.tag.size < wordLimit

/-- An element is read to the same tag and payload, and its payload has fewer bytes than were
left before it. -/
theorem Sees.agrees_element {limit : Nat} {window : Window} {cursor : Cursor}
    (sees : Sees limit window cursor) :
    Agrees (Follows limit (IsPart (limit - 1))) window.element cursor.element.result := by
  rw [Cursor.result_element]
  refine sees.agrees_tag.known.bind fun (tag, window) (_, cursor) ⟨⟨same, seesRest⟩, _, read⟩ => ?_
  cases same
  obtain ⟨short, packs⟩ := Cursor.size_lt_of_tag read
  have consumed := Cursor.remaining_of_tag read
  have left := sees.left
  refine (seesRest.agrees_split tag.size).known.bind
    fun (payload, window) (otherPayload, cursor) ⟨⟨seesPayload, whole, seesRest⟩, _, read⟩ => ?_
  have divided := Cursor.remaining_of_split read
  obtain ⟨rest, skipped, seesRest⟩ := seesRest.agrees_skipAtMost tag.padding
  have isPart : IsPart (limit - 1) ⟨tag, payload⟩ ⟨tag, otherPayload⟩ :=
    ⟨rfl, seesPayload.mono (by dsimp only at *; omega), whole, short⟩
  refine .step (padding_ok packs) (.step skipped ?_)
  dsimp only
  split
  · rename_i missing
    exact .step seesPayload.offset_ok
      (.step (difference_of_le (Nat.le_of_lt missing)) (.ok ⟨isPart, seesRest⟩))
  · exact .ok ⟨isPart, seesRest⟩

end Checked

end MatFormat
