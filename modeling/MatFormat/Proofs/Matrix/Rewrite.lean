/-
This file proves that rewriting an array normalises it once. Whatever bytes an array was read
from, what is read where it was written again is the array without the flag of complex arrays
on everything that holds no numbers, and writing that gives the same bytes. So nothing else of
a foreign encoding is lost: fields without a name or under one name twice, struct arrays that
have elements but no fields, folded columns and every bit pattern are kept at every depth.
-/

import MatFormat.Proofs.Matrix.RoundTrip
import MatFormat.Proofs.Matrix.Sound

namespace MatFormat

variable {order : ByteOrder}

namespace MatArray

/-! ### Cleared arrays -/

/-- An array that holds no numbers without the flag of complex arrays; numbers as they are. -/
def clearHere (array : MatArray) : MatArray :=
  if array.holdsNumbers then array else array.modifyInfo fun info => info.setComplex false

/-- An array without the flag of complex arrays wherever, at every depth, there are no
numbers. -/
def cleared : MatArray → MatArray := rebuild clearHere some

theorem rebuildSlot_some_eq_map (change : MatArray → MatArray) :
    rebuildSlot change some = Option.map (rebuild change some) := by
  funext slot
  cases slot with
  | none => rw [rebuildSlot, Option.map_none]
  | some array => rw [rebuildSlot, Option.map_some]

theorem cleared_eq (array : MatArray) :
    array.cleared = (array.mapSlots (Option.map cleared)).clearHere := by
  rw [cleared, rebuild_eq, rebuildSlot_some_eq_map]

theorem mapSlots_clearHere (change : Option MatArray → Option MatArray) (array : MatArray) :
    array.clearHere.mapSlots change = (array.mapSlots change).clearHere := by
  cases array <;> rfl

theorem mapSlots_mapSlots (first second : Option MatArray → Option MatArray) (array : MatArray) :
    (array.mapSlots first).mapSlots second = array.mapSlots fun slot => second (first slot) := by
  cases array with
  | cell array => simp only [mapSlots, List.map_map, Function.comp_def]
  | struct array => simp only [mapSlots, List.map_map, Function.comp_def]
  | numeric => rfl
  | char => rfl
  | sparse => rfl

theorem isPlaceholder_cleared (array : MatArray) :
    array.cleared.isPlaceholder = array.isPlaceholder := by
  rw [cleared_eq]
  cases array <;> rfl

/-- Clearing makes a sound array well formed, as far as the array itself goes. -/
theorem Sound.complex_clearHere {array : MatArray}
    (complex : array.holdsNumbers = true → array.info.flags.complex = array.isComplex) :
    array.clearHere.info.flags.complex = array.clearHere.isComplex := by
  cases array with
  | numeric => exact complex rfl
  | sparse => exact complex rfl
  | char => rfl
  | cell => rfl
  | struct => rfl

theorem keepHere_clearHere (array : MatArray) : array.clearHere.keepHere = array.keepHere := by
  cases array <;> rfl

theorem ownNames_clearHere (array : MatArray) : array.clearHere.ownNames = array.ownNames := by
  cases array <;> rfl

theorem holdsNumbers_mapSlots (change : Option MatArray → Option MatArray) (array : MatArray) :
    (array.mapSlots change).holdsNumbers = array.holdsNumbers := by
  cases array <;> rfl

/-- A sound array is kept but for the flag of complex arrays where there are no numbers, and
for a declared capacity below the entries. -/
theorem kept_eq_settled_cleared {array : MatArray} (sound : array.Everywhere Sound) :
    array.kept = array.cleared.settled := by
  induction sound with
  | intro array here below inductionHypothesis =>
    have slots : array.mapSlots keptSlot =
        array.mapSlots fun slot => settledSlot (slot.map cleared) := by
      refine mapSlots_congr (by rw [keptSlot_none, Option.map_none, settledSlot_none])
        fun child member => ?_
      have placeholder : child.cleared.settled.isPlaceholder = false := by
        rw [isPlaceholder_settled, isPlaceholder_cleared, here.slots child member]
      rw [keptSlot_some, Option.map_some, settledSlot_some, inductionHypothesis child member,
        toSlot, if_neg (by rw [placeholder]; exact Bool.false_ne_true)]
    rw [kept_eq, cleared_eq, settled_eq, mapSlots_clearHere, mapSlots_mapSlots, slots,
      ← keepHere_clearHere]
    apply keepHere_eq_settleHere
    · apply Sound.complex_clearHere
      rw [holdsNumbers_mapSlots, info_mapSlots, isComplex_mapSlots]
      exact here.complex
    · rw [ownNames_clearHere, ownNames_mapSlots]
      exact here.names

/-! ### What is written -/

theorem encode_clearHere (array : MatArray) :
    array.clearHere.encode order = array.encode order := by
  cases array with
  | numeric => rfl
  | sparse => rfl
  | char array =>
    simp only [clearHere, holdsNumbers, modifyInfo, encode]
    rfl
  | cell array =>
    obtain ⟨info, cells⟩ := array
    simp only [clearHere, holdsNumbers, modifyInfo, encode]
    rfl
  | struct array =>
    obtain ⟨info, className, fields⟩ := array
    simp only [clearHere, holdsNumbers, modifyInfo, encode]
    rfl

theorem encode_settleHere (array : MatArray) :
    array.settleHere.encode order = array.encode order := by
  cases array with
  | sparse array =>
    simp only [settleHere, encode, encodeHead, writtenCapacity, room_settled]
    rfl
  | _ => rfl

/-- Slots that are written alike can be exchanged. -/
theorem encode_mapSlots {change : Option MatArray → Option MatArray} {array : MatArray}
    (alike : ∀ slot ∈ array.slots, encodeSlot order (change slot) = encodeSlot order slot) :
    (array.mapSlots change).encode order = array.encode order := by
  cases array with
  | cell array =>
    obtain ⟨info, cells⟩ := array
    have written : encodeSlots order (cells.map change) = encodeSlots order cells := by
      rw [encodeSlots_eq_map, encodeSlots_eq_map, List.map_map]
      exact List.map_congr_left alike
    simp only [mapSlots, encode, written]
    rfl
  | struct array =>
    obtain ⟨info, className, fields⟩ := array
    have written : encodeFields order
        (fields.map fun field => { field with slots := field.slots.map change }) =
        encodeFields order fields := by
      rw [encodeFields_eq_map, encodeFields_eq_map, List.map_map]
      refine List.map_congr_left fun field fieldMember => ?_
      rw [Function.comp_apply, List.map_map]
      exact List.map_congr_left fun slot member =>
        alike slot (List.mem_flatMap.mpr ⟨field, fieldMember, member⟩)
    simp only [mapSlots, encode, written, List.map_map, List.isEmpty_map]
    rfl
  | numeric => rfl
  | char => rfl
  | sparse => rfl

/-- Changes that are not written can be made everywhere in an array. -/
theorem encode_rebuild {change : MatArray → MatArray}
    (alike : ∀ array : MatArray, (change array).encode order = array.encode order)
    (array : MatArray) : (array.rebuild change some).encode order = array.encode order := by
  induction array using tree_induction with
  | step array inductionHypothesis =>
    rw [rebuild_eq, alike, rebuildSlot_some_eq_map]
    refine encode_mapSlots fun slot member => ?_
    cases slot with
    | none => rw [Option.map_none]
    | some child =>
      rw [Option.map_some, encodeSlot, encodeSlot,
        inductionHypothesis child ((mem_children array child).mpr member)]

theorem element_settled_cleared (array : MatArray) :
    array.cleared.settled.element order = array.element order := by
  have written : array.cleared.settled.encode order = array.encode order :=
    (encode_rebuild encode_settleHere _).trans (encode_rebuild encode_clearHere _)
  rw [element_eq, element_eq, written]

end MatArray

/-! ### Rewriting -/

/-- An array that was read from any bytes and written again is read back without the flag of
complex arrays wherever there are no numbers, and otherwise as it was; a sparse matrix that
declared less room than it has entries declares all of it, which counts as the same. Writing
what is read back gives the same bytes. -/
theorem rewritten_once {payload : Cursor} {wanted : String → Bool} {array : MatArray}
    (read : (payload.matrix wanted).result = .ok (some array)) {bytes : List UInt8}
    (written : array.element order = .ok bytes) (rest : List UInt8) (offset : Nat) :
    ∃ element : Element,
      (Cursor.element ⟨bytes ++ rest, offset, order⟩).result =
        .ok (element, ⟨rest, offset + bytes.length, order⟩) ∧
      element.tag = ⟨.matrix, element.payload.remaining, false⟩ ∧
      (element.payload.matrix fun _ => true).result = .ok (some array.cleared.settled) ∧
      array.cleared.settled.same array.cleared = true ∧
      array.cleared.settled.element order = .ok bytes := by
  have sound : array.Everywhere MatArray.Sound := Cursor.gives_matrix wanted _ _ read
  obtain ⟨element, elementRead, tag, matrix⟩ := element_of_writtenArray
    (sound.imp fun _ here => here.shaped) written rest offset
  refine ⟨element, elementRead, tag, ?_, array.cleared.same_settled, ?_⟩
  · rw [matrix, if_pos rfl, MatArray.kept_eq_settled_cleared sound]
  · rw [MatArray.element_settled_cleared, written]

/-- A matrix that declares its two letters to be complex. -/
def complexLetters : Cursor where
  bytes := [6, 0, 0, 0, 8, 0, 0, 0, 4, 8, 0, 0, 0, 0, 0, 0,
    5, 0, 0, 0, 8, 0, 0, 0, 2, 0, 0, 0, 1, 0, 0, 0,
    1, 0, 1, 0, 99, 0, 0, 0, 4, 0, 4, 0, 104, 0, 105, 0]
  offset := 8
  order := .little

/-- Two letters with or without the flag of complex arrays. -/
def twoLetters (complex : Bool) : MatArray :=
  .char ⟨⟨"c", ⟨[2, 1], by decide, by decide, by decide⟩, { complex }⟩, [104, 105]⟩

theorem rewritten_once_complexLetters :
    (complexLetters.matrix fun name => name == "c").result = .ok (some (twoLetters true)) ∧
      ∃ bytes : List UInt8, (twoLetters true).element .big = .ok bytes ∧ ∃ element : Element,
        (Cursor.element ⟨bytes ++ [1, 2, 3], 0, .big⟩).result =
          .ok (element, ⟨[1, 2, 3], 0 + bytes.length, .big⟩) ∧
        element.tag = ⟨.matrix, element.payload.remaining, false⟩ ∧
        (element.payload.matrix fun _ => true).result = .ok (some (twoLetters false)) ∧
        (twoLetters false).same (twoLetters false) = true ∧
        (twoLetters false).element .big = .ok bytes := by
  have read : (complexLetters.matrix fun name => name == "c").result =
      .ok (some (twoLetters true)) := by rfl
  have succeeds : ((twoLetters true).element .big).isOk = true := by decide +kernel
  cases written : (twoLetters true).element .big with
  | error fault =>
    rw [written] at succeeds
    cases succeeds
  | ok bytes => exact ⟨read, bytes, rfl, rewritten_once read written [1, 2, 3] 0⟩

end MatFormat
