/-
This file proves that slots are read without a trap, given a reader for nested matrices of
which this is known. The early check on the number of slots bounds it by the bytes that are
left, which fit in a word, so the room for the slots is there. A struct array is filled element
by element, one slot for each field at a time; that gives every field the slots which dealing
the run of all slots gives it.
-/

import MatFormat.Checked.Matrix
import MatFormat.Proofs.Checked.Element

namespace MatFormat

/-! ### Slots in a row -/

/-- Slots that are read one after the other are read in two parts. -/
theorem Cursor.result_slots_add (nested : Cursor → Reading (Option MatArray))
    (first second : Nat) (cursor : Cursor) :
    (slots nested (first + second) cursor).result = (do
      let (front, cursor) ← (slots nested first cursor).result
      let (back, cursor) ← (slots nested second cursor).result
      pure (front ++ back, cursor)) := by
  induction first generalizing cursor with
  | zero =>
    rw [Nat.zero_add, slots, Reading.result_pure]
    show _ = (slots nested second cursor).result >>= fun read => pure ([] ++ read.1, read.2)
    exact (bind_pure _).symm
  | succ first inductionHypothesis =>
    rw [Nat.succ_add, slots, slots, Reading.result_bind, Reading.result_bind, bind_assoc]
    refine congrArg ((cursor.slot nested).result >>= ·) (funext fun read => ?_)
    dsimp only
    rw [Reading.result_bind, Reading.result_bind, inductionHypothesis, bind_assoc, bind_assoc]
    refine congrArg ((slots nested first read.2).result >>= ·) (funext fun front => ?_)
    rw [bind_assoc]
    rfl

/-! ### Fields that are filled -/

/-- A field with more slots behind its own. -/
def Field.extended (field : Field MatArray) (more : List (Option MatArray)) : Field MatArray :=
  { field with slots := field.slots ++ more }

theorem zipWith_extended_nil (fields : List (Field MatArray)) :
    List.zipWith Field.extended fields (List.replicate fields.length []) = fields := by
  induction fields with
  | nil => rfl
  | cons field rest inductionHypothesis =>
    rw [List.length_cons, List.replicate_succ, List.zipWith_cons_cons, inductionHypothesis,
      Field.extended, List.append_nil]

/-- Giving every field one slot and then more is giving it all of them. -/
theorem zipWith_extended_cons (fields : List (Field MatArray)) (slots : List (Option MatArray))
    (piles : List (List (Option MatArray))) :
    List.zipWith Field.extended
        (List.zipWith (fun field slot => field.extended [slot]) fields slots) piles =
      List.zipWith Field.extended fields (List.zipWith List.cons slots piles) := by
  induction fields generalizing slots piles with
  | nil => rfl
  | cons field rest inductionHypothesis =>
    cases slots with
    | nil => rfl
    | cons slot slots =>
      cases piles with
      | nil => rfl
      | cons pile piles =>
        rw [List.zipWith_cons_cons, List.zipWith_cons_cons, inductionHypothesis,
          List.zipWith_cons_cons, List.zipWith_cons_cons, Field.extended, Field.extended,
          List.append_assoc]
        rfl

theorem zipWith_extended_of_empty (names : List String)
    (piles : List (List (Option MatArray))) :
    List.zipWith Field.extended (names.map fun name => ⟨name, []⟩) piles =
      List.zipWith Field.mk names piles := by
  rw [List.zipWith_map_left]
  rfl

namespace Checked

/-- A reader for nested matrices agrees with another on payloads of at most `limit` bytes. -/
def NestedAgrees (limit : Nat) (nested : Window → Computation (Option MatArray))
    (other : Cursor → Reading (Option MatArray)) : Prop :=
  ∀ (payload : Window) (cursor : Cursor), Sees limit payload cursor →
    Agrees Eq (nested payload) (other cursor).result

/-- What is known of an array before its body, with the counts of its shape. -/
structure Metadata.Describes (metadata : Metadata) (known : ArrayInfo) : Prop where
  info : metadata.info = known
  length : metadata.length = known.shape.count
  columns : metadata.columns = known.shape.columns

namespace Sees

variable {limit slotSize : Nat} {window : Window} {cursor : Cursor}
  {nested : Window → Computation (Option MatArray)}
  {other : Cursor → Reading (Option MatArray)}

/-! ### Slots -/

theorem agrees_slot (sees : Sees limit window cursor)
    (inner : NestedAgrees (limit - 1) nested other) :
    Agrees (Follows limit Eq) (window.slot nested) (cursor.slot other).result := by
  refine .step sees.offset_ok ?_
  refine sees.agrees_element.reading fun (part, window) (element, cursor) ⟨isPart, sees⟩ => ?_
  dsimp only
  rw [isPart.tag]
  refine .choice Iff.rfl (fun _ => .error _) fun _ => ?_
  exact (inner _ _ isPart.payload).reading fun array _ same => .ok ⟨same, sees⟩

theorem agrees_slots (sees : Sees limit window cursor)
    (inner : NestedAgrees (limit - 1) nested other) (count : Nat) :
    Agrees (Follows limit Eq) (Window.slots nested count window)
      (Cursor.slots other count cursor).result := by
  induction count generalizing window cursor with
  | zero => exact .ok ⟨rfl, sees⟩
  | succ count inductionHypothesis =>
    refine (sees.agrees_slot inner).reading_follows fun first window cursor sees => ?_
    exact (inductionHypothesis sees).reading_follows fun _ _ _ sees => .ok ⟨rfl, sees⟩

/-- One slot for every field is read as that many slots in a row. -/
theorem agrees_round (sees : Sees limit window cursor)
    (inner : NestedAgrees (limit - 1) nested other) (fields : List (Field MatArray)) :
    Agrees (Follows limit fun filled slots => slots.length = fields.length ∧
        filled = List.zipWith (fun field slot => field.extended [slot]) fields slots)
      (Window.round nested fields window) (Cursor.slots other fields.length cursor).result := by
  induction fields generalizing window cursor with
  | nil => exact .ok ⟨⟨rfl, rfl⟩, sees⟩
  | cons field rest inductionHypothesis =>
    refine (sees.agrees_slot inner).reading_follows fun first window cursor sees => ?_
    refine (inductionHypothesis sees).reading
      fun (filled, window) (slots, cursor) ⟨⟨length, same⟩, sees⟩ => ?_
    dsimp only at same
    subst same
    exact .ok ⟨⟨congrArg Nat.succ length, rfl⟩, sees⟩

/-- Fields that are filled round by round hold what dealing the run of all slots gives them. -/
theorem agrees_rounds (sees : Sees limit window cursor)
    (inner : NestedAgrees (limit - 1) nested other) (count : Nat)
    (fields : List (Field MatArray)) :
    Agrees (Follows limit fun filled slots =>
        filled = List.zipWith Field.extended fields (deal fields.length count slots))
      (Window.rounds nested count fields window)
      (Cursor.slots other (count * fields.length) cursor).result := by
  induction count generalizing window cursor fields with
  | zero =>
    rw [Nat.zero_mul]
    exact .ok ⟨(zipWith_extended_nil fields).symm, sees⟩
  | succ count inductionHypothesis =>
    have parts : (count + 1) * fields.length = fields.length + count * fields.length := by
      rw [Nat.succ_mul, Nat.add_comm]
    rw [parts, Cursor.result_slots_add]
    refine (sees.agrees_round inner fields).bind
      fun (filled, window) (front, cursor) ⟨⟨length, same⟩, sees⟩ => ?_
    dsimp only at length same
    have width : filled.length = fields.length := by
      rw [same, List.length_zipWith, length, Nat.min_self]
    have later := inductionHypothesis sees filled
    rw [width] at later
    dsimp only
    rw [← bind_pure (Window.rounds nested count filled window)]
    refine later.bind fun (refilled, window) (back, cursor) ⟨same', sees⟩ => ?_
    dsimp only at same'
    have dealt : deal fields.length (count + 1) (front ++ back) =
        List.zipWith List.cons front (deal fields.length count back) := by
      rw [deal, List.take_left' length, List.drop_left' length]
    refine .ok ⟨?_, sees⟩
    show refilled = List.zipWith Field.extended fields (deal fields.length (count + 1) _)
    rw [same', same, zipWith_extended_cons, dealt]

/-! ### Cells -/

theorem agrees_checkSlots (sees : Sees limit window cursor) (count : Nat) :
    Agrees Eq (window.checkSlots count) (cursor.checkSlots count) := by
  refine .step sees.remaining_ok ?_
  exact .ite Iff.rfl (fun _ => .step sees.offset_ok (.step sees.remaining_ok (.error _)))
    fun _ => .ok rfl

/-- There is room for as many slots as passed the early check. -/
theorem reserve_ok (sees : Sees limit window cursor) (short : limit < wordLimit)
    (narrow : slotSize ≤ slotLimit) {count rounds : Nat} (covered : rounds ≤ count)
    (checked : cursor.checkSlots count = .ok ()) : reserve rounds slotSize = .ok () := by
  have left := sees.left
  have word : wordLimit < countLimit - 1 := by decide
  have tag : tagSize = 8 := rfl
  have room : 2 ^ 29 * slotLimit < allocationLimit := by decide
  have words : wordLimit = 2 ^ 29 * 8 := rfl
  have needed : ¬ cursor.remaining < Cursor.saturatingProduct count tagSize := by
    intro missing
    rw [Cursor.checkSlots, if_pos missing] at checked
    cases checked
  rw [Cursor.saturatingProduct, tag] at needed
  have few : rounds ≤ 2 ^ 29 := by omega
  exact reserve_of_lt (Nat.lt_of_le_of_lt (Nat.mul_le_mul few narrow) room)

theorem agrees_cellBody (sees : Sees limit window cursor) (short : limit < wordLimit)
    (narrow : slotSize ≤ slotLimit) (inner : NestedAgrees (limit - 1) nested other)
    {metadata : Metadata} {info : ArrayInfo} (describes : metadata.Describes info) :
    Agrees (Follows limit Eq) (window.cellBody slotSize nested metadata)
      (cursor.cellBody other info).result := by
  rw [Window.cellBody, describes.length]
  refine (sees.agrees_checkSlots _).known.reading fun _ _ ⟨_, _, checked⟩ => ?_
  refine .step (sees.reserve_ok short narrow (Nat.le_refl _) checked) ?_
  refine (sees.agrees_slots inner _).reading_follows fun cells window cursor sees => ?_
  exact .ok ⟨by rw [describes.info], sees⟩

/-! ### Structs and objects -/

theorem agrees_fieldNames (sees : Sees limit window cursor) :
    Agrees (Follows limit Eq) window.fieldNames cursor.fieldNames.result := by
  refine .step sees.offset_ok ?_
  refine sees.agrees_element.reading fun (part, window) (element, cursor) ⟨isPart, sees⟩ => ?_
  refine isPart.agrees_integers.reading_same fun lengths => ?_
  match lengths with
  | [length] =>
    dsimp only
    split
    · rename_i positive
      refine sees.agrees_element.reading fun (part, window) (element, cursor) ⟨isPart, sees⟩ => ?_
      refine (isPart.agrees_fieldNames (Int.pos_iff_toNat_pos.mp positive)).reading
        fun names _ same => ?_
      exact .ok ⟨same, sees⟩
    · exact .error _
  | [] => exact .error _
  | _ :: _ :: _ => exact .error _

/-- The number of rounds is among the slots that are checked for. -/
theorem slotRounds_le_saturatingProduct (info : ArrayInfo) (names : List String) :
    Cursor.slotRounds info names ≤
      Cursor.saturatingProduct (Cursor.slotRounds info names) names.length := by
  cases names with
  | nil => exact Nat.zero_le _
  | cons name rest =>
    have fits := info.shape.count_lt
    refine Nat.le_min.mpr ⟨Nat.le_mul_of_pos_right _ (Nat.succ_pos _), ?_⟩
    show info.shape.count ≤ countLimit - 1
    omega

theorem agrees_structBody (sees : Sees limit window cursor) (short : limit < wordLimit)
    (narrow : slotSize ≤ slotLimit) (inner : NestedAgrees (limit - 1) nested other)
    {metadata : Metadata} {info : ArrayInfo} (describes : metadata.Describes info)
    (className : Option String) :
    Agrees (Follows limit Eq) (window.structBody slotSize nested metadata className)
      (cursor.structBody other info className).result := by
  refine sees.agrees_fieldNames.reading_follows fun names window cursor sees => ?_
  have rounds : (if names.isEmpty then 0 else metadata.length) = Cursor.slotRounds info names := by
    rw [Cursor.slotRounds, describes.length]
  dsimp only
  rw [rounds]
  refine (sees.agrees_checkSlots _).known.reading fun _ _ ⟨_, _, checked⟩ => ?_
  have room := sees.reserve_ok short narrow (slotRounds_le_saturatingProduct info names) checked
  have empty : names.mapM (Window.emptyField slotSize (Cursor.slotRounds info names)) =
      .ok (names.map fun name => ⟨name, []⟩) :=
    mapM_of_ok fun name _ => by rw [Window.emptyField, room]; rfl
  refine .step empty ?_
  have filled := sees.agrees_rounds inner (Cursor.slotRounds info names)
    (names.map fun name => ⟨name, []⟩)
  rw [List.length_map] at filled
  refine filled.reading fun (fields, window) (slots, cursor) ⟨same, sees⟩ => ?_
  dsimp only at same
  rw [zipWith_extended_of_empty] at same
  subst same
  exact .ok ⟨by rw [describes.info], sees⟩

theorem agrees_objectBody (sees : Sees limit window cursor) (short : limit < wordLimit)
    (narrow : slotSize ≤ slotLimit) (inner : NestedAgrees (limit - 1) nested other)
    {metadata : Metadata} {info : ArrayInfo} (describes : metadata.Describes info) :
    Agrees (Follows limit Eq) (window.objectBody slotSize nested metadata)
      (cursor.objectBody other info).result := by
  refine sees.agrees_element.reading fun (part, window) (element, cursor) ⟨isPart, sees⟩ => ?_
  refine isPart.agrees_name.reading_same fun className => ?_
  exact sees.agrees_structBody short narrow inner describes (some className)

end Sees

end Checked

end MatFormat
