/-
This file bounds how deep matrices nest. The payload of a nested matrix stands inside the one
that it is nested in, behind the three elements of the head and its own tag, and each of these
four takes eight bytes. So reading what is nested is a recursion that ends before it runs out of
bytes, however many cells or fields there are said to be, and an array that was read is no deeper
than its payload has room for.
-/

import Mathlib.Data.List.MinMax
import Mathlib.Order.Nat
import MatFormat.Proofs.ArrayTree
import MatFormat.Proofs.Consumption
import MatFormat.Proofs.Matrix.ValueCount
import MatFormat.Proofs.Recursion

namespace MatFormat

/-! ### Depth -/

namespace MatArray

/-- The number of arrays that are nested in each other, where an array without arrays in it
counts as one. -/
def depth (array : MatArray) : Nat :=
  1 + (array.children.attach.map fun child => child.1.depth).foldr max 0
termination_by sizeOf array
decreasing_by exact sizeOf_lt_of_mem_children child.2

theorem depth_eq (array : MatArray) :
    array.depth = 1 + (array.children.map depth).foldr max 0 := by
  rw [depth]
  simp

theorem depth_le_succ {array : MatArray} {bound : Nat}
    (below : ∀ child ∈ array.children, child.depth ≤ bound) : array.depth ≤ bound + 1 := by
  rw [array.depth_eq, Nat.add_comm]
  refine Nat.succ_le_succ (List.max_le_of_forall_le _ _ fun deep member => ?_)
  obtain ⟨child, childMember, rfl⟩ := List.mem_map.mp member
  exact below child childMember

end MatArray

namespace Cursor

variable {cursor rest : Cursor}

/-! ### Bytes of the head -/

/-- Where bytes are left, a number of bytes was taken before them. -/
def Took (cursor : Cursor) (width : Nat) (rest : Cursor) : Prop :=
  0 < rest.remaining → rest.remaining + width ≤ cursor.remaining

theorem Took.trans {middle : Cursor} {width more : Nat} (first : cursor.Took width middle)
    (second : middle.Took more rest) : cursor.Took (width + more) rest := by
  intro followed
  have later := second followed
  have earlier := first (by omega)
  omega

theorem took_of_element {element : Element}
    (read : cursor.element.result = .ok (element, rest)) : cursor.Took tagSize rest :=
  (takes_of_element read).eight_le

theorem took_of_indices {indices : List Nat}
    (read : cursor.indices.result = .ok (indices, rest)) : cursor.Took tagSize rest := by
  obtain ⟨⟨element, afterElement⟩, elementRead, read⟩ := Reading.result_bind_eq_ok.mp read
  obtain ⟨values, _, read⟩ := Reading.result_bind_eq_ok.mp read
  obtain ⟨found, _, read⟩ := Reading.result_bind_eq_ok.mp read
  cases read
  exact took_of_element elementRead

/-- The three elements of a head take eight bytes each, where bytes follow it. -/
theorem took_of_matrixHead {head : MatrixHead}
    (read : cursor.matrixHead.result = .ok (head, rest)) : cursor.Took 24 rest := by
  obtain ⟨⟨flags, afterFlags⟩, flagsRead, read⟩ := Reading.result_bind_eq_ok.mp read
  obtain ⟨words, _, read⟩ := Reading.result_bind_eq_ok.mp read
  dsimp only at read
  split at read
  · obtain ⟨_, _, read⟩ := Reading.result_bind_eq_ok.mp read
    obtain ⟨⟨dimensions, afterDimensions⟩, dimensionsRead, read⟩ :=
      Reading.result_bind_eq_ok.mp read
    dsimp only at read
    split at read
    · cases read
    · obtain ⟨⟨element, afterName⟩, nameRead, read⟩ := Reading.result_bind_eq_ok.mp read
      obtain ⟨name, _, read⟩ := Reading.result_bind_eq_ok.mp read
      cases read
      exact ((took_of_element flagsRead).trans (took_of_indices dimensionsRead)).trans
        (took_of_element nameRead)
  · cases read

/-- The bytes that a level of nesting takes: three elements of the head and a tag. -/
def levelSize : Nat := 32

/-- What is nested behind a head is shorter than the payload by the bytes of a level. -/
theorem add_levelSize_le_of_matrixHead {payload inner : Cursor} {head : MatrixHead}
    (read : payload.matrixHead.result = .ok (head, cursor))
    (fits : inner.remaining + tagSize ≤ cursor.remaining) :
    inner.remaining + levelSize ≤ payload.remaining := by
  have tag : tagSize = 8 := rfl
  have level : levelSize = 32 := rfl
  have headTaken := took_of_matrixHead read (by omega)
  omega

/-! ### What the reader of nested matrices is asked for -/

/-- Two readers of nested matrices that agree on the payloads of elements in a number of bytes. -/
def AgreeWithin (limit : Nat) (first second : Cursor → Reading (Option MatArray)) : Prop :=
  ∀ payload : Cursor, payload.remaining + tagSize ≤ limit → first payload = second payload

variable {first second : Cursor → Reading (Option MatArray)}

theorem AgreeWithin.mono {limit less : Nat} (agree : AgreeWithin limit first second)
    (fewer : less ≤ limit) : AgreeWithin less first second :=
  fun payload fits => agree payload (Nat.le_trans fits fewer)

theorem slot_congr (agree : AgreeWithin cursor.remaining first second) :
    cursor.slot first = cursor.slot second := by
  refine Reading.bind_congr_of_ok fun (element, rest) read => ?_
  dsimp only
  split
  · rfl
  · rename_i isMatrix
    have nested : element.tag.type.isPrimitive = false := by
      rw [not_not.mp isMatrix]
      rfl
    have taken := (takes_of_element read).of_not_primitive nested
    rw [agree element.payload (by change _ + 8 ≤ _; omega)]

theorem remaining_of_slot {nested : Cursor → Reading (Option MatArray)} {slot : Option MatArray}
    (read : (cursor.slot nested).result = .ok (slot, rest)) :
    rest.remaining < cursor.remaining := by
  obtain ⟨⟨element, afterElement⟩, elementRead, read⟩ := Reading.result_bind_eq_ok.mp read
  dsimp only at read
  split at read
  · cases read
  · obtain ⟨found, _, read⟩ := Reading.result_bind_eq_ok.mp read
    cases read
    exact remaining_of_element elementRead

theorem slots_congr {count : Nat} (agree : AgreeWithin cursor.remaining first second) :
    slots first count cursor = slots second count cursor := by
  induction count generalizing cursor with
  | zero => rfl
  | succ count inductionHypothesis =>
    unfold slots
    rw [slot_congr agree]
    refine Reading.bind_congr_of_ok fun (slot, rest) read => ?_
    dsimp only
    rw [inductionHypothesis (agree.mono (Nat.le_of_lt (remaining_of_slot read)))]

theorem structBody_congr {info : ArrayInfo} {className : Option String}
    (agree : AgreeWithin cursor.remaining first second) :
    cursor.structBody first info className = cursor.structBody second info className := by
  refine Reading.bind_congr_of_ok fun (names, rest) read => ?_
  have paid := pays_fieldNames cursor _ read
  dsimp only [fields] at paid ⊢
  rw [slots_congr (agree.mono (by omega))]

/-- Whatever the class, a reader of nested matrices is asked only for payloads of elements in the
bytes behind the head. -/
theorem classBody_congr {arrayClass : ArrayClass} {info : ArrayInfo} {capacity : Nat}
    (agree : AgreeWithin cursor.remaining first second) :
    cursor.classBody first arrayClass info capacity =
      cursor.classBody second arrayClass info capacity := by
  cases arrayClass with
  | numeric | char | sparse => rfl
  | cell =>
    dsimp only [classBody, cellBody, cells]
    rw [slots_congr agree]
  | struct =>
    dsimp only [classBody]
    rw [structBody_congr agree]
  | object =>
    have same : cursor.objectBody first info = cursor.objectBody second info := by
      refine Reading.bind_congr_of_ok fun (element, rest) read => ?_
      refine Reading.bind_congr_of_ok fun className _ => ?_
      exact structBody_congr (agree.mono (Nat.le_of_lt (remaining_of_element read)))
    dsimp only [classBody]
    rw [same]

theorem matrixBody_congr {head : MatrixHead}
    (agree : AgreeWithin cursor.remaining first second) :
    cursor.matrixBody first head = cursor.matrixBody second head := by
  unfold matrixBody
  split
  · rfl
  · split
    · rfl
    · exact classBody_congr agree

/-! ### The recursion -/

/-- Read a nested matrix with a reader for those nested in it. -/
def nestedStep (nested : Cursor → Reading (Option MatArray)) (payload : Cursor) :
    Reading (Option MatArray) :=
  if payload.atEnd then pure none
  else do
    let (head, cursor) ← payload.matrixHead
    let (array, _) ← cursor.matrixBody nested head
    pure array.toSlot

/-- Read a matrix that stands for itself with a reader for those nested in it. -/
def matrixStep (nested : Cursor → Reading (Option MatArray)) (payload : Cursor)
    (wanted : String → Bool) : Reading (Option MatArray) :=
  if payload.atEnd then do
    Reading.note (.emptyMatrix payload.offset)
    pure none
  else do
    let (head, cursor) ← payload.matrixHead
    if wanted head.name then
      let (array, _) ← cursor.matrixBody nested head
      Reading.note (.decoded array.name array.arrayClass array.dimensions)
      pure (some array)
    else
      Reading.note (.filtered head.name)
      pure none

theorem descends_nestedStep : Descends nestedStep remaining levelSize := by
  intro payload first second agree
  unfold nestedStep
  split
  · rfl
  · refine Reading.bind_congr_of_ok fun (head, cursor) read => ?_
    dsimp only
    rw [matrixBody_congr fun inner fits => agree inner (add_levelSize_le_of_matrixHead read fits)]

/-- The reader of nested matrices gives what the recursion ends with, if its bound covers the
bytes. -/
theorem endsWithin_nestedMatrix {payload : Cursor} {depth calls : Nat}
    (covered : payload.remaining ≤ depth) (enough : payload.remaining < levelSize * calls) :
    EndsWithin nestedStep calls payload (nestedMatrix depth payload) := by
  have ends : EndsWithin nestedStep (depth + 1) payload (nestedMatrix depth payload) := by
    refine descends_nestedStep.endsWithin_counted (by decide) (fun _ => rfl) ?_
      (show payload.remaining ≤ depth + 0 from covered)
    exact fun _ none _ => if_pos (atEnd_iff.mpr (Nat.le_zero.mp none))
  exact descends_nestedStep.endsWithin ends enough

/-- What is nested in a matrix is read in as many calls as levels fit into its bytes. -/
theorem matrixStep_endsWithin (payload : Cursor) (wanted : String → Bool)
    (beyond : Cursor → Reading (Option MatArray)) :
    matrixStep (nestedStep^[payload.remaining / levelSize] beyond) payload wanted =
      payload.matrix wanted := by
  unfold matrixStep matrix
  split
  · rfl
  · refine Reading.bind_congr_of_ok fun (head, cursor) read => ?_
    dsimp only
    split
    · have agree : AgreeWithin cursor.remaining
          (nestedStep^[payload.remaining / levelSize] beyond) (nestedMatrix cursor.remaining) := by
        intro inner fits
        have shorter := add_levelSize_le_of_matrixHead read fits
        refine endsWithin_nestedMatrix (Nat.le_of_add_right_le fits) ?_ beyond
        unfold levelSize at *
        omega
      rw [matrixBody_congr agree]
    · rfl

/-! ### Arrays that were read -/

/-- The arrays in an array that was read were read by the reader of nested matrices. -/
theorem children_of_classBody {nested : Cursor → Reading (Option MatArray)}
    {property : MatArray → Prop} (gives : Gives nested property) {arrayClass : ArrayClass}
    {info : ArrayInfo} {capacity : Nat} {array : MatArray}
    (read : (cursor.classBody nested arrayClass info capacity).result = .ok (array, rest)) :
    ∀ child ∈ array.children, property child := by
  have ofStruct {className : Option String} {start : Cursor} {struct : StructArray MatArray}
      (body : (start.structBody nested info className).result = .ok (struct, rest)) :
      ∀ child ∈ (MatArray.struct struct).children, property child := by
    intro child member
    obtain ⟨field, fieldMember, slotMember⟩ := (MatArray.mem_children_struct _ _).mp member
    exact ((of_structBody gives body).2.2 field fieldMember).2.2 child slotMember
  cases arrayClass with
  | numeric | char | sparse =>
    obtain ⟨⟨found, afterBody⟩, _, read⟩ := Reading.result_bind_eq_ok.mp read
    cases read
    nofun
  | cell =>
    obtain ⟨⟨found, afterBody⟩, body, read⟩ := Reading.result_bind_eq_ok.mp read
    cases read
    intro child member
    exact (of_cellBody gives body).2.2 child ((MatArray.mem_children_cell _ _).mp member)
  | struct =>
    obtain ⟨⟨found, afterBody⟩, body, read⟩ := Reading.result_bind_eq_ok.mp read
    cases read
    exact ofStruct body
  | object =>
    obtain ⟨⟨found, afterBody⟩, body, read⟩ := Reading.result_bind_eq_ok.mp read
    cases read
    obtain ⟨_, _, body⟩ := Reading.result_bind_eq_ok.mp body
    obtain ⟨className, _, body⟩ := Reading.result_bind_eq_ok.mp body
    exact ofStruct body

theorem children_of_matrixBody {nested : Cursor → Reading (Option MatArray)}
    {property : MatArray → Prop} (gives : Gives nested property) {head : MatrixHead}
    {array : MatArray} (read : (cursor.matrixBody nested head).result = .ok (array, rest)) :
    ∀ child ∈ array.children, property child := by
  unfold matrixBody at read
  split at read
  · cases read
  · split at read
    · cases read
    · exact children_of_classBody gives read

/-- The arrays in an array that was read stand in payloads of elements behind its head. -/
theorem exists_payload_of_matrixBody {nested : Cursor → Reading (Option MatArray)}
    {head : MatrixHead} {array : MatArray}
    (read : (cursor.matrixBody nested head).result = .ok (array, rest)) :
    ∀ child ∈ array.children, ∃ payload : Cursor,
      payload.remaining + tagSize ≤ cursor.remaining ∧
      (nested payload).result = .ok (some child) := by
  -- Only short payloads are asked for, so a reader that gives nothing for others does as well.
  let short (payload : Cursor) : Reading (Option MatArray) :=
    if payload.remaining + tagSize ≤ cursor.remaining then nested payload else pure none
  have agree : AgreeWithin cursor.remaining nested short := fun payload fits => (if_pos fits).symm
  rw [matrixBody_congr agree] at read
  refine children_of_matrixBody ?_ read
  intro payload child found
  by_cases fits : payload.remaining + tagSize ≤ cursor.remaining
  · exact ⟨payload, fits, (agree payload fits).symm ▸ found⟩
  · rw [show short payload = pure none from if_neg fits] at found
    cases found

/-- A reader of nested matrices that gives no array deeper than there are bytes for. -/
def GivesShallow (nested : Cursor → Reading (Option MatArray)) : Prop :=
  ∀ (payload : Cursor) (array : MatArray), (nested payload).result = .ok (some array) →
    levelSize * (array.depth - 1) < payload.remaining

theorem depth_of_matrixBody {nested : Cursor → Reading (Option MatArray)}
    (shallow : GivesShallow nested) {payload : Cursor} (more : ¬ payload.atEnd = true)
    {head : MatrixHead} {array : MatArray}
    (headRead : payload.matrixHead.result = .ok (head, cursor))
    (read : (cursor.matrixBody nested head).result = .ok (array, rest)) :
    levelSize * (array.depth - 1) < payload.remaining := by
  have filled : 0 < payload.remaining := Nat.pos_of_ne_zero (mt atEnd_iff.mpr more)
  have below : ∀ child ∈ array.children, child.depth ≤ (payload.remaining - 1) / levelSize := by
    intro child member
    obtain ⟨inner, fits, found⟩ := exists_payload_of_matrixBody read child member
    have shallower := shallow inner child found
    have shorter := add_levelSize_le_of_matrixHead headRead fits
    unfold levelSize at *
    omega
  have depth := MatArray.depth_le_succ below
  unfold levelSize at *
  omega

theorem givesShallow_nestedMatrix (depth : Nat) : GivesShallow (nestedMatrix depth) := by
  induction depth with
  | zero =>
    intro payload array read
    cases read
  | succ depth inductionHypothesis =>
    intro payload array read
    unfold nestedMatrix at read
    split at read
    · cases read
    · rename_i more
      obtain ⟨⟨head, afterHead⟩, headRead, read⟩ := Reading.result_bind_eq_ok.mp read
      obtain ⟨⟨found, afterBody⟩, bodyRead, read⟩ := Reading.result_bind_eq_ok.mp read
      obtain ⟨_, rfl⟩ := MatArray.mem_toSlot.mp (Except.ok.inj read)
      exact depth_of_matrixBody inductionHypothesis more headRead bodyRead

/-- An array that was read is no deeper than its payload has room for levels. -/
theorem givesShallow_matrix (wanted : String → Bool) :
    GivesShallow fun payload => payload.matrix wanted := by
  intro payload array read
  dsimp only at read
  unfold matrix at read
  split at read
  · obtain ⟨_, _, read⟩ := Reading.result_bind_eq_ok.mp read
    cases read
  · rename_i more
    obtain ⟨⟨head, afterHead⟩, headRead, read⟩ := Reading.result_bind_eq_ok.mp read
    dsimp only at read
    split at read
    · obtain ⟨⟨found, afterBody⟩, bodyRead, read⟩ := Reading.result_bind_eq_ok.mp read
      obtain ⟨_, _, read⟩ := Reading.result_bind_eq_ok.mp read
      cases read
      exact depth_of_matrixBody (givesShallow_nestedMatrix _) more headRead bodyRead
    · obtain ⟨_, _, read⟩ := Reading.result_bind_eq_ok.mp read
      cases read

end Cursor

end MatFormat
