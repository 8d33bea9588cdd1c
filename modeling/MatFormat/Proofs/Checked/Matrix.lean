/-
This file proves that matrices are read without a trap and to the arrays that they hold. The
shape of a matrix is tried before its counts are multiplied, a sparse matrix has as many column
pointers as are looked up, and a nested matrix has fewer bytes than the matrix around it, so
the bound on its depth is not used up before its bytes are.
-/

import MatFormat.Proofs.Checked.Slots

namespace MatFormat

namespace Checked

/-! ### The head -/

/-- The shape that a head tells has the counts that are multiplied for it. -/
theorem metadata_of_shape {head : MatrixHead} {shape : Shape}
    (built : Shape.ofDimensions head.dimensions = .ok shape) :
    ∃ known : Metadata, metadata head = .ok known ∧
      known.Describes ⟨head.name, shape, head.flags⟩ := by
  have dimensions := Shape.dimensions_of_ofDimensions built
  have rank := shape.rank_ge_two
  have counts := runningProduct_of_fit shape.counts_fit
  have columns := runningProduct_of_fit shape.columns_fit
  rw [dimensions] at rank counts columns
  rw [Nat.one_mul] at counts columns
  have trailing : slice head.dimensions 1 head.dimensions.length = .ok head.dimensions.tail := by
    rw [slice_of_le (Nat.le_of_succ_le rank) (Nat.le_refl _), List.drop_one,
      ← List.length_tail, List.take_length]
  refine ⟨⟨⟨head.name, shape, head.flags⟩, MatFormat.product head.dimensions,
    MatFormat.product head.dimensions.tail⟩, ?_, ⟨rfl, ?_, ?_⟩⟩
  · rw [metadata, built]
    dsimp only
    rw [Outcome.bind_of_ok trailing, Outcome.bind_of_ok counts, Outcome.bind_of_ok columns]
    rfl
  · rw [Shape.count, dimensions]
  · rw [Shape.columns, dimensions]

theorem Metadata.Describes.rows_ok {metadata : Metadata} {info : ArrayInfo}
    (describes : metadata.Describes info) : metadata.rows = .ok info.shape.rows := by
  have filled := Nat.lt_of_lt_of_le Nat.two_pos info.shape.rank_ge_two
  rw [Metadata.rows, describes.info, item_zero filled 0, Shape.rows]

namespace Sees

variable {limit slotSize : Nat} {window : Window} {cursor : Cursor}

theorem agrees_matrixHead (sees : Sees limit window cursor) :
    Agrees (Follows limit Eq) window.matrixHead cursor.matrixHead.result := by
  refine .step sees.offset_ok ?_
  refine sees.agrees_element.reading fun (part, window) (element, rest) ⟨isPart, sees⟩ => ?_
  refine (isPart.agrees_values .uint32).reading_same fun words => ?_
  match words with
  | [attributes, capacity] =>
    refine .step sees.offset_ok ?_
    refine sees.agrees_indices.reading_follows fun dimensions window rest sees => ?_
    refine .choice Iff.rfl (fun _ => .error _) fun _ => ?_
    refine sees.agrees_element.reading fun (part, window) (element, rest) ⟨isPart, sees⟩ => ?_
    refine isPart.agrees_name.reading_same fun name => ?_
    exact .ok ⟨rfl, sees⟩
  | [] => exact .error _
  | [_] => exact .error _
  | _ :: _ :: _ :: _ => exact .error _

/-! ### Numbers and characters -/

section

variable {metadata : Metadata} {info : ArrayInfo}

theorem agrees_numericBody (sees : Sees limit window cursor)
    (describes : metadata.Describes info) (numericClass : NumericClass) :
    Agrees (Follows limit Eq) (window.numericBody numericClass metadata)
      (cursor.numericBody numericClass info).result := by
  rw [Window.numericBody, describes.info, describes.length]
  refine sees.agrees_element.reading fun (part, window) (element, rest) ⟨isPart, sees⟩ => ?_
  refine (isPart.agrees_exactly numericClass _).reading_same fun real => ?_
  refine .choice Iff.rfl (fun _ => ?_) fun _ => .ok ⟨rfl, sees⟩
  refine sees.agrees_element.reading fun (part, window) (element, rest) ⟨isPart, sees⟩ => ?_
  refine (isPart.agrees_exactly numericClass _).reading_same fun imag => ?_
  exact .ok ⟨rfl, sees⟩

theorem agrees_charBody (sees : Sees limit window cursor) (describes : metadata.Describes info) :
    Agrees (Follows limit Eq) (window.charBody metadata) (cursor.charBody info).result := by
  rw [Window.charBody, describes.info, describes.length]
  refine sees.agrees_element.reading fun (part, window) (element, rest) ⟨isPart, sees⟩ => ?_
  refine (isPart.agrees_codeUnits _).reading_same fun units => ?_
  exact .ok ⟨rfl, sees⟩

end

/-! ### Sparse matrices -/

theorem agrees_sparseValues (sees : Sees limit window cursor) (count : Nat) :
    Agrees (Follows limit Eq) (window.sparseValues count) (cursor.sparseValues count).result := by
  refine sees.agrees_element.reading fun (part, window) (element, rest) ⟨isPart, sees⟩ => ?_
  exact (isPart.agrees_atLeast .double count).reading fun values _ same => .ok ⟨same, sees⟩

end Sees

theorem anyDescends_neighbours (numbers : List Nat) :
    anyDescends (neighbours numbers) = .ok (SparseArray.firstDescent? numbers).isSome := by
  fun_induction SparseArray.firstDescent? numbers with
  | case1 first second rest descends =>
    show (if second < first then pure true else _) = _
    rw [if_pos descends]
    rfl
  | case2 first second rest ascends inductionHypothesis =>
    show (if second < first then _ else anyDescends (neighbours (second :: rest))) = _
    rw [if_neg ascends, inductionHypothesis, Option.isSome_map]
  | case3 numbers short =>
    match numbers with
    | [] => rfl
    | [_] => rfl
    | first :: second :: rest => exact absurd rfl (short first second rest)

theorem disordered_of_pos {columnPointers : List Nat} (filled : 0 < columnPointers.length) :
    disordered columnPointers = .ok (decide (columnPointers.headD 0 ≠ 0 ∨
      (SparseArray.firstDescent? columnPointers).isSome)) := by
  rw [disordered, Outcome.bind_of_ok (item_zero filled 0)]
  by_cases start : columnPointers.headD 0 ≠ 0
  · rw [if_pos start, decide_eq_true (Or.inl start)]
    rfl
  · rw [if_neg start, anyDescends_neighbours]
    refine congrArg Except.ok (Bool.eq_iff_iff.mpr ?_)
    rw [decide_eq_true_iff, or_iff_right start]

namespace Sees

variable {limit slotSize : Nat} {window : Window} {cursor : Cursor} {metadata : Metadata}
  {info : ArrayInfo}

theorem agrees_sparseBody (sees : Sees limit window cursor) (describes : metadata.Describes info)
    (capacity : Nat) :
    Agrees (Follows limit Eq) (window.sparseBody metadata capacity)
      (cursor.sparseBody info capacity).result := by
  rw [Window.sparseBody, describes.info, describes.columns]
  refine .step describes.rows_ok (.step sees.offset_ok ?_)
  refine sees.agrees_indices.reading_follows fun rowIndices window afterRows sees => ?_
  refine .step sees.offset_ok ?_
  refine sees.agrees_indices.reading_follows fun columnPointers window rest sees => ?_
  have counts : (if 1 ≤ columnPointers.length then some (columnPointers.length - 1) else none)
      ≠ some info.shape.columns ↔ columnPointers.length ≠ info.shape.columns + 1 := by
    split
    · rw [ne_eq, Option.some.injEq]
      omega
    · exact ⟨fun _ => by omega, fun _ => nofun⟩
  refine .choice counts (fun _ => .error _) fun length => ?_
  have counted := not_not.mp (mt counts.mpr length)
  refine .step (disordered_of_pos (by omega)) ?_
  refine .choice decide_eq_true_iff (fun _ => .error _) fun _ => ?_
  refine .step (item_last counted 0) ?_
  refine .choice Iff.rfl (fun _ => .error _) fun _ => ?_
  dsimp only
  cases (rowIndices.take (columnPointers.getLastD 0)).find? fun row =>
      decide (info.shape.rows ≤ row) with
  | some row => exact .error _
  | none =>
    dsimp only
    rw [Reading.result_noteIf]
    refine (sees.agrees_sparseValues _).reading_follows fun real window rest sees => ?_
    refine .choice Iff.rfl (fun _ => ?_) fun _ => .ok ⟨rfl, sees⟩
    refine (sees.agrees_sparseValues _).reading_follows fun imag window rest sees => ?_
    exact .ok ⟨rfl, sees⟩

/-! ### Matrices -/

section

variable {nested : Window → Computation (Option MatArray)}
  {other : Cursor → Reading (Option MatArray)}

theorem agrees_classBody (sees : Sees limit window cursor) (short : limit < wordLimit)
    (narrow : slotSize ≤ slotLimit) (inner : NestedAgrees (limit - 1) nested other)
    (describes : metadata.Describes info) (arrayClass : ArrayClass) (capacity : Nat) :
    Agrees (Follows limit Eq) (window.classBody slotSize nested arrayClass metadata capacity)
      (cursor.classBody other arrayClass info capacity).result := by
  cases arrayClass with
  | numeric numericClass =>
    exact (sees.agrees_numericBody describes numericClass).reading_follows fun _ _ _ sees =>
      .ok ⟨rfl, sees⟩
  | char =>
    exact (sees.agrees_charBody describes).reading_follows fun _ _ _ sees => .ok ⟨rfl, sees⟩
  | cell =>
    exact (sees.agrees_cellBody short narrow inner describes).reading_follows fun _ _ _ sees =>
      .ok ⟨rfl, sees⟩
  | struct =>
    exact (sees.agrees_structBody short narrow inner describes none).reading_follows
      fun _ _ _ sees => .ok ⟨rfl, sees⟩
  | object =>
    exact (sees.agrees_objectBody short narrow inner describes).reading_follows fun _ _ _ sees =>
      .ok ⟨rfl, sees⟩
  | sparse =>
    exact (sees.agrees_sparseBody describes capacity).reading_follows fun _ _ _ sees =>
      .ok ⟨rfl, sees⟩

theorem agrees_matrixBody (sees : Sees limit window cursor) (short : limit < wordLimit)
    (narrow : slotSize ≤ slotLimit) (inner : NestedAgrees (limit - 1) nested other)
    (head : MatrixHead) :
    Agrees (fun array read => array = read.1) (window.matrixBody slotSize nested head)
      (cursor.matrixBody other head).result := by
  unfold Window.matrixBody Cursor.matrixBody
  cases ArrayClass.ofCode? head.classCode with
  | none => exact .error _
  | some arrayClass =>
    dsimp only
    cases built : Shape.ofDimensions head.dimensions with
    | error reason =>
      have refused : metadata head =
          fail (.malformed head.offset (.invalidArray head.name reason)) := by
        rw [metadata, built]
      rw [refused]
      exact .error _
    | ok shape =>
      obtain ⟨known, computed, describes⟩ := metadata_of_shape built
      refine .step computed ?_
      dsimp only
      rw [← bind_pure (Reading.result _)]
      refine (sees.agrees_classBody short narrow inner describes _ _).bind_follows
        fun array window rest sees => ?_
      dsimp only
      split
      · exact .ok rfl
      · exact .step sees.remaining_ok (.ok rfl)

end

end Sees

/-- Nested matrices agree wherever the bound on their depth covers their bytes. -/
theorem agrees_nestedMatrix {slotSize : Nat} (narrow : slotSize ≤ slotLimit) (depth : Nat)
    (short : depth < wordLimit) :
    NestedAgrees depth (Window.nestedMatrix slotSize depth) (Cursor.nestedMatrix depth) := by
  induction depth with
  | zero =>
    intro payload cursor sees
    have empty : cursor.remaining = 0 := Nat.le_zero.mp sees.left
    rw [Window.nestedMatrix, sees.atEnd_eq, if_pos (Cursor.atEnd_iff.mpr empty)]
    exact .ok rfl
  | succ depth inductionHypothesis =>
    intro payload cursor sees
    rw [Window.nestedMatrix, sees.atEnd_eq]
    refine .choice Iff.rfl (fun _ => .ok rfl) fun _ => ?_
    refine sees.agrees_matrixHead.reading_follows fun head window rest sees => ?_
    have inner := inductionHypothesis (Nat.lt_of_succ_lt short)
    refine (sees.agrees_matrixBody short narrow inner head).reading fun array read same => ?_
    exact .ok (congrArg MatArray.toSlot same)

/-- A matrix whose payload fits in a word is read without a trap, to the array that it holds. -/
theorem Sees.agrees_matrix {limit slotSize : Nat} {payload : Window} {cursor : Cursor}
    (sees : Sees limit payload cursor) (short : limit < wordLimit)
    (narrow : slotSize ≤ slotLimit) (wanted : String → Bool) :
    Agrees Eq (payload.matrix slotSize wanted) (cursor.matrix wanted).result := by
  rw [Window.matrix, sees.atEnd_eq]
  refine .choice Iff.rfl (fun _ => .step sees.offset_ok (.ok rfl)) fun _ => ?_
  refine sees.agrees_matrixHead.reading_follows fun head window rest sees => ?_
  refine .choice Iff.rfl (fun _ => ?_) fun _ => .ok rfl
  refine .step sees.remaining_ok ?_
  have within : rest.remaining < wordLimit := Nat.lt_of_le_of_lt sees.left short
  have inner : NestedAgrees (rest.remaining - 1) (Window.nestedMatrix slotSize rest.remaining)
      (Cursor.nestedMatrix rest.remaining) := fun payload cursor sees =>
    agrees_nestedMatrix narrow rest.remaining within payload cursor (sees.mono (Nat.sub_le _ _))
  refine (sees.exact.agrees_matrixBody within narrow inner head).reading fun array read same => ?_
  exact .ok (congrArg some same)

end Checked

end MatFormat
