/-
This file looks at the parts of runs. Pieces of one length that lie end to end are cut apart
again, indices below the limit pass the check on them, and a name is spelled with all its
characters but read only up to the first NUL, so it comes back exactly when it has none.
-/

import MatFormat.Run
import MatFormat.Proofs.Element
import MatFormat.Proofs.Text.Utf16
import MatFormat.Proofs.Text.Utf8
import Mathlib.Data.List.TakeWhile

namespace MatFormat

/-! ### Pieces -/

theorem piecesOnto_flatten {Item : Type} (width : Nat) (parts known : List (List Item))
    (whole : ∀ part ∈ parts, part.length = width) :
    piecesOnto width parts.length known parts.flatten = parts.reverse ++ known := by
  induction parts generalizing known with
  | nil => rfl
  | cons part rest inductionHypothesis =>
    have divided : (part ++ rest.flatten).splitAt width = (part, rest.flatten) := by
      rw [← whole part List.mem_cons_self, List.splitAt_eq, List.take_left, List.drop_left]
    rw [List.length_cons, List.flatten_cons, piecesOnto, divided]
    dsimp only
    rw [inductionHypothesis _ fun other member => whole other (List.mem_cons_of_mem _ member),
      List.reverse_cons, List.append_assoc]
    rfl

/-- Parts of one length that lie end to end are cut apart again. -/
theorem pieces_flatMap {Item Value : Type} (width : Nat) (values : List Value)
    (spell : Value → List Item) (whole : ∀ value ∈ values, (spell value).length = width) :
    pieces width values.length (values.flatMap spell) = values.map spell := by
  have parts : ∀ part ∈ values.map spell, part.length = width := by
    intro part member
    obtain ⟨value, valueMember, rfl⟩ := List.mem_map.mp member
    exact whole value valueMember
  have cut := piecesOnto_flatten width (values.map spell) [] parts
  rw [List.length_map, ← List.flatMap_def] at cut
  rw [pieces, cut, List.append_nil, List.reverse_reverse]

theorem piecesOnto_eq {Item : Type} (width count : Nat) (known : List (List Item))
    (items : List Item) :
    piecesOnto width count known items = piecesOnto width count [] items ++ known := by
  induction count generalizing known items with
  | zero => rfl
  | succ count inductionHypothesis =>
    rw [piecesOnto, piecesOnto, List.splitAt_eq]
    dsimp only
    rw [inductionHypothesis, inductionHypothesis [_], List.append_assoc]
    rfl

theorem pieces_succ {Item : Type} (width count : Nat) (items : List Item) :
    pieces width (count + 1) items = items.take width :: pieces width count (items.drop width) := by
  rw [pieces, piecesOnto, List.splitAt_eq]
  dsimp only
  rw [piecesOnto_eq, List.reverse_append, pieces]
  rfl

/-- Every piece that is cut from a run that is long enough has the whole width. -/
theorem length_of_mem_pieces {Item : Type} {width count : Nat} {items piece : List Item}
    (enough : count * width ≤ items.length) (member : piece ∈ pieces width count items) :
    piece.length = width := by
  induction count generalizing items with
  | zero => cases member
  | succ count inductionHypothesis =>
    rw [Nat.succ_mul] at enough
    rw [pieces_succ] at member
    rcases List.mem_cons.mp member with rfl | later
    · rw [List.length_take]
      omega
    · refine inductionHypothesis ?_ later
      rw [List.length_drop]
      omega

theorem length_pieces {Item : Type} (width count : Nat) (items : List Item) :
    (pieces width count items).length = count := by
  induction count generalizing items with
  | zero => rfl
  | succ count inductionHypothesis => rw [pieces_succ, List.length_cons, inductionHypothesis]

/-- A piece of a run is what stands at its place. -/
theorem getElem?_pieces {Item : Type} {width place count : Nat} (inside : place < count)
    (items : List Item) :
    (pieces width count items)[place]? = some ((items.drop (place * width)).take width) := by
  induction count generalizing place items with
  | zero => exact absurd inside (Nat.not_lt_zero _)
  | succ count inductionHypothesis =>
    rw [pieces_succ]
    cases place with
    | zero => rw [List.getElem?_cons_zero, Nat.zero_mul, List.drop_zero]
    | succ place =>
      rw [List.getElem?_cons_succ, inductionHypothesis (Nat.lt_of_succ_lt_succ inside),
        List.drop_drop, Nat.succ_mul, Nat.add_comm width]

/-- The first pieces come from the first items. -/
theorem take_pieces {Item : Type} (width : Nat) {kept count : Nat} (fewer : kept ≤ count)
    (items : List Item) :
    (pieces width count items).take kept = pieces width kept (items.take (kept * width)) := by
  induction kept generalizing count items with
  | zero => rw [List.take_zero]; rfl
  | succ kept inductionHypothesis =>
    obtain ⟨count, rfl⟩ := Nat.exists_eq_succ_of_ne_zero (Nat.ne_of_gt (Nat.zero_lt_of_lt fewer))
    rw [pieces_succ, pieces_succ, List.take_succ_cons, List.take_take, Nat.succ_mul,
      Nat.min_eq_left (Nat.le_add_left width _), List.drop_take, Nat.add_sub_cancel,
      inductionHypothesis (Nat.le_of_succ_le_succ fewer)]

theorem length_flatMap_of_width {Item Value : Type} (width : Nat) (values : List Value)
    (spell : Value → List Item) (whole : ∀ value ∈ values, (spell value).length = width) :
    (values.flatMap spell).length = values.length * width := by
  induction values with
  | nil => exact (Nat.zero_mul width).symm
  | cons value rest inductionHypothesis =>
    rw [List.flatMap_cons, List.length_append, whole value List.mem_cons_self,
      inductionHypothesis fun other member => whole other (List.mem_cons_of_mem _ member),
      List.length_cons, Nat.succ_mul, Nat.add_comm]

/-! ### Values -/

theorem NumericClass.storedClass?_dataType (numericClass : NumericClass) :
    numericClass.dataType.storedClass? = some numericClass := by
  cases numericClass <;> rfl

theorem NumericClass.dataType_ne_compressed (numericClass : NumericClass) :
    numericClass.dataType ≠ .compressed := by
  cases numericClass <;> decide

theorem NumericClass.load_self (numericClass : NumericClass) (order : ByteOrder)
    (value : numericClass.Value) :
    numericClass.load numericClass order (numericClass.write order value) = value := by
  rw [load, if_pos rfl, read_write]

/-- Only the floating point numbers that are widened to another format are changed by it. -/
theorem NumericClass.narrow_widen {numericClass : NumericClass} (kept : numericClass ≠ .single)
    (value : numericClass.Value) : numericClass.narrow (numericClass.widen value) = value := by
  cases numericClass with
  | single => exact absurd rfl kept
  | int8 | int16 | int32 | int64 => exact BitVec.ofInt_toInt
  | double | uint8 | uint16 | uint32 | uint64 =>
    exact (BitVec.ofNat_toNat _ value).trans (BitVec.setWidth_eq value)

theorem Element.checkCount_self (element : Element) (count : Nat) :
    element.checkCount count count = .ok () := by
  rw [checkCount, if_neg (Nat.lt_irrefl _), if_neg (Nat.lt_irrefl _)]

/-! ### Indices -/

theorem checkIndices_ofNat (offset : Nat) (indices : List Nat) :
    checkIndices offset (indices.map Int.ofNat) = .ok indices := by
  induction indices with
  | nil => rfl
  | cons index rest inductionHypothesis =>
    rw [List.map_cons]
    show (checkIndices offset (rest.map Int.ofNat) >>= _) = _
    rw [inductionHypothesis]
    rfl

/-- Numbers pass as indices unless one of them is negative, and the first that is gets reported. -/
theorem checkIndices_eq (offset : Nat) (numbers : List Int) :
    checkIndices offset numbers =
      match numbers.find? fun number => decide (number < 0) with
      | none => .ok (numbers.map Int.toNat)
      | some number => .error (.malformed offset (.negativeIndex number)) := by
  induction numbers with
  | nil => rfl
  | cons number rest inductionHypothesis =>
    cases number with
    | ofNat value =>
      rw [List.find?_cons_of_neg (by simp)]
      show (checkIndices offset rest >>= _) = _
      rw [inductionHypothesis]
      cases rest.find? fun number => decide (number < 0) <;> rfl
    | negSucc value =>
      rw [List.find?_cons_of_pos (by simp)]
      rfl

/-- No number that reaches a limit is found exactly where all numbers stay below it. -/
theorem find?_reaching_eq_none_iff {limit : Nat} {numbers : List Nat} :
    (numbers.find? fun number => decide (limit ≤ number)) = none ↔
      ∀ number ∈ numbers, number < limit := by
  simp only [List.find?_eq_none, decide_eq_true_eq, Nat.not_le]

/-! ### Names -/

/-- Whether a name has no NUL in it. -/
def NulFree (name : String) : Prop := ∀ char ∈ name.toList, char.toNat ≠ 0

instance (name : String) : Decidable (NulFree name) :=
  decidable_of_iff (name.toList.all fun char => char.toNat != 0) (by simp [NulFree])

/-- The part of a name before its first NUL. -/
def cutName (name : String) : String :=
  String.ofList (name.toList.takeWhile fun char => char.toNat != 0)

theorem nulFree_cutName (name : String) : NulFree (cutName name) := by
  intro char member
  rw [cutName, String.toList_ofList] at member
  have nonzero := List.mem_takeWhile_imp member
  rwa [bne_iff_ne] at nonzero

/-- A name is its own part before the first NUL exactly when it has none. -/
theorem cutName_eq_self_iff (name : String) : cutName name = name ↔ NulFree name := by
  constructor
  · intro same
    exact same ▸ nulFree_cutName name
  · intro plain
    have all : ∀ char ∈ name.toList, (char.toNat != 0) = true := by
      intro char member
      rw [bne_iff_ne]
      exact plain char member
    rw [cutName, List.takeWhile_eq_self_iff.mpr all, String.ofList_toList]

theorem map_cutName_eq_self {names : List String} (plain : ∀ name ∈ names, NulFree name) :
    names.map cutName = names := by
  refine (List.map_congr_left fun name member => ?_).trans (List.map_id names)
  exact (cutName_eq_self_iff name).mpr (plain name member)

theorem optionMap_cutName_eq_self_iff (name : Option String) :
    name.map cutName = name ↔ ∀ given ∈ name, NulFree given := by
  cases name with
  | none => exact ⟨fun _ => nofun, fun _ => rfl⟩
  | some given =>
    rw [Option.map_some, Option.some.injEq, cutName_eq_self_iff]
    exact ⟨fun plain other member => Option.some.inj member ▸ plain, fun plain => plain _ rfl⟩

theorem decodeLossy_beforeNul_encode (name : String) :
    Utf8.decodeLossy (Element.beforeNul (Utf8.encode name)) = cutName name := by
  rw [Element.beforeNul, Utf8.encode, Utf8.takeWhile_encodeList, Utf8.decodeLossy_encodeList,
    cutName]

end MatFormat
