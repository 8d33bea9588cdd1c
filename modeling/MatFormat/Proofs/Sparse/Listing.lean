/-
This file says that walking over a sparse matrix and looking values up in it agree with what its
column pointers say. The entries of a matrix are listed column by column, those of a column between
its pointer and the next. A walk gives exactly these entries in this order, and a value that is
looked up is that of the first of them in the row and the column. This holds of every matrix whose
parts fit together, so of every one that is built from its parts or read: rows need not be sorted
or distinct within a column, and columns may be empty.
-/

import MatFormat.Proofs.Checked.Access
import MatFormat.Proofs.Matrix.SparsePadding
import MatFormat.Proofs.Sparse.Sorting
import MatFormat.Proofs.Stream.Yields
import MatFormat.Proofs.Valid
import Mathlib.Data.List.Find

namespace MatFormat

namespace SparseArray

/-- The entries of all columns, in order. -/
def listed (array : SparseArray) : List Entry :=
  (List.range array.info.shape.columns).flatMap array.columnEntries

/-- Walking and looking up agree with the entries that are listed. -/
structure Listed (array : SparseArray) : Prop where
  count : array.listed.length = array.stored
  /-- A walk takes the listed entries. -/
  walk : array.entries.map Prod.fst = array.listed
  /-- Before each entry it tells how many are left. -/
  left : array.entries.map Prod.snd =
    (List.range array.stored).map fun taken => array.stored - taken
  /-- With machine numbers any number of requests is answered by the listed entries and nothing
  more, and no column pointer is looked for behind the last one. -/
  answers : ∀ requests, (Checked.EntryWalk.start array).answers requests =
    .ok ((List.range requests).map fun request =>
      (array.stored - request, array.listed[request]?))
  /-- What is looked up inside is the first listed value, or zero. -/
  real : ∀ row column, array.get? row column =
    if row < array.info.shape.rows ∧ column < array.info.shape.columns then
      some (((array.listed.find? (Entry.isAt (row, column))).map Entry.real).getD 0)
    else none
  imag : ∀ row column, array.getImag? row column =
    if (row < array.info.shape.rows ∧ column < array.info.shape.columns) ∧
        array.isComplex = true then
      some (((array.listed.find? (Entry.isAt (row, column))).bind Entry.imag).getD 0)
    else none
  realFits : ∀ row column, Checked.entryReal array row column = .ok (array.get? row column)
  imagFits : ∀ row column, Checked.entryImag array row column = .ok (array.getImag? row column)

variable {array : SparseArray}

/-! ### What is left -/

/-- Before each entry a walk tells the number of those that it still takes. -/
theorem Walk.Sound.left_entries {rows columns turns : Nat} {walk : Walk}
    (sound : walk.Sound rows columns) (enough : walk.left = turns) :
    (walk.entries turns).map Prod.snd = (List.range turns).map fun taken => turns - taken := by
  induction turns generalizing walk with
  | zero => rfl
  | succ turns inductionHypothesis =>
    have more : walk.rows ≠ [] := List.ne_nil_of_length_eq_add_one enough
    obtain ⟨entry, next, taken, stillSound, left, _⟩ := sound.next more
    rw [Walk.entries, taken]
    dsimp only
    rw [List.map_cons, inductionHypothesis stillSound (Nat.succ.inj (left.symm.trans enough)),
      List.range_succ_eq_map, List.map_cons, List.map_map, enough]
    refine congrArg (List.cons _) (List.map_congr_left fun place _ => ?_)
    rw [Function.comp_apply, Nat.succ_eq_add_one, Nat.add_sub_add_right]

/-! ### The first entry at a position -/

theorem findSome?_eq_of_only {Item Value : Type} {items : List Item} {found : Item → Option Value}
    {item : Item} (member : item ∈ items)
    (only : ∀ other ∈ items, other ≠ item → found other = none) :
    items.findSome? found = found item := by
  induction items with
  | nil => cases member
  | cons first rest inductionHypothesis =>
    rw [List.findSome?_cons]
    by_cases here : first = item
    · subst here
      cases first? : found first with
      | some value => rfl
      | none =>
        refine List.findSome?_eq_none_iff.mpr fun other otherMember => ?_
        by_cases same : other = first
        · rwa [same]
        · exact only other (List.mem_cons_of_mem _ otherMember) same
    · rw [only first List.mem_cons_self here]
      have further := (List.mem_cons.mp member).resolve_left (Ne.symm here)
      exact inductionHypothesis further fun other otherMember =>
        only other (List.mem_cons_of_mem _ otherMember)

/-- The first listed entry at a position is the first one of its column in its row. -/
theorem find?_listed (row : Nat) {column : Nat} (inside : column < array.info.shape.columns) :
    array.listed.find? (Entry.isAt (row, column)) =
      (array.columnEntries column).find? fun entry => entry.row == row := by
  have inColumn {other : Nat} {entry : Entry} (member : entry ∈ array.columnEntries other) :
      entry.column = other := by
    obtain ⟨place, _, rfl⟩ := List.mem_map.mp member
    rfl
  have elsewhere : ∀ other ∈ List.range array.info.shape.columns, other ≠ column →
      (array.columnEntries other).find? (Entry.isAt (row, column)) = none := by
    intro other _ differs
    refine List.find?_eq_none.mpr fun entry member found => differs ?_
    rw [← inColumn member]
    exact (Prod.mk.inj (Entry.isAt_iff.mp found)).2
  rw [listed, List.find?_flatMap, findSome?_eq_of_only (List.mem_range.mpr inside) elsewhere]
  refine List.find?_congr fun entry member => ?_
  rw [Bool.eq_iff_iff, Entry.isAt_iff, Entry.position, Prod.mk.injEq, beq_iff_eq,
    and_iff_left (inColumn member)]

/-! ### Matrices whose parts fit together -/

namespace Shaped

variable (shaped : array.Shaped)
include shaped

theorem ahead_start : (Checked.EntryWalk.start array).ahead = array.listed := by
  have walked := shaped.walk_over.entries shaped shaped.walk rfl
  rw [listed, ← shaped.entries_eq, Checked.EntryWalk.ahead, Checked.EntryWalk.start, List.drop_one]
  exact walked.symm

theorem listed : array.Listed where
  count := by
    rw [SparseArray.listed, ← shaped.entries_eq, List.length_map]
    exact shaped.entries.1
  walk := shaped.entries_eq
  left := shaped.walk.left_entries rfl
  answers requests := by
    rw [(Checked.EntryWalk.sound_start shaped).answers_eq, shaped.ahead_start]
    rfl
  real row column := by
    split
    · rename_i inside
      rw [shaped.get?_eq inside.1 inside.2, find?_listed row inside.2]
    · rename_i outside
      have missing : array.info.shape.index? row column = none := if_neg outside
      rw [get?, missing]
      rfl
  imag row column := by
    by_cases inside : row < array.info.shape.rows ∧ column < array.info.shape.columns
    · rw [shaped.getImag?_eq inside.1 inside.2, find?_listed row inside.2, isComplex]
      cases array.imag with
      | none => exact (if_neg fun both => Bool.false_ne_true both.2).symm
      | some imag => exact (if_pos ⟨inside, rfl⟩).symm
    · have missing : array.info.shape.index? row column = none := if_neg inside
      rw [if_neg fun both => inside both.1, getImag?, missing]
      rfl
  realFits := Checked.entryReal_eq shaped
  imagFits := Checked.entryImag_eq shaped

end Shaped

/-! ### Matrices that were built or read -/

theorem everywhere_listed {tree : MatArray} (sound : tree.Everywhere MatArray.Sound) :
    tree.Everywhere fun node => ∀ array, node = .sparse array → array.Listed :=
  sound.imp fun _ here _ same => Shaped.listed (same ▸ here).shaped

/-- Walking over a sparse matrix and looking values up in it agree with its column pointers if it
was built from its parts, and wherever it is in an array that was read from the payload of a matrix
or yielded by the stream of a file. -/
theorem listed_of_source :
    (∀ (name : String) (rows columns : Nat) (columnPointers rowIndices : List Nat)
      (real : List Double) (imag : Option (List Double)) (array : SparseArray),
      ofColumns name rows columns columnPointers rowIndices real imag = .ok array →
        array.Listed) ∧
    (∀ (wanted : String → Bool) (payload : Cursor) (tree : MatArray),
      (payload.matrix wanted).result = .ok (some tree) →
        tree.Everywhere fun node => ∀ array, node = .sparse array → array.Listed) ∧
    ∀ (inflate : Inflater) (wanted : String → Bool) (bytes : List UInt8) (header : Header)
      (stream : ArrayStream) (schedule : List Bool)
      (results : List (Option (Except Error MatArray))),
      (openStream bytes).result = .ok (header, stream) →
      (ArrayStream.items inflate wanted schedule stream).result = .ok results →
        ∀ tree, some (.ok tree) ∈ results →
          tree.Everywhere fun node => ∀ array, node = .sparse array → array.Listed := by
  refine ⟨fun _ _ _ _ _ _ _ _ built => Shaped.listed (valid_ofColumns built).shaped,
    fun wanted payload tree read =>
      everywhere_listed (Cursor.gives_matrix wanted payload tree read),
    fun inflate wanted bytes header stream schedule results opened yielded tree member => ?_⟩
  exact everywhere_listed (ArrayStream.of_items (Cursor.gives_matrix wanted)
    (allReady_of_openStream opened) yielded tree member)

/-- A matrix with an empty column in front and one between two others, in which a row comes twice
in a column before a smaller one, and a matrix that was read. -/
theorem listed_of_source_unsortedRows :
    ∃ array, ofColumns "s" 3 4 [0, 0, 3, 3, 4] [2, 2, 0, 1] [5, 6, 7, 8] none = .ok array ∧
      array.listed = [⟨2, 1, 5, none⟩, ⟨2, 1, 6, none⟩, ⟨0, 1, 7, none⟩, ⟨1, 3, 8, none⟩] ∧
      (Checked.EntryWalk.start array).answers 2 =
        .ok [(4, some ⟨2, 1, 5, none⟩), (3, some ⟨2, 1, 6, none⟩)] ∧
      array.get? 2 1 = some 5 ∧ array.get? 2 4 = none ∧
      ∃ other : SparseArray, ((roomySparse [0, 0, 0, 0]).matrix fun _ => true).result =
        .ok (some (.sparse other)) ∧ other.Listed := by
  obtain ⟨ofParts, ofPayload, _⟩ := listed_of_source
  obtain ⟨array, built, entries⟩ : ∃ array,
      ofColumns "s" 3 4 [0, 0, 3, 3, 4] [2, 2, 0, 1] [5, 6, 7, 8] none = .ok array ∧
        array.listed = [⟨2, 1, 5, none⟩, ⟨2, 1, 6, none⟩, ⟨0, 1, 7, none⟩, ⟨1, 3, 8, none⟩] :=
    ⟨_, rfl, rfl⟩
  obtain ⟨other, read⟩ : ∃ other : SparseArray,
      ((roomySparse [0, 0, 0, 0]).matrix fun _ => true).result = .ok (some (.sparse other)) :=
    ⟨_, rfl⟩
  have agrees := ofParts _ _ _ _ _ _ _ _ built
  refine ⟨array, built, entries, ?_, ?_, ?_, other, read, (ofPayload _ _ _ read).here other rfl⟩
  · rw [agrees.answers, entries, ← agrees.count, entries]
    rfl
  · rw [agrees.real, entries]
    cases built
    decide
  · rw [agrees.real]
    cases built
    decide

end SparseArray

end MatFormat
