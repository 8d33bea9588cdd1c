/-
This file deals a run of items out to piles and collects them again, as card players do:
one item to every pile in turn, round after round. Rows become columns that way, and the
fields of a struct array become one run of its elements.
-/

namespace MatFormat

/-- Collect `rounds` rounds, in each the next item of every pile. -/
def interleave {Item : Type} : (rounds : Nat) → (piles : List (List Item)) → List Item
  | 0, _ => []
  | rounds + 1, piles =>
    piles.filterMap List.head? ++ interleave rounds (piles.map List.tail)

/-- Deal out `rounds` rounds to a number of piles. -/
def deal {Item : Type} (piles : Nat) : (rounds : Nat) → (items : List Item) → List (List Item)
  | 0, _ => List.replicate piles []
  | rounds + 1, items =>
    List.zipWith List.cons (items.take piles) (deal piles rounds (items.drop piles))

theorem length_deal {Item : Type} (piles rounds : Nat) (items : List Item)
    (enough : rounds * piles ≤ items.length) : (deal piles rounds items).length = piles := by
  induction rounds generalizing items with
  | zero => simp [deal]
  | succ rounds inductionHypothesis =>
    rw [Nat.succ_mul] at enough
    have rest : rounds * piles ≤ (items.drop piles).length := by
      rw [List.length_drop]
      omega
    simp only [deal, List.length_zipWith, List.length_take, inductionHypothesis _ rest]
    omega

end MatFormat
