/-
This file proves that dealing undoes collecting. Piles of one height, collected round after
round, come back when as many rounds are dealt to as many piles. What is dealt is in piles of
that height, and every item of a pile is one of the items that were dealt. In each round the item
of a pile lies at the place of the pile.
-/

import MatFormat.Interleave

namespace MatFormat

variable {Item Other : Type}

/-! ### Collecting -/

theorem length_heads {piles : List (List Item)} (filled : ∀ pile ∈ piles, pile ≠ []) :
    (piles.filterMap List.head?).length = piles.length := by
  induction piles with
  | nil => rfl
  | cons pile rest inductionHypothesis =>
    obtain ⟨first, items, rfl⟩ := List.exists_cons_of_ne_nil (filled pile List.mem_cons_self)
    rw [List.filterMap_cons_some List.head?_cons, List.length_cons,
      inductionHypothesis fun other member => filled other (List.mem_cons_of_mem _ member)]
    rfl

theorem zipWith_heads_tails {piles : List (List Item)} (filled : ∀ pile ∈ piles, pile ≠ []) :
    List.zipWith List.cons (piles.filterMap List.head?) (piles.map List.tail) = piles := by
  induction piles with
  | nil => rfl
  | cons pile rest inductionHypothesis =>
    obtain ⟨first, items, rfl⟩ := List.exists_cons_of_ne_nil (filled pile List.mem_cons_self)
    rw [List.filterMap_cons_some List.head?_cons, List.map_cons, List.zipWith_cons_cons,
      inductionHypothesis fun other member => filled other (List.mem_cons_of_mem _ member)]
    rfl

theorem ne_nil_of_length_succ {piles : List (List Item)} {height : Nat}
    (even : ∀ pile ∈ piles, pile.length = height + 1) : ∀ pile ∈ piles, pile ≠ [] := by
  intro pile member
  exact List.ne_nil_of_length_eq_add_one (even pile member)

theorem length_tail_of_mem {piles : List (List Item)} {height : Nat}
    (even : ∀ pile ∈ piles, pile.length = height + 1) :
    ∀ pile ∈ piles.map List.tail, pile.length = height := by
  intro pile member
  obtain ⟨whole, wholeMember, rfl⟩ := List.mem_map.mp member
  rw [List.length_tail, even whole wholeMember, Nat.add_sub_cancel]

theorem length_interleave {rounds : Nat} {piles : List (List Item)}
    (even : ∀ pile ∈ piles, pile.length = rounds) :
    (interleave rounds piles).length = rounds * piles.length := by
  induction rounds generalizing piles with
  | zero => exact (Nat.zero_mul _).symm
  | succ rounds inductionHypothesis =>
    rw [interleave, List.length_append, length_heads (ne_nil_of_length_succ even),
      inductionHypothesis (length_tail_of_mem even), List.length_map, Nat.succ_mul, Nat.add_comm]

theorem getElem?_heads {piles : List (List Item)} (filled : ∀ pile ∈ piles, pile ≠ [])
    (place : Nat) : (piles.filterMap List.head?)[place]? = piles[place]?.bind List.head? := by
  induction piles generalizing place with
  | nil => rfl
  | cons pile rest inductionHypothesis =>
    obtain ⟨first, items, rfl⟩ := List.exists_cons_of_ne_nil (filled pile List.mem_cons_self)
    rw [List.filterMap_cons_some List.head?_cons]
    cases place with
    | zero => rfl
    | succ place =>
      rw [List.getElem?_cons_succ, List.getElem?_cons_succ,
        inductionHypothesis fun other member => filled other (List.mem_cons_of_mem _ member)]

/-- In each round there is the item of every pile, in the order of the piles. -/
theorem getElem?_interleave {rounds : Nat} {piles : List (List Item)}
    (even : ∀ pile ∈ piles, pile.length = rounds) {pile : Nat} (inside : pile < piles.length)
    (round : Nat) :
    (interleave rounds piles)[pile + round * piles.length]? =
      piles[pile]?.bind fun items => items[round]? := by
  induction rounds generalizing piles round with
  | zero =>
    have empty := List.length_eq_zero_iff.mp (even _ (List.getElem_mem inside))
    rw [interleave, List.getElem?_eq_getElem inside, Option.bind_some, empty]
    rfl
  | succ rounds inductionHypothesis =>
    have filled := ne_nil_of_length_succ even
    have heads := length_heads filled
    rw [interleave]
    cases round with
    | zero =>
      rw [Nat.zero_mul, Nat.add_zero, List.getElem?_append_left (heads.symm ▸ inside),
        getElem?_heads filled]
      exact congrArg piles[pile]?.bind (funext fun items => List.head?_eq_getElem?)
    | succ round =>
      have later := inductionHypothesis (length_tail_of_mem even) (by rwa [List.length_map]) round
      rw [List.length_map] at later
      rw [List.getElem?_append_right (by rw [heads, Nat.succ_mul]; omega), heads,
        show pile + (round + 1) * piles.length - piles.length = pile + round * piles.length by
          rw [Nat.succ_mul]; omega, later, List.getElem?_map, Option.bind_map]
      simp only [Function.comp_def, List.getElem?_tail]

theorem interleave_map (change : Item → Other) (rounds : Nat) (piles : List (List Item)) :
    interleave rounds (piles.map (List.map change)) = (interleave rounds piles).map change := by
  induction rounds generalizing piles with
  | zero => rfl
  | succ rounds inductionHypothesis =>
    have heads : (piles.map (List.map change)).filterMap List.head? =
        (piles.filterMap List.head?).map change := by
      rw [List.filterMap_map, List.map_filterMap]
      exact congrArg (List.filterMap · piles) (funext fun pile => List.head?_map)
    have tails : (piles.map (List.map change)).map List.tail =
        (piles.map List.tail).map (List.map change) := by
      rw [List.map_map, List.map_map]
      exact congrArg (List.map · piles) (funext fun pile => List.map_tail.symm)
    rw [interleave, heads, tails, inductionHypothesis, interleave, List.map_append]

theorem mem_of_mem_interleave {rounds : Nat} {piles : List (List Item)} {item : Item}
    (member : item ∈ interleave rounds piles) : ∃ pile ∈ piles, item ∈ pile := by
  induction rounds generalizing piles with
  | zero => exact absurd member List.not_mem_nil
  | succ rounds inductionHypothesis =>
    rcases List.mem_append.mp member with head | later
    · obtain ⟨pile, pileMember, first⟩ := List.mem_filterMap.mp head
      exact ⟨pile, pileMember, List.mem_of_head? first⟩
    · obtain ⟨tail, tailMember, itemMember⟩ := inductionHypothesis later
      obtain ⟨pile, pileMember, rfl⟩ := List.mem_map.mp tailMember
      exact ⟨pile, pileMember, List.mem_of_mem_tail itemMember⟩

theorem perm_flatten_heads_tails {piles : List (List Item)} (filled : ∀ pile ∈ piles, pile ≠ []) :
    piles.flatten.Perm (piles.filterMap List.head? ++ (piles.map List.tail).flatten) := by
  induction piles with
  | nil => exact .nil
  | cons pile rest inductionHypothesis =>
    obtain ⟨first, items, rfl⟩ := List.exists_cons_of_ne_nil (filled pile List.mem_cons_self)
    have later := inductionHypothesis fun other member =>
      filled other (List.mem_cons_of_mem _ member)
    rw [List.filterMap_cons_some List.head?_cons, List.map_cons, List.flatten_cons,
      List.flatten_cons, List.tail_cons, List.cons_append, List.cons_append]
    refine .cons first ((later.append_left items).trans ?_)
    rw [← List.append_assoc, ← List.append_assoc]
    exact List.perm_append_comm.append_right _

/-- Piles of one height are collected as a whole, in another order. -/
theorem perm_interleave {rounds : Nat} {piles : List (List Item)}
    (even : ∀ pile ∈ piles, pile.length = rounds) :
    (interleave rounds piles).Perm piles.flatten := by
  induction rounds generalizing piles with
  | zero =>
    have empty : piles.flatten = [] := List.flatten_eq_nil_iff.mpr fun pile member =>
      List.length_eq_zero_iff.mp (even pile member)
    rw [empty]
    exact .nil
  | succ rounds inductionHypothesis =>
    rw [interleave]
    exact ((inductionHypothesis (length_tail_of_mem even)).append_left _).trans
      (perm_flatten_heads_tails (ne_nil_of_length_succ even)).symm

/-! ### Dealing -/

/-- Piles of one height that are collected and dealt again are the same piles. -/
theorem deal_interleave {rounds : Nat} {piles : List (List Item)}
    (even : ∀ pile ∈ piles, pile.length = rounds) :
    deal piles.length rounds (interleave rounds piles) = piles := by
  induction rounds generalizing piles with
  | zero =>
    refine (List.eq_replicate_of_mem fun pile member => ?_).symm
    exact List.length_eq_zero_iff.mp (even pile member)
  | succ rounds inductionHypothesis =>
    have filled := ne_nil_of_length_succ even
    have dealt := inductionHypothesis (length_tail_of_mem even)
    rw [List.length_map] at dealt
    rw [deal, interleave, ← length_heads filled, List.take_left, List.drop_left,
      length_heads filled, dealt, zipWith_heads_tails filled]

theorem perm_flatten_zipWith_cons {heads : List Item} {tails : List (List Item)}
    (even : heads.length = tails.length) :
    (List.zipWith List.cons heads tails).flatten.Perm (heads ++ tails.flatten) := by
  induction heads generalizing tails with
  | nil =>
    obtain rfl := List.length_eq_zero_iff.mp even.symm
    exact .nil
  | cons head heads inductionHypothesis =>
    cases tails with
    | nil => cases even
    | cons tail tails =>
      rw [List.zipWith_cons_cons, List.flatten_cons, List.cons_append, List.cons_append,
        List.flatten_cons]
      refine .cons head (((inductionHypothesis (Nat.succ.inj even)).append_left tail).trans ?_)
      rw [← List.append_assoc, ← List.append_assoc]
      exact List.perm_append_comm.append_right _

/-- Items that are dealt out are all on the piles, in another order. -/
theorem perm_deal {piles rounds : Nat} {items : List Item}
    (whole : items.length = rounds * piles) : (deal piles rounds items).flatten.Perm items := by
  induction rounds generalizing items with
  | zero =>
    obtain rfl := List.length_eq_zero_iff.mp (whole.trans (Nat.zero_mul piles))
    rw [deal, List.flatten_replicate_nil]
  | succ rounds inductionHypothesis =>
    rw [Nat.succ_mul] at whole
    have others : (items.drop piles).length = rounds * piles := by
      rw [List.length_drop, whole, Nat.add_sub_cancel]
    have even : (items.take piles).length = (deal piles rounds (items.drop piles)).length := by
      rw [length_deal piles rounds _ (Nat.le_of_eq others.symm), List.length_take]
      omega
    rw [deal]
    have dealt := (inductionHypothesis others).append_left (items.take piles)
    rw [List.take_append_drop] at dealt
    exact (perm_flatten_zipWith_cons even).trans dealt

theorem exists_of_mem_zipWith {Joint : Type} {join : Item → Other → Joint} {items : List Item}
    {others : List Other} {joint : Joint} (member : joint ∈ List.zipWith join items others) :
    ∃ item ∈ items, ∃ other ∈ others, joint = join item other := by
  rw [← List.map_uncurry_zip_eq_zipWith] at member
  obtain ⟨⟨item, other⟩, pair, rfl⟩ := List.mem_map.mp member
  obtain ⟨itemMember, otherMember⟩ := List.of_mem_zip pair
  exact ⟨item, itemMember, other, otherMember, rfl⟩

theorem length_of_mem_deal {piles rounds : Nat} {items pile : List Item}
    (member : pile ∈ deal piles rounds items) : pile.length = rounds := by
  induction rounds generalizing items pile with
  | zero => rw [List.eq_of_mem_replicate member, List.length_nil]
  | succ rounds inductionHypothesis =>
    obtain ⟨head, _, tail, tailMember, rfl⟩ := exists_of_mem_zipWith member
    rw [List.length_cons, inductionHypothesis tailMember]

theorem mem_of_mem_deal {piles rounds : Nat} {items pile : List Item} {item : Item}
    (member : pile ∈ deal piles rounds items) (held : item ∈ pile) : item ∈ items := by
  induction rounds generalizing items pile with
  | zero =>
    rw [List.eq_of_mem_replicate member] at held
    exact absurd held List.not_mem_nil
  | succ rounds inductionHypothesis =>
    obtain ⟨head, headMember, tail, tailMember, rfl⟩ := exists_of_mem_zipWith member
    rcases List.mem_cons.mp held with rfl | later
    · exact List.mem_of_mem_take headMember
    · exact List.mem_of_mem_drop (inductionHypothesis tailMember later)

/-- Every item of piles of one height is dealt to one of them again, so it lies between. -/
theorem mem_interleave_of_mem {rounds : Nat} {piles : List (List Item)} {pile : List Item}
    {item : Item} (even : ∀ pile ∈ piles, pile.length = rounds) (member : pile ∈ piles)
    (held : item ∈ pile) : item ∈ interleave rounds piles :=
  mem_of_mem_deal ((deal_interleave even).symm ▸ member) held

end MatFormat
