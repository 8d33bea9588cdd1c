/-
This file says how much the padding of a sparse matrix matters. The runs of rows and of values
may go on behind the last column pointer. What stands there is cut off before anything is made of
it, in all runs but one way: a run of rows is refused as a whole if any number in it is negative,
also where that number is padding. So a matrix that is read stays the same when its padding is
changed or goes on for longer, exactly as long as no row in the padding is negative. The proof
takes the reader apart into the elements that it reads and what it makes of each, and puts it
together again over the elements of the other payload.
-/

import MatFormat.Proofs.Consumption
import MatFormat.Proofs.Layout.Elements
import MatFormat.Proofs.Matrix.ValueCount

namespace MatFormat

/-! ### Elements that differ in their padding -/

namespace Element

/-- Two elements of one type that hold the same bytes. -/
structure Alike (first second : Element) : Prop where
  type : second.tag.type = first.tag.type
  order : second.payload.order = first.payload.order
  bytes : second.bytes = first.bytes

/-- Two elements of one type that hold the same values up to a number of them. Behind these the
second one holds any values, as many as it likes. -/
structure AlikeUpTo (kept : Nat) (first second : Element) : Prop where
  type : second.tag.type = first.tag.type
  order : second.payload.order = first.payload.order
  bytes : second.bytes.take (kept * first.tag.type.size) =
    first.bytes.take (kept * first.tag.type.size)
  whole : second.bytes.length % first.tag.type.size = 0

variable {element first second : Element} {wanted : NumericClass}

theorem values_eq_ok {values : List wanted.Value} :
    element.values wanted = .ok values ↔
      ∃ stored, element.tag.type.storedClass? = some stored ∧
        element.tag.size % element.tag.type.size = 0 ∧
        values = (pieces element.tag.type.size element.tag.count element.bytes).map
          (wanted.load stored element.payload.order) := by
  unfold Element.values malformed
  dsimp only
  cases element.tag.type.storedClass? with
  | none =>
    constructor
    · nofun
    · rintro ⟨_, missing, _⟩
      cases missing
  | some stored =>
    dsimp only
    by_cases partly : element.tag.size % element.tag.type.size = 0
    · rw [if_neg (not_not.mpr partly)]
      constructor
      · intro read
        exact ⟨stored, rfl, partly, (Except.ok.inj read).symm⟩
      · rintro ⟨_, ⟨⟩, _, rfl⟩
        rfl
    · rw [if_pos partly]
      constructor
      · nofun
      · rintro ⟨_, _, whole, _⟩
        exact absurd whole partly

theorem atLeast_eq_ok {expected : Nat} {values : List wanted.Value} :
    element.atLeast wanted expected = .ok values ↔
      ∃ all, element.values wanted = .ok all ∧ expected ≤ all.length ∧
        values = all.take expected := by
  rw [atLeast, Outcome.bind_eq_ok]
  refine exists_congr fun all => and_congr_right fun _ => ?_
  by_cases short : all.length < expected
  · rw [if_pos short]
    constructor
    · intro read
      cases read
    · rintro ⟨enough, _⟩
      exact absurd enough (Nat.not_le.mpr short)
  · rw [if_neg short]
    constructor
    · intro read
      exact ⟨Nat.le_of_not_lt short, (Outcome.pure_eq_ok.mp read).symm⟩
    · rintro ⟨_, rfl⟩
      rfl

theorem integers_eq_ok {numbers : List Int} :
    element.integers = .ok numbers ↔
      ∃ values, element.values .int64 = .ok values ∧
        numbers = values.map fun value => value.toInt := by
  rw [integers, Outcome.bind_eq_ok]
  refine exists_congr fun values => and_congr_right fun _ => ?_
  rw [Outcome.pure_eq_ok]
  exact eq_comm

section Alike

variable (alike : first.Alike second) (firstWhole : first.Whole) (secondWhole : second.Whole)
include alike firstWhole secondWhole

theorem Alike.values {values : List wanted.Value} (read : first.values wanted = .ok values) :
    second.values wanted = .ok values := by
  have size : second.tag.size = first.tag.size :=
    secondWhole.trans ((congrArg List.length alike.bytes).trans firstWhole.symm)
  rw [values_eq_ok, alike.type, alike.order, alike.bytes, Tag.count, size, alike.type]
  exact values_eq_ok.mp read

theorem Alike.integers {numbers : List Int} (read : first.integers = .ok numbers) :
    second.integers = .ok numbers := by
  obtain ⟨values, valuesRead, rfl⟩ := integers_eq_ok.mp read
  exact integers_eq_ok.mpr ⟨values, alike.values firstWhole secondWhole valuesRead, rfl⟩

theorem Alike.name {name : String} (read : first.name = .ok name) : second.name = .ok name := by
  unfold Element.name at read ⊢
  rw [alike.type, alike.bytes]
  split at read
  · exact read
  · exact read
  · exact read
  · obtain ⟨units, unitsRead, read⟩ := Outcome.bind_eq_ok.mp read
    rw [Outcome.bind_of_ok (alike.values firstWhole secondWhole unitsRead)]
    exact read

end Alike

/-- Elements that are alike up to a number of values give these values alike. -/
theorem AlikeUpTo.values {kept : Nat} (alike : first.AlikeUpTo kept second)
    (firstWhole : first.Whole) (secondWhole : second.Whole) {values : List wanted.Value}
    (read : first.values wanted = .ok values) (enough : kept ≤ values.length) :
    ∃ others, second.values wanted = .ok others ∧ kept ≤ others.length ∧
      others.take kept = values.take kept := by
  obtain ⟨stored, storage, whole, rfl⟩ := values_eq_ok.mp read
  have width := DataType.size_of_storedClass? storage
  have positive : 0 < first.tag.type.size := width ▸ stored.size_pos
  have otherSize : second.tag.size = second.bytes.length := secondWhole
  have size : first.tag.size = first.bytes.length := firstWhole
  rw [List.length_map, length_pieces, Tag.count, Nat.le_div_iff_mul_le positive, size] at enough
  have otherEnough : kept * first.tag.type.size ≤ second.bytes.length := by
    have lengths := congrArg List.length alike.bytes
    rw [List.length_take, List.length_take, Nat.min_eq_left enough] at lengths
    omega
  refine ⟨_, values_eq_ok.mpr ⟨stored, alike.type ▸ storage, ?_, rfl⟩, ?_, ?_⟩
  · rw [otherSize, alike.type]
    exact alike.whole
  · rw [List.length_map, length_pieces, Tag.count, alike.type, otherSize,
      Nat.le_div_iff_mul_le positive]
    exact otherEnough
  · rw [← List.map_take, ← List.map_take, alike.type, alike.order, Tag.count, Tag.count, alike.type,
      take_pieces, take_pieces, alike.bytes]
    · rwa [Nat.le_div_iff_mul_le positive, size]
    · rwa [Nat.le_div_iff_mul_le positive, otherSize]

theorem AlikeUpTo.integers {kept : Nat} (alike : first.AlikeUpTo kept second)
    (firstWhole : first.Whole) (secondWhole : second.Whole) {numbers : List Int}
    (read : first.integers = .ok numbers) (enough : kept ≤ numbers.length) :
    ∃ others, second.integers = .ok others ∧ kept ≤ others.length ∧
      others.take kept = numbers.take kept := by
  obtain ⟨values, valuesRead, rfl⟩ := integers_eq_ok.mp read
  rw [List.length_map] at enough
  obtain ⟨others, othersRead, othersEnough, same⟩ :=
    alike.values firstWhole secondWhole valuesRead enough
  refine ⟨_, integers_eq_ok.mpr ⟨others, othersRead, rfl⟩, ?_, ?_⟩
  · rwa [List.length_map]
  · rw [← List.map_take, ← List.map_take, same]

theorem AlikeUpTo.atLeast {kept : Nat} (alike : first.AlikeUpTo kept second)
    (firstWhole : first.Whole) (secondWhole : second.Whole) {values : List wanted.Value}
    (read : first.atLeast wanted kept = .ok values) : second.atLeast wanted kept = .ok values := by
  obtain ⟨all, allRead, enough, rfl⟩ := atLeast_eq_ok.mp read
  obtain ⟨others, othersRead, othersEnough, same⟩ :=
    alike.values firstWhole secondWhole allRead enough
  exact atLeast_eq_ok.mpr ⟨others, othersRead, othersEnough, same.symm⟩

/-- So they do where there may be no such elements. -/
theorem AlikeUpTo.atLeast_of_rel {kept : Nat} {held others : Option Element}
    {values : Option (List wanted.Value)} (alike : Option.Rel (AlikeUpTo kept) held others)
    (heldWhole : ∀ element ∈ held, element.Whole) (othersWhole : ∀ element ∈ others, element.Whole)
    (read : Option.Rel (fun element values => element.atLeast wanted kept = .ok values)
      held values) :
    Option.Rel (fun element values => element.atLeast wanted kept = .ok values) others values := by
  cases alike with
  | none => exact read
  | some alike =>
    cases read with
    | some read => exact .some (alike.atLeast (heldWhole _ rfl) (othersWhole _ rfl) read)

/-- The indices that an element holds. -/
def indices (element : Element) : Except Error (List Nat) := do
  let numbers ← element.integers
  checkIndices element.offset numbers

/-- Indices are the numbers of an element of which none is negative. -/
theorem indices_eq_ok {indices : List Nat} :
    element.indices = .ok indices ↔
      ∃ numbers, element.integers = .ok numbers ∧
        (numbers.find? fun number => decide (number < 0)) = none ∧
        indices = numbers.map Int.toNat := by
  rw [Element.indices, Outcome.bind_eq_ok]
  refine exists_congr fun numbers => and_congr_right fun _ => ?_
  rw [checkIndices_eq]
  cases numbers.find? fun number => decide (number < 0) with
  | none =>
    constructor
    · intro checked
      exact ⟨rfl, (Except.ok.inj checked).symm⟩
    · rintro ⟨_, rfl⟩
      rfl
  | some number => exact ⟨nofun, fun found => absurd found.1 (Option.some_ne_none number)⟩

theorem Alike.indices (alike : first.Alike second) (firstWhole : first.Whole)
    (secondWhole : second.Whole) {indices : List Nat} (read : first.indices = .ok indices) :
    second.indices = .ok indices := by
  obtain ⟨numbers, numbersRead, checked⟩ := indices_eq_ok.mp read
  exact indices_eq_ok.mpr ⟨numbers, alike.integers firstWhole secondWhole numbersRead, checked⟩

end Element

/-! ### Readers by their elements -/

/-- Some elements stand one after the other in front of a cursor. -/
def Cursor.Reads (cursor : Cursor) (elements : List Element) (rest : Cursor) : Prop :=
  (cursor.elements elements.length).result = .ok (elements, rest)

/-- What a head is made of. -/
structure MatrixHead.SpelledBy (head : MatrixHead) (flags dimensions name : Element) : Prop where
  words : ∃ attributes capacity, flags.values .uint32 = .ok [attributes, capacity] ∧
    head.classCode = attributes.toNat % 256 ∧ head.flags = Flags.ofWord attributes.toNat ∧
    head.capacity = capacity.toNat
  dimensions : dimensions.indices = .ok head.dimensions
  rank : 2 ≤ head.dimensions.length
  name : name.name = .ok head.name

/-- What a sparse matrix is made of behind its head. -/
structure SparseArray.SpelledBy (array : SparseArray) (rows pointers real : Element)
    (imag : Option Element) : Prop where
  shaped : array.Shaped
  complex : array.info.flags.complex = array.isComplex
  rows : ∃ indices, rows.indices = .ok indices ∧ array.stored ≤ indices.length ∧
    array.rowIndices = indices.take array.stored
  pointers : pointers.indices = .ok array.columnPointers
  real : real.atLeast .double array.stored = .ok array.real
  imag : Option.Rel (fun element values => element.atLeast .double array.stored = .ok values)
    imag array.imag

theorem SparseArray.SpelledBy.isSome_imag {array : SparseArray} {rows pointers real : Element}
    {imag : Option Element} (spelled : array.SpelledBy rows pointers real imag) :
    imag.isSome = array.isComplex := by
  have held := spelled.imag
  unfold SparseArray.isComplex
  generalize array.imag = values at held ⊢
  cases held <;> rfl

namespace Cursor

variable {cursor rest : Cursor}

theorem reads_nil : cursor.Reads [] rest ↔ cursor = rest := by
  constructor
  · rintro ⟨⟩
    rfl
  · rintro rfl
    rfl

theorem reads_cons {element : Element} {elements : List Element} :
    cursor.Reads (element :: elements) rest ↔
      ∃ next, cursor.element.result = .ok (element, next) ∧ next.Reads elements rest := by
  rw [Reads, List.length_cons, Cursor.elements]
  constructor
  · intro read
    split at read
    · cases read
    · obtain ⟨⟨first, next⟩, firstRead, read⟩ := Reading.result_bind_eq_ok.mp read
      obtain ⟨⟨others, last⟩, othersRead, read⟩ := Reading.result_bind_eq_ok.mp read
      cases read
      exact ⟨next, firstRead, othersRead⟩
  · rintro ⟨next, firstRead, othersRead⟩
    have more : ¬ cursor.atEnd = true := by
      rw [atEnd_iff]
      exact Nat.ne_of_gt (Nat.zero_lt_of_lt (remaining_of_element firstRead))
    rw [if_neg more, Reading.result_bind_of_ok firstRead]
    dsimp only
    rw [Reading.result_bind_of_ok othersRead]
    rfl

theorem reads_append {front back : List Element} :
    cursor.Reads (front ++ back) rest ↔ ∃ next, cursor.Reads front next ∧ next.Reads back rest := by
  induction front generalizing cursor with
  | nil =>
    simp only [List.nil_append, reads_nil, exists_eq_left']
  | cons element front inductionHypothesis =>
    simp only [List.cons_append, reads_cons, inductionHypothesis]
    constructor
    · rintro ⟨afterFirst, firstRead, next, frontRead, backRead⟩
      exact ⟨next, ⟨afterFirst, firstRead, frontRead⟩, backRead⟩
    · rintro ⟨next, ⟨afterFirst, firstRead, frontRead⟩, backRead⟩
      exact ⟨afterFirst, firstRead, next, frontRead, backRead⟩

theorem result_indices (cursor : Cursor) :
    cursor.indices.result = (do
      let (element, rest) ← cursor.element.result
      let indices ← element.indices
      pure (indices, rest)) := by
  rw [indices, Reading.result_bind]
  refine congrArg (cursor.element.result >>= ·) (funext fun read => ?_)
  obtain ⟨element, rest⟩ := read
  dsimp only [Element.indices]
  rw [Reading.result_bind]
  cases integers : element.integers with
  | error error => rfl
  | ok numbers => exact Reading.result_bind (liftM (checkIndices element.offset numbers)) _

theorem indices_eq_ok {indices : List Nat} :
    cursor.indices.result = .ok (indices, rest) ↔
      ∃ element, cursor.element.result = .ok (element, rest) ∧ element.indices = .ok indices := by
  rw [result_indices, Outcome.bind_eq_ok]
  constructor
  · rintro ⟨⟨element, next⟩, elementRead, read⟩
    obtain ⟨found, indicesRead, read⟩ := Outcome.bind_eq_ok.mp read
    cases read
    exact ⟨element, elementRead, indicesRead⟩
  · rintro ⟨element, elementRead, indicesRead⟩
    refine ⟨(element, rest), elementRead, ?_⟩
    dsimp only
    rw [indicesRead]
    rfl

theorem sparseValues_eq_ok {count : Nat} {values : List Double} :
    (cursor.sparseValues count).result = .ok (values, rest) ↔
      ∃ element, cursor.element.result = .ok (element, rest) ∧
        element.atLeast .double count = .ok values := by
  rw [sparseValues, Reading.result_bind_eq_ok]
  constructor
  · rintro ⟨⟨element, next⟩, elementRead, read⟩
    obtain ⟨found, valuesRead, read⟩ := Reading.result_bind_eq_ok.mp read
    cases read
    exact ⟨element, elementRead, valuesRead⟩
  · rintro ⟨element, elementRead, valuesRead⟩
    refine ⟨(element, rest), elementRead, ?_⟩
    dsimp only
    rw [Reading.result_lift_bind_of_ok valuesRead]
    rfl

/-- A head is read from three elements. -/
theorem matrixHead_eq_ok {head : MatrixHead} :
    cursor.matrixHead.result = .ok (head, rest) ↔
      ∃ flags dimensions name, cursor.Reads [flags, dimensions, name] rest ∧
        head.SpelledBy flags dimensions name ∧ head.offset = cursor.offset := by
  constructor
  · intro read
    obtain ⟨⟨flags, afterFlags⟩, flagsRead, read⟩ := Reading.result_bind_eq_ok.mp read
    obtain ⟨words, wordsRead, read⟩ := Reading.result_bind_eq_ok.mp read
    dsimp only at read
    split at read
    · rename_i attributes capacity
      obtain ⟨_, ⟨⟩, read⟩ := Reading.result_bind_eq_ok.mp read
      obtain ⟨⟨found, afterDimensions⟩, dimensionsRead, read⟩ :=
        Reading.result_bind_eq_ok.mp read
      obtain ⟨rank, read⟩ := Reading.result_refusal_eq_ok.mp read
      obtain ⟨⟨name, afterName⟩, nameRead, read⟩ := Reading.result_bind_eq_ok.mp read
      obtain ⟨spelled, named, read⟩ := Reading.result_bind_eq_ok.mp read
      cases read
      obtain ⟨dimensions, dimensionsRead, indices⟩ := indices_eq_ok.mp dimensionsRead
      exact ⟨flags, dimensions, name,
        reads_cons.mpr ⟨_, flagsRead, reads_cons.mpr ⟨_, dimensionsRead,
          reads_cons.mpr ⟨_, nameRead, reads_nil.mpr rfl⟩⟩⟩,
        ⟨⟨attributes, capacity, wordsRead, rfl, rfl, rfl⟩, indices, Nat.le_of_not_lt rank, named⟩,
        rfl⟩
    · cases read
  · rintro ⟨flags, dimensions, name, reads, spelled, offset⟩
    obtain ⟨afterFlags, flagsRead, reads⟩ := reads_cons.mp reads
    obtain ⟨afterDimensions, dimensionsRead, reads⟩ := reads_cons.mp reads
    obtain ⟨afterName, nameRead, reads⟩ := reads_cons.mp reads
    obtain rfl := reads_nil.mp reads
    obtain ⟨⟨attributes, capacity, words, classCode, headFlags, headCapacity⟩, indices, rank,
      named⟩ := spelled
    rw [matrixHead, Reading.result_bind_of_ok flagsRead]
    dsimp only
    rw [Reading.result_lift_bind_of_ok words]
    dsimp only
    rw [Reading.result_bind_of_ok rfl]
    dsimp only
    rw [Reading.result_bind_of_ok (indices_eq_ok.mpr ⟨dimensions, dimensionsRead, indices⟩)]
    dsimp only
    rw [if_neg (Nat.not_lt.mpr rank), Reading.result_bind_of_ok nameRead]
    dsimp only
    rw [Reading.result_lift_bind_of_ok named, Reading.result_pure, ← classCode, ← headFlags,
      ← headCapacity, ← offset]

theorem sparseBody_of_spelled {array : SparseArray} {rows pointers real : Element}
    {imag : Option Element} (reads : cursor.Reads (rows :: pointers :: real :: imag.toList) rest)
    (spelled : array.SpelledBy rows pointers real imag) :
    (cursor.sparseBody array.info array.capacity).result = .ok (array, rest) := by
  obtain ⟨afterRows, rowsRead, reads⟩ := reads_cons.mp reads
  obtain ⟨afterPointers, pointersRead, reads⟩ := reads_cons.mp reads
  obtain ⟨afterReal, realRead, reads⟩ := reads_cons.mp reads
  obtain ⟨shaped, complex, ⟨indices, rowsHeld, enough, cut⟩, pointersHeld, realHeld, imagHeld⟩ :=
    spelled
  have inside := find?_reaching_eq_none_iff.mpr shaped.rows
  have stop : array.columnPointers.getLastD 0 = array.stored := shaped.stop
  rw [sparseBody]
  dsimp only
  rw [Reading.result_bind_of_ok (indices_eq_ok.mpr ⟨rows, rowsRead, rowsHeld⟩)]
  dsimp only
  rw [Reading.result_bind_of_ok (indices_eq_ok.mpr ⟨pointers, pointersRead, pointersHeld⟩)]
  dsimp only
  rw [if_neg (not_not.mpr shaped.pointers), if_neg shaped.noDescent, stop,
    if_neg (Nat.not_lt.mpr enough), ← cut, inside]
  dsimp only
  rw [Reading.result_noteIf,
    Reading.result_bind_of_ok (sparseValues_eq_ok.mpr ⟨real, realRead, realHeld⟩)]
  dsimp only
  rw [complex]
  obtain ⟨info, capacity, columnPointers, rowIndices, realValues, imagValues⟩ := array
  dsimp only at imagHeld ⊢
  cases imagHeld with
  | none =>
    obtain rfl := reads_nil.mp reads
    rfl
  | @some element values held =>
    obtain ⟨afterImag, imagRead, reads⟩ := reads_cons.mp reads
    obtain rfl := reads_nil.mp reads
    rw [SparseArray.isComplex, Option.isSome_some, if_pos rfl,
      Reading.result_bind_of_ok (sparseValues_eq_ok.mpr ⟨element, imagRead, held⟩)]
    rfl

theorem spelled_of_sparseBody {info : ArrayInfo} {capacity : Nat} {array : SparseArray}
    (read : (cursor.sparseBody info capacity).result = .ok (array, rest)) :
    array.info = info ∧ array.capacity = capacity ∧ ∃ rows pointers real imag,
      cursor.Reads (rows :: pointers :: real :: imag.toList) rest ∧
      array.SpelledBy rows pointers real imag := by
  obtain ⟨⟨rfl, rfl⟩, ⟨shaped, complex⟩, rowIndices, afterRows, afterPointers, afterReal,
    ⟨rowsRead, enough, cut⟩, pointersRead, realRead, imagRead⟩ := parts_of_sparseBody read
  obtain ⟨rows, rowsRead, rowsHeld⟩ := indices_eq_ok.mp rowsRead
  obtain ⟨pointers, pointersRead, pointersHeld⟩ := indices_eq_ok.mp pointersRead
  obtain ⟨real, realRead, realHeld⟩ := sparseValues_eq_ok.mp realRead
  have chain {elements : List Element} (reads : afterReal.Reads elements rest) :
      cursor.Reads (rows :: pointers :: real :: elements) rest :=
    reads_cons.mpr ⟨_, rowsRead, reads_cons.mpr ⟨_, pointersRead,
      reads_cons.mpr ⟨_, realRead, reads⟩⟩⟩
  rcases imagRead with ⟨plain, rfl⟩ | ⟨values, held, imagRead⟩
  · exact ⟨rfl, rfl, rows, pointers, real, none, chain (reads_nil.mpr rfl), shaped, complex,
      ⟨rowIndices, rowsHeld, enough, cut⟩, pointersHeld, realHeld, plain ▸ .none⟩
  · obtain ⟨imag, imagRead, imagHeld⟩ := sparseValues_eq_ok.mp imagRead
    exact ⟨rfl, rfl, rows, pointers, real, some imag,
      chain (reads_cons.mpr ⟨_, imagRead, reads_nil.mpr rfl⟩), shaped, complex,
      ⟨rowIndices, rowsHeld, enough, cut⟩, pointersHeld, realHeld, held ▸ .some imagHeld⟩

/-! ### Whole payloads -/

theorem result_matrix_of_sparse {payload : Cursor} {wanted : String → Bool} {head : MatrixHead}
    {shape : Shape} (headRead : payload.matrixHead.result = .ok (head, cursor))
    (isWanted : wanted head.name = true)
    (isSparse : ArrayClass.ofCode? head.classCode = some .sparse)
    (shaped : Shape.ofDimensions head.dimensions = .ok shape) :
    (payload.matrix wanted).result =
      (cursor.sparseBody ⟨head.name, shape, head.flags⟩ head.capacity).result >>= fun read =>
        .ok (some (.sparse read.1)) := by
  have more : ¬ payload.atEnd = true := by
    obtain ⟨flags, dimensions, name, reads, _⟩ := matrixHead_eq_ok.mp headRead
    obtain ⟨afterFlags, flagsRead, _⟩ := reads_cons.mp reads
    rw [atEnd_iff]
    exact Nat.ne_of_gt (Nat.zero_lt_of_lt (remaining_of_element flagsRead))
  rw [matrix, if_neg more, Reading.result_bind_of_ok headRead]
  dsimp only
  rw [if_pos isWanted, matrixBody, isSparse, shaped]
  dsimp only [classBody]
  rw [Reading.result_bind, Reading.result_bind]
  cases (cursor.sparseBody ⟨head.name, shape, head.flags⟩ head.capacity).result <;> rfl

theorem sparse_of_matrix {payload : Cursor} {wanted : String → Bool} {array : SparseArray}
    (read : (payload.matrix wanted).result = .ok (some (.sparse array))) :
    ∃ head afterHead shape rest, payload.matrixHead.result = .ok (head, afterHead) ∧
      wanted head.name = true ∧ ArrayClass.ofCode? head.classCode = some .sparse ∧
      Shape.ofDimensions head.dimensions = .ok shape ∧
      (afterHead.sparseBody ⟨head.name, shape, head.flags⟩ head.capacity).result =
        .ok (array, rest) := by
  unfold matrix at read
  split at read
  · obtain ⟨_, _, read⟩ := Reading.result_bind_eq_ok.mp read
    cases read
  · obtain ⟨⟨head, afterHead⟩, headRead, read⟩ := Reading.result_bind_eq_ok.mp read
    dsimp only at read
    split at read
    · rename_i isWanted
      obtain ⟨⟨found, rest⟩, body, read⟩ := Reading.result_bind_eq_ok.mp read
      obtain ⟨_, _, read⟩ := Reading.result_bind_eq_ok.mp read
      cases read
      unfold matrixBody at body
      split at body
      · cases body
      · rename_i arrayClass isClass
        split at body
        · cases body
        · rename_i shape shaped
          cases arrayClass with
          | sparse =>
            obtain ⟨⟨sparse, last⟩, sparseRead, body⟩ := Reading.result_bind_eq_ok.mp body
            cases body
            exact ⟨head, afterHead, shape, rest, headRead, isWanted, isClass, shaped, sparseRead⟩
          | numeric | char | cell | struct | object =>
            obtain ⟨_, _, body⟩ := Reading.result_bind_eq_ok.mp body
            cases body
    · obtain ⟨_, _, read⟩ := Reading.result_bind_eq_ok.mp read
      cases read

theorem whole_of_reads {elements : List Element} (reads : cursor.Reads elements rest) :
    ∀ element ∈ elements, element.Whole := by
  induction elements generalizing cursor with
  | nil => nofun
  | cons first others inductionHypothesis =>
    obtain ⟨next, firstRead, othersRead⟩ := reads_cons.mp reads
    intro element member
    rcases List.mem_cons.mp member with rfl | later
    · exact (takes_of_element firstRead).whole
    · exact inductionHypothesis othersRead element later

end Cursor

/-! ### Padding -/

/-- The elements that the payload of a sparse matrix starts with. -/
structure SparseElements where
  flags : Element
  dimensions : Element
  name : Element
  rows : Element
  pointers : Element
  real : Element
  imag : Option Element

namespace SparseElements

/-- The elements in the order in which they are read. -/
def list (elements : SparseElements) : List Element :=
  [elements.flags, elements.dimensions, elements.name] ++
    elements.rows :: elements.pointers :: elements.real :: elements.imag.toList

/-- The elements of two sparse matrices that differ only behind a number of entries: in the rows
and in the values of as many more entries as there may be. -/
structure AlikeUpTo (kept : Nat) (first second : SparseElements) : Prop where
  flags : first.flags.Alike second.flags
  dimensions : first.dimensions.Alike second.dimensions
  name : first.name.Alike second.name
  rows : first.rows.AlikeUpTo kept second.rows
  pointers : first.pointers.Alike second.pointers
  real : first.real.AlikeUpTo kept second.real
  imag : Option.Rel (Element.AlikeUpTo kept) first.imag second.imag

/-- The tags of all elements tell the sizes of their payloads. -/
structure Whole (elements : SparseElements) : Prop where
  flags : elements.flags.Whole
  dimensions : elements.dimensions.Whole
  name : elements.name.Whole
  rows : elements.rows.Whole
  pointers : elements.pointers.Whole
  real : elements.real.Whole
  imag : ∀ element ∈ elements.imag, element.Whole

theorem whole_of_reads {cursor rest : Cursor} {elements : SparseElements}
    (reads : cursor.Reads elements.list rest) : elements.Whole := by
  have whole := Cursor.whole_of_reads reads
  simp only [list, List.cons_append, List.nil_append, List.forall_mem_cons,
    Option.mem_toList] at whole
  obtain ⟨flags, dimensions, name, rows, pointers, real, imag⟩ := whole
  exact ⟨flags, dimensions, name, rows, pointers, real, imag⟩

end SparseElements

variable {first second : SparseElements} {kept : Nat}

theorem MatrixHead.SpelledBy.alike {head : MatrixHead}
    (spelled : head.SpelledBy first.flags first.dimensions first.name)
    (alike : first.AlikeUpTo kept second) (firstWhole : first.Whole) (secondWhole : second.Whole)
    (offset : Nat) :
    { head with offset }.SpelledBy second.flags second.dimensions second.name := by
  obtain ⟨⟨attributes, capacity, words, parts⟩, indices, rank, named⟩ := spelled
  exact ⟨⟨attributes, capacity, alike.flags.values firstWhole.flags secondWhole.flags words, parts⟩,
    alike.dimensions.indices firstWhole.dimensions secondWhole.dimensions indices, rank,
    alike.name.name firstWhole.name secondWhole.name named⟩

/-- What is found behind a front in which nothing is found is found first. -/
theorem find?_of_same_take {Item : Type} {found : Item → Bool} {first second : List Item}
    {kept : Nat} (same : second.take kept = first.take kept) (none : first.find? found = none) :
    second.find? found = (second.drop kept).find? found := by
  have front : (second.take kept).find? found = Option.none := by
    rw [same]
    rw [List.find?_eq_none] at none ⊢
    exact fun item member => none item (List.mem_of_mem_take member)
  conv_lhs => rw [← List.take_append_drop kept second]
  rw [List.find?_append, front, Option.none_or]

/-- Behind the head, padding matters only where a number in the run of rows is negative. -/
theorem Cursor.sparseBody_of_alike {cursor rest : Cursor} {array : SparseArray}
    (spelled : array.SpelledBy first.rows first.pointers first.real first.imag)
    (alike : first.AlikeUpTo array.stored second) (firstWhole : first.Whole)
    (secondWhole : second.Whole)
    (reads : cursor.Reads
      (second.rows :: second.pointers :: second.real :: second.imag.toList) rest) :
    ∃ numbers, second.rows.integers = .ok numbers ∧
      (cursor.sparseBody array.info array.capacity).result =
        match (numbers.drop array.stored).find? fun number => decide (number < 0) with
        | none => .ok (array, rest)
        | some number => .error (.malformed second.rows.offset (.negativeIndex number)) := by
  obtain ⟨indices, rowsHeld, enough, cut⟩ := spelled.rows
  obtain ⟨numbers, numbersRead, natural, rfl⟩ := Element.indices_eq_ok.mp rowsHeld
  rw [List.length_map] at enough
  obtain ⟨others, othersRead, othersEnough, same⟩ :=
    alike.rows.integers firstWhole.rows secondWhole.rows numbersRead enough
  refine ⟨others, othersRead, ?_⟩
  have held : second.rows.indices = checkIndices second.rows.offset others :=
    Outcome.bind_of_ok othersRead _
  rw [checkIndices_eq, find?_of_same_take same natural] at held
  cases padding : (others.drop array.stored).find? fun number => decide (number < 0) with
  | none =>
    rw [padding] at held
    refine sparseBody_of_spelled reads ⟨spelled.shaped, spelled.complex, ⟨_, held, ?_, ?_⟩,
      alike.pointers.indices firstWhole.pointers secondWhole.pointers spelled.pointers,
      alike.real.atLeast firstWhole.real secondWhole.real spelled.real,
      Element.AlikeUpTo.atLeast_of_rel alike.imag firstWhole.imag secondWhole.imag spelled.imag⟩
    · rwa [List.length_map]
    · rw [cut, ← List.map_take, ← List.map_take, same]
  | some number =>
    rw [padding] at held
    obtain ⟨afterRows, rowsRead, _⟩ := reads_cons.mp reads
    have failed : cursor.indices.result =
        .error (.malformed second.rows.offset (.negativeIndex number)) := by
      rw [result_indices, Outcome.bind_of_ok rowsRead]
      dsimp only
      rw [held]
      rfl
    rw [sparseBody]
    dsimp only
    rw [Reading.result_bind, failed]
    rfl

/-- A sparse matrix that was read stays the same when its padding is changed, unless a number in
the padding of its rows is negative. The run of rows is refused for the first such number. -/
theorem matrix_of_sparsePadding {payload : Cursor} {wanted : String → Bool} {array : SparseArray}
    (read : (payload.matrix wanted).result = .ok (some (.sparse array))) :
    ∃ elements : SparseElements, (∃ rest, payload.Reads elements.list rest) ∧
      elements.imag.isSome = array.isComplex ∧
      ∀ (other : Cursor) (others : SparseElements), (∃ rest, other.Reads others.list rest) →
        elements.AlikeUpTo array.stored others →
        ∃ numbers, others.rows.integers = .ok numbers ∧
          (other.matrix wanted).result =
            match (numbers.drop array.stored).find? fun number => decide (number < 0) with
            | none => .ok (some (.sparse array))
            | some number => .error (.malformed others.rows.offset (.negativeIndex number)) := by
  obtain ⟨head, afterHead, shape, rest, headRead, isWanted, isSparse, shaped, body⟩ :=
    Cursor.sparse_of_matrix read
  obtain ⟨flags, dimensions, name, headReads, headSpelled, _⟩ :=
    Cursor.matrixHead_eq_ok.mp headRead
  obtain ⟨info, capacity, rows, pointers, real, imag, bodyReads, spelled⟩ :=
    Cursor.spelled_of_sparseBody body
  let elements : SparseElements := ⟨flags, dimensions, name, rows, pointers, real, imag⟩
  have reads : payload.Reads elements.list rest :=
    Cursor.reads_append.mpr ⟨afterHead, headReads, bodyReads⟩
  have whole := SparseElements.whole_of_reads reads
  refine ⟨elements, ⟨rest, reads⟩, spelled.isSome_imag,
    fun other others ⟨last, otherReads⟩ alike => ?_⟩
  have otherWhole := SparseElements.whole_of_reads otherReads
  obtain ⟨afterOther, otherHeadReads, otherBodyReads⟩ := Cursor.reads_append.mp otherReads
  have otherHead := Cursor.matrixHead_eq_ok.mpr ⟨_, _, _, otherHeadReads,
    headSpelled.alike alike whole otherWhole other.offset, rfl⟩
  obtain ⟨numbers, numbersRead, otherBody⟩ :=
    Cursor.sparseBody_of_alike spelled alike whole otherWhole otherBodyReads
  refine ⟨numbers, numbersRead, ?_⟩
  rw [Cursor.result_matrix_of_sparse otherHead isWanted isSparse shaped]
  dsimp only
  rw [← info, ← capacity, otherBody]
  cases (numbers.drop array.stored).find? fun number => decide (number < 0) <;> rfl

/-- A matrix of three rows and two columns with two entries and room for a third one, the number
of whose row is given by its bytes. -/
def roomySparse (padding : List UInt8) : Cursor :=
  .ofBytes ([6, 0, 0, 0, 8, 0, 0, 0, 5, 0, 0, 0, 3, 0, 0, 0,
    5, 0, 0, 0, 8, 0, 0, 0, 3, 0, 0, 0, 2, 0, 0, 0, 1, 0, 2, 0, 115, 112, 0, 0,
    5, 0, 0, 0, 12, 0, 0, 0, 0, 0, 0, 0, 2, 0, 0, 0] ++ padding ++ [0, 0, 0, 0,
    5, 0, 0, 0, 12, 0, 0, 0, 0, 0, 0, 0, 1, 0, 0, 0, 2, 0, 0, 0, 0, 0, 0, 0,
    9, 0, 0, 0, 24, 0, 0, 0, 0, 0, 0, 0, 0, 0, 240, 63, 0, 0, 0, 0, 0, 0, 0, 64,
    0, 0, 0, 0, 0, 0, 0, 0]) .little

/-- Another row in the room behind the entries is ignored, even outside the matrix, but not one
that is negative. -/
theorem matrix_of_sparsePadding_roomySparse :
    ∃ array : SparseArray,
      ((roomySparse [0, 0, 0, 0]).matrix fun _ => true).result = .ok (some (.sparse array)) ∧
      array.stored = 2 ∧
      ((roomySparse [7, 0, 0, 0]).matrix fun _ => true).result = .ok (some (.sparse array)) ∧
      ((roomySparse [255, 255, 255, 255]).matrix fun _ => true).result =
        .error (.malformed 48 (.negativeIndex (-1))) := by
  obtain ⟨array, read, stored, plain⟩ : ∃ array : SparseArray,
      ((roomySparse [0, 0, 0, 0]).matrix fun _ => true).result = .ok (some (.sparse array)) ∧
      array.stored = 2 ∧ array.isComplex = false := ⟨_, rfl, rfl, rfl⟩
  obtain ⟨⟨flags, dimensions, name, rows, pointers, real, imag⟩, ⟨rest, reads⟩, parts, same⟩ :=
    matrix_of_sparsePadding read
  rw [plain] at parts
  rw [stored] at same
  obtain rfl := Option.not_isSome_iff_eq_none.mp (ne_true_of_eq_false parts)
  cases reads
  obtain ⟨_, ⟨⟩, changed⟩ := same (roomySparse [7, 0, 0, 0]) ⟨_, _, _, _, _, _, none⟩ ⟨_, rfl⟩
    ⟨⟨rfl, rfl, rfl⟩, ⟨rfl, rfl, rfl⟩, ⟨rfl, rfl, rfl⟩, ⟨rfl, rfl, rfl, rfl⟩, ⟨rfl, rfl, rfl⟩,
      ⟨rfl, rfl, rfl, rfl⟩, .none⟩
  obtain ⟨_, ⟨⟩, refused⟩ := same (roomySparse [255, 255, 255, 255]) ⟨_, _, _, _, _, _, none⟩
    ⟨_, rfl⟩ ⟨⟨rfl, rfl, rfl⟩, ⟨rfl, rfl, rfl⟩, ⟨rfl, rfl, rfl⟩, ⟨rfl, rfl, rfl, rfl⟩,
      ⟨rfl, rfl, rfl⟩, ⟨rfl, rfl, rfl, rfl⟩, .none⟩
  exact ⟨array, read, stored, changed, refused⟩

end MatFormat
