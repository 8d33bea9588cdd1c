/-
This file proves the round trip of arrays. The writer spells an array in one of the ways there
are, and an array that is spelled in any of them is read as what is kept of it. So every
spelling of a well-formed array is read as the array itself, and the element that is written
for it as an element from which it is read.
-/

import MatFormat.Proofs.Layout.Array

namespace MatFormat

variable {order : ByteOrder}

/-! ### Elements -/

theorem MatArray.element_eq (array : MatArray) :
    array.element order =
      (array.encode order >>= fun payload => encodeElement order .matrix payload) := by
  rw [element, encodeSlot_eq, slotArray]

/-- A written element of an array is read as a matrix element that is not packed, from whose
payload what is kept of the array is read. -/
theorem element_of_writtenArray {array : MatArray} (shaped : array.Everywhere MatArray.Shaped)
    {bytes : List UInt8} (written : array.element order = .ok bytes) (rest : List UInt8)
    (offset : Nat) :
    ∃ element : Element,
      (Cursor.element ⟨bytes ++ rest, offset, order⟩).result =
        .ok (element, ⟨rest, offset + bytes.length, order⟩) ∧
      element.tag = ⟨.matrix, element.payload.remaining, false⟩ ∧
      ∀ wanted : String → Bool, (element.payload.matrix wanted).result =
        .ok (if wanted (cutName array.name) then some array.kept else none) := by
  rw [MatArray.element_eq] at written
  obtain ⟨payload, payloadWritten, written⟩ := Outcome.bind_eq_ok.mp written
  obtain ⟨element, holds, unpacked, read⟩ :=
    Cursor.element_of_layout (layout_of_encodeElement written) (by decide) rest offset
  refine ⟨element, read, ?_, fun wanted => ?_⟩
  · rw [Cursor.remaining, holds.bytes, ← holds.size, ← holds.type, ← unpacked rfl]
  · rw [holds.payload_eq]
    exact Cursor.matrix_of_layout (everywhere_writable_of_encode shaped payloadWritten)
      (layout_of_encode payloadWritten) wanted _

/-- The round trip of an array. A well-formed array whose element could be written is read
back from that element, whatever follows it: the element is a matrix that is not packed, and
from its payload the array is read as it was, but for a sparse matrix that declared less room
than it has entries. -/
theorem read_writtenElement {array : MatArray} (wellFormed : array.Everywhere MatArray.WellFormed)
    {bytes : List UInt8} (written : array.element order = .ok bytes) (rest : List UInt8)
    (offset : Nat) :
    ∃ element : Element,
      (Cursor.element ⟨bytes ++ rest, offset, order⟩).result =
        .ok (element, ⟨rest, offset + bytes.length, order⟩) ∧
      element.tag = ⟨.matrix, element.payload.remaining, false⟩ ∧
      (element.payload.matrix fun _ => true).result = .ok (some array.settled) ∧
      array.settled.same array = true := by
  obtain ⟨element, read, tag, matrix⟩ := element_of_writtenArray
    (wellFormed.imp fun _ here => here.shaped) written rest offset
  refine ⟨element, read, tag, ?_, array.same_settled⟩
  rw [matrix, if_pos rfl, MatArray.kept_eq_settled wellFormed]

/-- A complex number that is not a number in its real part. -/
def complexScalar : MatArray :=
  .numeric .double
    { info := ⟨"", ⟨[1, 1], by decide, by decide, by decide⟩, { complex := true }⟩
      real := [0x7FF8000000000001#64]
      imag := some [0x3FF0000000000000#64] }

/-- Two cells, one with a complex number and one that is unset. -/
def twoCells : MatArray :=
  .cell
    { info := ⟨"cells", ⟨[1, 2], by decide, by decide, by decide⟩, { global := true }⟩
      cells := [some complexScalar, none] }

theorem wellFormed_twoCells : twoCells.Everywhere MatArray.WellFormed := by
  refine .intro _ ⟨⟨rfl, nofun, ?_, ?_⟩, fun _ => rfl⟩ ?_
  · intro child member
    rw [List.mem_singleton.mp member]
    decide
  · intro name member
    rw [List.mem_singleton.mp member]
    decide
  · intro child member
    rw [List.mem_singleton.mp member]
    refine .intro _ ⟨⟨⟨rfl, fun values held => ?_⟩, fun _ => rfl, nofun, ?_⟩, nofun⟩ nofun
    · rw [← Option.some.inj held]
      rfl
    · intro name member
      rw [List.mem_singleton.mp member]
      decide

theorem read_writtenElement_twoCells :
    ∃ bytes : List UInt8, twoCells.element .big = .ok bytes ∧ ∃ element : Element,
      (Cursor.element ⟨bytes ++ [1, 2, 3], 0, .big⟩).result =
        .ok (element, ⟨[1, 2, 3], 0 + bytes.length, .big⟩) ∧
      element.tag = ⟨.matrix, element.payload.remaining, false⟩ ∧
      (element.payload.matrix fun _ => true).result = .ok (some twoCells.settled) ∧
      twoCells.settled.same twoCells = true := by
  have succeeds : (twoCells.element .big).isOk = true := by decide +kernel
  cases written : twoCells.element .big with
  | error fault =>
    rw [written] at succeeds
    cases succeeds
  | ok bytes =>
    exact ⟨bytes, rfl, read_writtenElement wellFormed_twoCells written [1, 2, 3] 0⟩

/-! ### Every spelling -/

/-- Freedom of representation. However a well-formed array that could be written is spelled,
it is read as it was, if its name is wanted: elements of one to four bytes may be packed or not,
padding may be filled with any bytes, integers may be stored in any type that holds them, and
an unset slot may have no payload at all. What the writer gives is one of these spellings. -/
theorem read_everyLayout {array : MatArray} (wellFormed : array.Everywhere MatArray.WellFormed)
    {written : List UInt8} (encoded : array.encode order = .ok written) :
    ArrayLayout order array written ∧ array.settled.same array = true ∧
      ∀ bytes : List UInt8, ArrayLayout order array bytes →
        ∀ (wanted : String → Bool) (offset : Nat),
          (Cursor.matrix ⟨bytes, offset, order⟩ wanted).result =
            .ok (if wanted array.name then some array.settled else none) := by
  have writable := everywhere_writable_of_encode (wellFormed.imp fun _ here => here.shaped) encoded
  have named : array.name ∈ array.ownNames := MatArray.mem_ownNames.mpr (.inl rfl)
  refine ⟨layout_of_encode encoded, array.same_settled, fun bytes layout wanted offset => ?_⟩
  rw [Cursor.matrix_of_layout writable layout, MatArray.kept_eq_settled wellFormed,
    (cutName_eq_self_iff _).mpr (wellFormed.here.names _ named)]

/-- Two small numbers. -/
def smallPair : MatArray :=
  .numeric .uint8
    { info := ⟨"", ⟨[1, 2], by decide, by decide, by decide⟩, {}⟩
      real := [1#8, 2#8]
      imag := none }

/-- Two cells, one with small numbers and one that is unset. -/
def spareCells : MatArray :=
  .cell
    { info := ⟨"c", ⟨[1, 2], by decide, by decide, by decide⟩, {}⟩
      cells := [some smallPair, none] }

theorem wellFormed_spareCells : spareCells.Everywhere MatArray.WellFormed := by
  refine .intro _ ⟨⟨rfl, nofun, ?_, ?_⟩, fun _ => rfl⟩ ?_
  · intro child member
    rw [List.mem_singleton.mp member]
    decide
  · intro name member
    rw [List.mem_singleton.mp member]
    decide
  · intro child member
    rw [List.mem_singleton.mp member]
    refine .intro _ ⟨⟨⟨rfl, nofun⟩, fun _ => rfl, nofun, ?_⟩, nofun⟩ nofun
    intro name member
    rw [List.mem_singleton.mp member]
    decide

/-- A spelling of the two numbers with the flags and the dimensions packed in single bytes and
the numbers in words of two bytes. -/
def smallPairBytes : List UInt8 :=
  ([2, 0, 2, 0, 9, 0, 255, 255] ++ ([1, 0, 2, 0, 1, 2, 7, 7] ++ [1, 0, 0, 0, 0, 0, 0, 0])) ++
    [3, 0, 4, 0, 1, 0, 2, 0]

/-- A spelling of the two cells with a name that is not packed, padding that is not zero, and
no payload for the unset cell. -/
def spareCellsBytes : List UInt8 :=
  ([2, 0, 2, 0, 1, 0, 255, 255] ++ ([1, 0, 2, 0, 1, 2, 7, 7] ++
      [1, 0, 0, 0, 1, 0, 0, 0, 99, 1, 2, 3, 4, 5, 6, 7])) ++
    (([14, 0, 0, 0, 32, 0, 0, 0] ++ smallPairBytes) ++ ([14, 0, 0, 0, 0, 0, 0, 0] ++ []))

theorem layout_smallPairBytes : ArrayLayout .little smallPair smallPairBytes := by
  have flags : IntegersLayout .little [9, 0] [2, 0, 2, 0, 9, 0, 255, 255] :=
    ⟨.uint8, .uint8, [9#8, 0#8], rfl, rfl, rfl,
      @ElementLayout.packed .little .uint8 [9, 0] [255, 255] rfl (by decide) rfl⟩
  have dimensions : IntegersLayout .little [1, 2] [1, 0, 2, 0, 1, 2, 7, 7] :=
    ⟨.int8, .int8, [1#8, 2#8], rfl, rfl, rfl,
      @ElementLayout.packed .little .int8 [1, 2] [7, 7] rfl (by decide) rfl⟩
  have name : NameLayout .little "" [1, 0, 0, 0, 0, 0, 0, 0] :=
    @ElementLayout.normal .little .int8 [] [] (by decide) rfl
  have values : IntegersLayout .little [1, 2] [3, 0, 4, 0, 1, 0, 2, 0] :=
    ⟨.int16, .int16, [1#16, 2#16], rfl, rfl, rfl,
      @ElementLayout.packed .little .int16 [1, 0, 2, 0] [] rfl (by decide) rfl⟩
  exact .intro (.parts flags dimensions name) (.numeric (.real (.integers rfl values)))

theorem layout_spareCellsBytes : ArrayLayout .little spareCells spareCellsBytes := by
  have flags : IntegersLayout .little [1, 0] [2, 0, 2, 0, 1, 0, 255, 255] :=
    ⟨.uint8, .uint8, [1#8, 0#8], rfl, rfl, rfl,
      @ElementLayout.packed .little .uint8 [1, 0] [255, 255] rfl (by decide) rfl⟩
  have dimensions : IntegersLayout .little [1, 2] [1, 0, 2, 0, 1, 2, 7, 7] :=
    ⟨.int8, .int8, [1#8, 2#8], rfl, rfl, rfl,
      @ElementLayout.packed .little .int8 [1, 2] [7, 7] rfl (by decide) rfl⟩
  have name : NameLayout .little "c" [1, 0, 0, 0, 1, 0, 0, 0, 99, 1, 2, 3, 4, 5, 6, 7] :=
    @ElementLayout.normal .little .int8 [99] [1, 2, 3, 4, 5, 6, 7] (by decide) rfl
  have filled : ElementLayout .little .matrix smallPairBytes
      ([14, 0, 0, 0, 32, 0, 0, 0] ++ smallPairBytes) :=
    @ElementLayout.normal .little .matrix smallPairBytes [] (by decide) rfl
  have unset : ElementLayout .little .matrix [] [14, 0, 0, 0, 0, 0, 0, 0] :=
    @ElementLayout.normal .little .matrix [] [] (by decide) rfl
  exact .intro (.parts flags dimensions name)
    (.cell (.cons (.array layout_smallPairBytes) filled (.cons .empty unset .nil)))

theorem read_everyLayout_spareCells :
    (spareCells.encode .little).toOption ≠ some spareCellsBytes ∧
      (Cursor.matrix ⟨spareCellsBytes, 0, .little⟩ fun _ => true).result =
        .ok (some spareCells.settled) ∧ spareCells.settled.same spareCells = true := by
  refine ⟨by decide +kernel, ?_⟩
  have succeeds : (spareCells.encode .little).isOk = true := by decide +kernel
  cases written : spareCells.encode .little with
  | error fault =>
    rw [written] at succeeds
    cases succeeds
  | ok bytes =>
    obtain ⟨_, same, read⟩ := read_everyLayout wellFormed_spareCells written
    exact ⟨read spareCellsBytes layout_spareCellsBytes (fun _ => true) 0, same⟩

end MatFormat
