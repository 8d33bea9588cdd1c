/-
This file reads and writes elements that follow each other. Each of them ends on a multiple of
eight bytes with all its padding, so the next one starts right behind it, and reading element
after element gives the types and the payloads that were written. Only what the writer chooses
is packed: a payload of one to four bytes of a type of numbers.
-/

import MatFormat.Proofs.Matrix.Alignment
import Mathlib.Algebra.Ring.Nat

namespace MatFormat

/-! ### Data -/

/-- The type of an element and the bytes of its payload. -/
structure Datum where
  type : DataType
  bytes : List UInt8
deriving DecidableEq, Repr

/-- The elements of some data, one after the other. -/
def encodeData (order : ByteOrder) (data : List Datum) : Except Error (List UInt8) :=
  joinParts (data.map fun datum => encodeElement order datum.type datum.bytes)

/-- Read elements one after the other, up to the end of the bytes or to a number of elements. -/
def Cursor.elements : (limit : Nat) → (cursor : Cursor) → Reading (List Element × Cursor)
  | 0, cursor => pure ([], cursor)
  | limit + 1, cursor =>
    if cursor.atEnd then pure ([], cursor)
    else do
      let (first, cursor) ← cursor.element
      let (others, cursor) ← elements limit cursor
      pure (first :: others, cursor)

/-- The bytes of an element: its tag, its payload and its padding. -/
def Tag.span (tag : Tag) : Nat :=
  (if tag.packed then packedLimit else tagSize) + tag.size + tag.padding

/-- An element as the writer makes it of a datum. -/
structure Element.Writes (element : Element) (order : ByteOrder) (datum : Datum) : Prop
    extends element.Holds order datum.type datum.bytes where
  packed : element.tag.packed = true ↔ datum.type.isPrimitive = true ∧
    1 ≤ datum.bytes.length ∧ datum.bytes.length ≤ packedLimit

variable {order : ByteOrder}

/-! ### One element -/

/-- An element is written if its size fits in a word. -/
theorem exists_encodeElement (order : ByteOrder) (type : DataType) {payload : List UInt8}
    (fits : payload.length < wordLimit) :
    ∃ bytes, encodeElement order type payload = .ok bytes := by
  unfold encodeElement
  dsimp only
  split
  · exact ⟨_, rfl⟩
  · rw [encodeTag_of_lt order type fits]
    exact ⟨_, rfl⟩

/-- A written element is read with all its padding, and packed exactly when it is short enough
and holds numbers. -/
theorem Cursor.element_of_written {datum : Datum} {bytes : List UInt8}
    (written : encodeElement order datum.type datum.bytes = .ok bytes)
    (padded : datum.type ≠ .compressed) :
    ∃ tag : Tag, bytes.length = tag.span ∧ ∀ (rest : List UInt8) (offset : Nat),
      ∃ element : Element, element.tag = tag ∧ element.Writes order datum ∧
        Cursor.element ⟨bytes ++ rest, offset, order⟩ =
          pure (element, ⟨rest, offset + bytes.length, order⟩) := by
  cases writtenElement_of_encodeElement written with
  | packed primitive positive short =>
    refine ⟨⟨datum.type, datum.bytes.length, true⟩, ?_, fun rest offset =>
      ⟨_, rfl, ⟨⟨rfl, rfl, rfl, rfl⟩, iff_of_true rfl ⟨primitive, positive, short⟩⟩,
        reading_packed primitive positive (length_add_filling short) rest offset⟩⟩
    rw [List.length_append, List.length_append, order.length_encode, List.length_replicate]
    rfl
  | normal unpacked fits =>
    refine ⟨⟨datum.type, datum.bytes.length, false⟩, ?_, fun rest offset =>
      ⟨_, rfl, ⟨⟨rfl, rfl, rfl, rfl⟩, iff_of_false Bool.false_ne_true ?_⟩,
        reading_normal fits List.length_replicate padded rest offset⟩⟩
    · rw [List.length_append, List.length_append, length_tagBytes, List.length_replicate, Tag.span,
        Tag.padding, if_neg Bool.false_ne_true, if_neg Bool.false_ne_true, if_neg padded]
    · rintro ⟨primitive, positive, short⟩
      exact unpacked ⟨positive, short, primitive⟩

/-- An element that the writer makes of a datum spans the bytes that are written for it. -/
theorem Element.Writes.length_eq {element : Element} {datum : Datum} {bytes : List UInt8}
    (writes : element.Writes order datum) (padded : datum.type ≠ .compressed)
    (written : encodeElement order datum.type datum.bytes = .ok bytes) :
    bytes.length = element.tag.span := by
  obtain ⟨tag, spanned, read⟩ := Cursor.element_of_written written padded
  obtain ⟨other, rfl, otherWrites, _⟩ := read [] 0
  have type : element.tag.type = other.tag.type := writes.type.trans otherWrites.type.symm
  have size : element.tag.size = other.tag.size := writes.size.trans otherWrites.size.symm
  have packed : element.tag.packed = other.tag.packed :=
    Bool.eq_iff_iff.mpr (writes.packed.trans otherWrites.packed.symm)
  rw [spanned, Tag.span, Tag.span, Tag.padding, Tag.padding, type, size, packed]

/-! ### Elements one after the other -/

/-- Pieces of which each is read as an element are read one after the other. Reading stops behind
the last of them, at the number of elements or at the end of the bytes. -/
theorem Cursor.elements_of_pieces {good : Element → Datum → Prop} {data : List Datum}
    {pieces : List (List UInt8)}
    (each : List.Forall₂ (fun datum piece => 0 < piece.length ∧ ∀ (rest : List UInt8)
      (offset : Nat), ∃ element : Element, good element datum ∧
        Cursor.element ⟨piece ++ rest, offset, order⟩ =
          pure (element, ⟨rest, offset + piece.length, order⟩)) data pieces)
    (rest : List UInt8) (offset : Nat) :
    ∃ elements : List Element, List.Forall₂ good elements data ∧
      ∀ limit, limit = data.length ∨ data.length ≤ limit ∧ rest = [] →
        Cursor.elements limit ⟨pieces.flatten ++ rest, offset, order⟩ =
          pure (elements, ⟨rest, offset + pieces.flatten.length, order⟩) := by
  induction each generalizing offset with
  | nil =>
    refine ⟨[], .nil, fun limit stops => ?_⟩
    rcases stops with rfl | ⟨_, rfl⟩
    · rfl
    · cases limit <;> rfl
  | @cons datum piece data pieces first others inductionHypothesis =>
    obtain ⟨filled, read⟩ := first
    obtain ⟨element, holds, elementRead⟩ := read (pieces.flatten ++ rest) offset
    obtain ⟨elements, hold, elementsRead⟩ := inductionHypothesis (offset + piece.length)
    refine ⟨element :: elements, .cons holds hold, fun limit stops => ?_⟩
    obtain ⟨fewer, rfl⟩ : ∃ fewer, limit = fewer + 1 := by
      refine Nat.exists_eq_succ_of_ne_zero ?_
      rintro rfl
      rcases stops with none | ⟨none, _⟩ <;> cases none
    have stopsLater : fewer = data.length ∨ data.length ≤ fewer ∧ rest = [] := by
      rw [List.length_cons] at stops
      exact stops.imp Nat.succ.inj fun atEnd => ⟨Nat.le_of_succ_le_succ atEnd.1, atEnd.2⟩
    have more : ¬ Cursor.atEnd ⟨piece ++ (pieces.flatten ++ rest), offset, order⟩ = true := by
      rw [atEnd_iff, remaining, List.length_append]
      omega
    rw [List.flatten_cons, List.append_assoc, Cursor.elements, if_neg more, elementRead]
    change (Cursor.elements fewer ⟨pieces.flatten ++ rest, offset + piece.length, order⟩
      >>= fun read => pure (element :: read.1, read.2)) = _
    rw [elementsRead fewer stopsLater, List.length_append, ← Nat.add_assoc]
    rfl

/-- What is joined are the parts, which all were written. -/
theorem joinParts_eq_ok {parts : List (Except Error (List UInt8))} {bytes : List UInt8} :
    joinParts parts = .ok bytes ↔
      ∃ pieces : List (List UInt8), parts = pieces.map .ok ∧ bytes = pieces.flatten := by
  induction parts generalizing bytes with
  | nil =>
    constructor
    · intro joined
      exact ⟨[], rfl, (Except.ok.inj joined).symm⟩
    · rintro ⟨pieces, same, rfl⟩
      rw [List.map_eq_nil_iff.mp same.symm]
      rfl
  | cons part parts inductionHypothesis =>
    rw [joinParts_cons_eq_ok]
    constructor
    · rintro ⟨piece, others, rfl, rfl, joined⟩
      obtain ⟨pieces, rfl, rfl⟩ := inductionHypothesis.mp joined
      exact ⟨piece :: pieces, rfl, rfl⟩
    · rintro ⟨pieces, same, rfl⟩
      cases pieces with
      | nil => cases same
      | cons piece pieces =>
        obtain ⟨rfl, rfl⟩ := List.cons.inj same
        exact ⟨piece, pieces.flatten, rfl, rfl, inductionHypothesis.mpr ⟨pieces, rfl, rfl⟩⟩

/-- What is written for one datum of a stream. -/
def Datum.Piece (order : ByteOrder) (datum : Datum) (piece : List UInt8) : Prop :=
  datum.type ≠ .compressed ∧ encodeElement order datum.type datum.bytes = .ok piece

theorem exists_pieces (order : ByteOrder) {data : List Datum}
    (padded : ∀ datum ∈ data, datum.type ≠ .compressed)
    (fits : ∀ datum ∈ data, datum.bytes.length < wordLimit) :
    ∃ pieces : List (List UInt8), List.Forall₂ (Datum.Piece order) data pieces := by
  induction data with
  | nil => exact ⟨[], .nil⟩
  | cons datum data inductionHypothesis =>
    obtain ⟨piece, written⟩ := exists_encodeElement order datum.type (fits datum List.mem_cons_self)
    obtain ⟨pieces, others⟩ := inductionHypothesis
      (fun datum inside => padded datum (List.mem_cons_of_mem _ inside))
      (fun datum inside => fits datum (List.mem_cons_of_mem _ inside))
    exact ⟨piece :: pieces, .cons ⟨padded datum List.mem_cons_self, written⟩ others⟩

section Pieces

variable {data : List Datum} {pieces : List (List UInt8)}

theorem encodeData_of_pieces (each : List.Forall₂ (Datum.Piece order) data pieces) :
    encodeData order data = .ok pieces.flatten := by
  refine joinParts_eq_ok.mpr ⟨pieces, ?_, rfl⟩
  induction each with
  | nil => rfl
  | cons first others inductionHypothesis =>
    rw [List.map_cons, List.map_cons, first.2, inductionHypothesis]

theorem aligned_of_pieces (each : List.Forall₂ (Datum.Piece order) data pieces) :
    Aligned pieces.flatten := by
  induction each with
  | nil => exact .nil
  | cons first others inductionHypothesis =>
    rw [List.flatten_cons]
    exact (aligned_of_elementLayout (layout_of_encodeElement first.2)).append inductionHypothesis

theorem length_flatten_of_pieces (each : List.Forall₂ (Datum.Piece order) data pieces)
    {elements : List Element}
    (write : List.Forall₂ (fun element datum => element.Writes order datum) elements data) :
    pieces.flatten.length = (elements.map fun element => element.tag.span).sum := by
  induction each generalizing elements with
  | nil =>
    cases write
    rfl
  | cons first others inductionHypothesis =>
    obtain _ | ⟨writes, writeLater⟩ := write
    rw [List.flatten_cons, List.length_append, List.map_cons, List.sum_cons,
      writes.length_eq first.1 first.2, inductionHypothesis writeLater]

end Pieces

/-- Elements of numbers or of matrices are written one after the other, each in full with its
padding. Reading elements to the end of the bytes gives back their types and their payloads in
order, without a remark and with nothing left over. -/
theorem elements_of_written (order : ByteOrder) {data : List Datum}
    (plain : ∀ datum ∈ data, datum.type.isPrimitive = true ∨ datum.type = .matrix)
    (fits : ∀ datum ∈ data, datum.bytes.length < wordLimit) (offset : Nat) :
    ∃ (bytes : List UInt8) (elements : List Element),
      encodeData order data = .ok bytes ∧ bytes.length % 8 = 0 ∧
      List.Forall₂ (fun element datum => element.Writes order datum) elements data ∧
      bytes.length = (elements.map fun element => element.tag.span).sum ∧
      ∀ limit, data.length ≤ limit → Cursor.elements limit ⟨bytes, offset, order⟩ =
        pure (elements, ⟨[], offset + bytes.length, order⟩) := by
  have padded : ∀ datum ∈ data, datum.type ≠ .compressed := by
    intro datum inside compressed
    rcases plain datum inside with primitive | isMatrix
    · rw [compressed] at primitive
      cases primitive
    · rw [compressed] at isMatrix
      cases isMatrix
  obtain ⟨pieces, each⟩ := exists_pieces order padded fits
  have readEach : List.Forall₂ (fun datum piece => 0 < piece.length ∧
      ∀ (rest : List UInt8) (offset : Nat), ∃ element : Element, element.Writes order datum ∧
        Cursor.element ⟨piece ++ rest, offset, order⟩ =
          pure (element, ⟨rest, offset + piece.length, order⟩)) data pieces := by
    refine each.imp fun datum piece written => ?_
    obtain ⟨tag, spanned, read⟩ := Cursor.element_of_written written.2 written.1
    refine ⟨?_, fun rest offset => ?_⟩
    · have filled := tagSize_le_of_layout (layout_of_encodeElement written.2)
      exact Nat.lt_of_lt_of_le (by decide) filled
    · obtain ⟨element, _, writes, elementRead⟩ := read rest offset
      exact ⟨element, writes, elementRead⟩
  obtain ⟨elements, write, read⟩ := Cursor.elements_of_pieces readEach [] offset
  refine ⟨pieces.flatten, elements, encodeData_of_pieces each, aligned_of_pieces each, write,
    length_flatten_of_pieces each write, fun limit enough => ?_⟩
  rw [← read limit (.inr ⟨enough, rfl⟩), List.append_nil]

/-- The theorem above at elements on both sides of each bound of the packed form. -/
theorem elements_of_written_mixed :
    let data : List Datum := [⟨.uint8, [1]⟩, ⟨.double, []⟩, ⟨.matrix, [1, 2, 3]⟩,
      ⟨.int16, [1, 2, 3, 4]⟩, ⟨.utf8, [1, 2, 3, 4, 5]⟩, ⟨.matrix, []⟩]
    (∀ datum ∈ data, datum.type.isPrimitive = true ∨ datum.type = .matrix) ∧
    (∀ datum ∈ data, datum.bytes.length < wordLimit) ∧
    ∃ (bytes : List UInt8) (elements : List Element),
      encodeData .big data = .ok bytes ∧ bytes.length % 8 = 0 ∧
      List.Forall₂ (fun element datum => element.Writes .big datum) elements data ∧
      bytes.length = (elements.map fun element => element.tag.span).sum ∧
      ∀ limit, data.length ≤ limit → Cursor.elements limit ⟨bytes, 128, .big⟩ =
        pure (elements, ⟨[], 128 + bytes.length, .big⟩) :=
  ⟨by decide, by decide, elements_of_written .big (by decide) (by decide) 128⟩

end MatFormat
