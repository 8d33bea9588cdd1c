/-
This file proves that what is written for an array is tiled by elements: each starts at a
multiple of eight bytes, tells in its tag just the size of its payload, has all its padding, and
is followed by the next one right away. The same holds of what stands in the payload of a
matrix, at every depth, and reading a matrix leaves nothing of its payload. A part of a matrix
is tiled wherever it stands, as long as what follows it is, so the parts are put together by
appending them. Where elements tile the bytes, reading never meets an end of the bytes in the
middle of padding.
-/

import MatFormat.Proofs.Consumption
import MatFormat.Proofs.Grammar
import MatFormat.Proofs.Matrix.Alignment

namespace MatFormat

namespace Cursor

/-! ### Tilings -/

/-- An element that stands whole in front of a place: it starts at a multiple of eight bytes, it
is one of the grammar, its tag tells the size of its payload, and behind the payload comes all
its padding in zeros, and then the place. -/
structure StandsWhole (cursor : Cursor) (element : Element) (rest : Cursor) : Prop where
  aligned : cursor.offset % 8 = 0
  grammar : cursor.StartsWith element rest
  size : element.tag.size = element.payload.remaining
  parts : ∃ front : List UInt8, TagForm element.tag front.length ∧
    element.payload.offset = cursor.offset + front.length ∧
    cursor.Passes (front ++ element.payload.bytes ++ List.replicate element.tag.padding 0) rest

/-- Whether a matrix is read up to the end of its payload, on every bound on the depth that what
follows its head fits in. -/
def ReadsToEnd (payload : Cursor) : Prop :=
  ∃ (head : MatrixHead) (cursor : Cursor), payload.matrixHead.result = .ok (head, cursor) ∧
    ∀ depth, cursor.remaining ≤ depth → ∃ (array : MatArray) (rest : Cursor),
      (cursor.matrixBody (nestedMatrix depth) head).result = .ok (array, rest) ∧
        rest.atEnd = true

/-- Bytes that elements tile up to their end, and the payload of each matrix likewise. -/
inductive Tiled : Cursor → Prop where
  | ended {offset : Nat} {order : ByteOrder} (aligned : offset % 8 = 0) : Tiled ⟨[], offset, order⟩
  | element {cursor rest : Cursor} {element : Element} (whole : cursor.StandsWhole element rest)
      (inside : element.tag.type = .matrix → Tiled element.payload)
      (exhausted : element.tag.type = .matrix → element.payload.ReadsToEnd)
      (later : Tiled rest) : Tiled cursor

/-! ### Reading -/

/-- An element with all its padding behind it is read without a remark. -/
theorem reading_of_full {cursor rest : Cursor} {element : Element}
    (read : cursor.element.result = .ok (element, rest))
    (full : rest.offset = element.payload.offset + element.payload.remaining
      + element.tag.padding) : cursor.element = pure (element, rest) := by
  rw [result_element] at read
  obtain ⟨⟨tag, afterTag⟩, tagRead, read⟩ := Outcome.bind_eq_ok.mp read
  obtain ⟨⟨payload, afterPayload⟩, payloadRead, read⟩ := Outcome.bind_eq_ok.mp read
  cases read
  obtain ⟨payloadPassed, _, payloadOffset, _⟩ := passes_of_split payloadRead
  have moved : (afterPayload.skipAtMost tag.padding).2.offset =
      afterPayload.offset + (afterPayload.skipAtMost tag.padding).1 := rfl
  rw [payloadPassed.offset, ← payloadOffset] at moved
  have whole : ¬ (afterPayload.skipAtMost tag.padding).1 < tag.padding := by
    rw [remaining] at full
    dsimp only at full
    omega
  rw [Cursor.element, Reading.lift_bind_of_ok tagRead]
  dsimp only
  rw [Reading.lift_bind_of_ok payloadRead]
  dsimp only
  rw [if_neg whole]

/-- An element that stands whole is read without a remark. -/
theorem StandsWhole.reading {cursor rest : Cursor} {element : Element}
    (whole : cursor.StandsWhole element rest) : cursor.element = pure (element, rest) := by
  obtain ⟨front, _, payloadOffset, passes⟩ := whole.parts
  refine reading_of_full (element_eq_ok_of_grammar.mpr whole.grammar) ?_
  rw [passes.offset, payloadOffset, remaining]
  simp only [List.length_append, List.length_replicate, Nat.add_assoc]

/-- Where elements tile the bytes, no padding is missing. -/
def tiling : Contract where
  place := Tiled
  payload _ := True
  allowed _ := True
  remarked notice := ¬ notice.TellsMissing
  payload_of_place _ := trivial
  malformed _ _ := trivial
  truncated _ _ := trivial
  unsupportedClass _ := trivial
  remark := id
  element tiled := by
    cases tiled with
    | @ended offset order aligned =>
      have none : Settles (fun _ => True) (fun _ => False) (Cursor.tag ⟨[], offset, order⟩) :=
        .error trivial
      exact .lift none nofun
    | element whole inside _ later =>
      rw [whole.reading]
      exact .pure ⟨trivial, inside, later⟩

end Cursor

/-! ### Parts of a payload -/

/-- Bytes that are tiled wherever they stand, as long as what follows them is. -/
structure Tiles (order : ByteOrder) (bytes : List UInt8) : Prop where
  aligned : Aligned bytes
  onto : ∀ {rest : List UInt8} {offset : Nat}, offset % 8 = 0 →
    Cursor.Tiled ⟨rest, offset + bytes.length, order⟩ → Cursor.Tiled ⟨bytes ++ rest, offset, order⟩

namespace Tiles

variable {order : ByteOrder} {bytes front back : List UInt8}

theorem nil : Tiles order [] := ⟨.nil, fun _ tiled => tiled⟩

theorem append (first : Tiles order front) (second : Tiles order back) :
    Tiles order (front ++ back) := by
  refine ⟨first.aligned.append second.aligned, fun {rest offset} aligned tiled => ?_⟩
  have next : (offset + front.length) % 8 = 0 := by
    have whole : front.length % 8 = 0 := first.aligned
    omega
  rw [List.append_assoc]
  rw [List.length_append, ← Nat.add_assoc] at tiled
  exact first.onto aligned (second.onto next tiled)

/-- Tiles that nothing follows. -/
theorem tiled (tiles : Tiles order bytes) {offset : Nat} (aligned : offset % 8 = 0) :
    Cursor.Tiled ⟨bytes, offset, order⟩ := by
  have ends : (offset + bytes.length) % 8 = 0 := by
    have whole : bytes.length % 8 = 0 := tiles.aligned
    omega
  rw [← List.append_nil bytes]
  exact tiles.onto aligned (.ended ends)

end Tiles

section

variable {order : ByteOrder}

/-- A written element stands whole, so it is a tile if it is no matrix or a tiled one. -/
theorem tiles_encodeElement {type : DataType} {payload : List UInt8} (padded : type ≠ .compressed)
    (inside : type = .matrix → ∀ offset, offset % 8 = 0 →
      Cursor.Tiled ⟨payload, offset, order⟩ ∧ Cursor.ReadsToEnd ⟨payload, offset, order⟩) :
    Ensures (Tiles order) (encodeElement order type payload) := by
  intro bytes written
  refine ⟨aligned_of_elementLayout (layout_of_encodeElement written),
    fun {rest offset} aligned later => ?_⟩
  cases writtenElement_of_encodeElement written with
  | packed primitive positive short =>
    have read := @Cursor.reading_packed order type payload _ primitive positive
      (length_add_filling short) rest offset
    have other : type ≠ .matrix := by
      rintro rfl
      cases primitive
    refine .element ⟨aligned, Cursor.element_eq_ok_of_grammar.mp (congrArg Reading.result read),
      rfl, order.encode 4 (payload.length * 65536 + type.code), ?_, ?_, ⟨rfl, rfl, rfl⟩⟩
      (fun isMatrix => absurd isMatrix other) (fun isMatrix => absurd isMatrix other) later
    · rw [order.length_encode]
      exact .packed rfl primitive positive short
    · rw [order.length_encode]
  | normal unpacked fits =>
    have read := @Cursor.reading_normal order type payload _ fits
      (List.length_replicate (a := (0 : UInt8))) padded rest offset
    have inner : (offset + tagSize) % 8 = 0 := by
      have size : tagSize = 8 := rfl
      omega
    have padding : Tag.padding ⟨type, payload.length, false⟩ = paddingTo8 payload.length := by
      rw [Tag.padding, if_neg Bool.false_ne_true, if_neg padded]
    refine .element ⟨aligned, Cursor.element_eq_ok_of_grammar.mp (congrArg Reading.result read),
      rfl, tagBytes order type payload.length, ?_, ?_, ?_⟩
      (fun isMatrix => (inside isMatrix _ inner).1) (fun isMatrix => (inside isMatrix _ inner).2)
      later
    · rw [length_tagBytes]
      exact .normal rfl
    · rw [length_tagBytes]
    · rw [padding]
      exact ⟨rfl, rfl, rfl⟩

/-- A run of numbers or text is a tile. -/
theorem tiles_encodeRun {type : DataType} (primitive : type.isPrimitive = true)
    (payload : List UInt8) : Ensures (Tiles order) (encodeElement order type payload) := by
  refine tiles_encodeElement ?_ ?_
  · rintro rfl
    cases primitive
  · rintro rfl
    cases primitive

theorem tiles_encodeValues (numericClass : NumericClass) (values : List numericClass.Value) :
    Ensures (Tiles order) (encodeValues order numericClass values) := by
  refine tiles_encodeRun ?_ _
  rw [DataType.isPrimitive_iff_storedClass?, numericClass.storedClass?_dataType]
  rfl

theorem tiles_encodeName (name : String) : Ensures (Tiles order) (encodeName order name) :=
  tiles_encodeRun rfl _

theorem tiles_encodeIndices (name : String) (indices : List Nat) :
    Ensures (Tiles order) (encodeIndices order name indices) := by
  unfold encodeIndices
  split
  · exact .error _
  · exact tiles_encodeValues _ _

theorem tiles_encodeHead (array : MatArray) : Ensures (Tiles order) (encodeHead order array) := by
  intro bytes written
  obtain ⟨flags, dimensions, name, rfl, _, flagsWritten, dimensionsWritten, nameWritten⟩ :=
    parts_of_encodeHead written
  exact (tiles_encodeValues _ _ flags flagsWritten).append
    ((tiles_encodeIndices _ _ dimensions dimensionsWritten).append
      (tiles_encodeName _ name nameWritten))

theorem tiles_encodeParts (numericClass : NumericClass) (real : List numericClass.Value)
    (imag : Option (List numericClass.Value)) :
    Ensures (Tiles order) (encodeParts order numericClass real imag) := by
  refine (tiles_encodeValues numericClass real).bind fun front frontTiles => ?_
  cases imag with
  | none => exact .ok frontTiles
  | some imag =>
    refine (tiles_encodeValues numericClass imag).bind fun back backTiles => ?_
    exact .ok (frontTiles.append backTiles)

theorem tiles_encodeSparse (array : SparseArray) :
    Ensures (Tiles order) (encodeSparse order array) := by
  refine (tiles_encodeIndices _ _).bind fun rows rowsTiles => ?_
  refine (tiles_encodeIndices _ _).bind fun pointers pointersTiles => ?_
  refine (tiles_encodeParts _ _ _).bind fun values valuesTiles => ?_
  exact .ok ((rowsTiles.append pointersTiles).append valuesTiles)

theorem tiles_encodeFieldNames (name : String) (className : Option String)
    (fieldNames : List String) :
    Ensures (Tiles order) (encodeFieldNames order name className fieldNames) := by
  intro bytes written
  obtain ⟨classPart, fieldPart, rfl, classWritten, _, fieldsWritten⟩ :=
    parts_of_encodeFieldNames written
  have fieldTiles : Ensures (Tiles order) (writeFieldNames order fieldNames) := by
    refine (tiles_encodeValues _ _).bind fun lengths lengthsTiles => ?_
    refine (tiles_encodeRun rfl _).bind fun names namesTiles => ?_
    exact .ok (lengthsTiles.append namesTiles)
  have classTiles : Ensures (Tiles order) (writeClassName order className) := by
    cases className with
    | none => exact .ok .nil
    | some className => exact tiles_encodeName className
  exact (classTiles classPart classWritten).append (fieldTiles fieldPart fieldsWritten)

/-! ### Arrays -/

/-- A written array is tiled, and it is read up to its end wherever it stands. -/
structure TilesArray (order : ByteOrder) (payload : List UInt8) : Prop where
  tiles : Tiles order payload
  exhausted : ∀ offset, Cursor.ReadsToEnd ⟨payload, offset, order⟩

theorem readsToEnd_of_encode {array : MatArray} (shaped : array.Everywhere MatArray.Shaped)
    {payload : List UInt8} (written : array.encode order = .ok payload) (offset : Nat) :
    Cursor.ReadsToEnd ⟨payload, offset, order⟩ := by
  have writable := everywhere_writable_of_encode shaped written
  obtain @⟨array, head, body, headSpelled, bodySpelled⟩ := layout_of_encode written
  refine ⟨_, _, Cursor.matrixHead_of_layout writable.here headSpelled body offset,
    fun depth enough => ?_⟩
  have read := Cursor.matrixBody_of_layout writable.here bodySpelled
    (fun slot member => (nestedReads_nestedMatrix depth slot
      (writable.slotArray writable_unsetArray member)).mono (Nat.le_succ_of_le enough))
    (offset + head.length) offset
  exact ⟨_, _, read, rfl⟩

/-- Slots are tiles if the arrays in them are. -/
theorem tiles_slots {slots : List (Option MatArray)}
    (each : ∀ slot ∈ slots, Ensures (TilesArray order) ((slotArray slot).encode order)) :
    Ensures (Tiles order) (joinParts (slots.map (encodeSlot order))) := by
  induction slots with
  | nil => exact .ok .nil
  | cons slot slots inductionHypothesis =>
    obtain ⟨first, others⟩ := List.forall_mem_cons.mp each
    rw [List.map_cons, joinParts, encodeSlot_eq, bind_assoc]
    refine first.bind fun payload nested => ?_
    refine (tiles_encodeElement (by decide) fun _ offset aligned =>
      ⟨nested.tiles.tiled aligned, nested.exhausted offset⟩).bind fun front frontTiles => ?_
    refine (inductionHypothesis others).bind fun back backTiles => ?_
    exact .ok (frontTiles.append backTiles)

theorem tiles_encodeBody {array : MatArray}
    (each : ∀ slot ∈ array.slots, Ensures (TilesArray order) ((slotArray slot).encode order)) :
    Ensures (Tiles order) (array.encodeBody order) := by
  cases array with
  | numeric => exact tiles_encodeParts _ _ _
  | char => exact tiles_encodeValues _ _
  | sparse array => exact tiles_encodeSparse array
  | cell => exact tiles_slots each
  | struct array =>
    refine (tiles_encodeFieldNames _ _ _).bind fun names namesTiles => ?_
    refine (tiles_slots fun slot member =>
      each slot (mem_slots_of_mem_slotsByElement member)).bind fun slots slotsTiles => ?_
    exact .ok (namesTiles.append slotsTiles)

theorem tilesArray_of_slots {array : MatArray} (shaped : array.Everywhere MatArray.Shaped)
    (each : ∀ slot ∈ array.slots, Ensures (TilesArray order) ((slotArray slot).encode order)) :
    Ensures (TilesArray order) (array.encode order) := by
  intro payload written
  refine ⟨?_, readsToEnd_of_encode shaped written⟩
  obtain ⟨head, body, rfl, headWritten, bodyWritten⟩ := MatArray.parts_of_encode written
  exact (tiles_encodeHead array head headWritten).append (tiles_encodeBody each body bodyWritten)

/-- Every payload that is written for an array is tiled and read to its end, at every depth. -/
theorem tilesArray_encode {array : MatArray} (shaped : array.Everywhere MatArray.Shaped) :
    Ensures (TilesArray order) (array.encode order) := by
  induction shaped with
  | intro array here below inductionHypothesis =>
    refine tilesArray_of_slots (.intro array here below) fun slot member => ?_
    cases slot with
    | none =>
      exact tilesArray_of_slots (.intro _ writable_unsetArray.shaped nofun) nofun
    | some child => exact inductionHypothesis child ((MatArray.mem_children array child).mpr member)

/-- The element that is written for an array takes whole words of eight bytes. Elements tile it
from any multiple of eight on, and the payload of every matrix in it likewise: each starts at a
multiple of eight, has a tag with just the size of its payload and all its padding in zeros, and
is followed by the next; and each matrix is read up to the end of its payload. So the element is
read without a remark, and nothing in it is found to miss padding. -/
theorem tiled_of_written {array : MatArray} (shaped : array.Everywhere MatArray.Shaped)
    {bytes : List UInt8} (written : array.element order = .ok bytes) {offset : Nat}
    (aligned : offset % 8 = 0) :
    bytes.length % 8 = 0 ∧ Cursor.Tiled ⟨bytes, offset, order⟩ ∧ ∃ element : Element,
      Cursor.element ⟨bytes, offset, order⟩ =
        pure (element, ⟨[], offset + bytes.length, order⟩) ∧
      element.tag.type = .matrix ∧ ∀ wanted : String → Bool,
        ∀ notice ∈ (element.payload.matrix wanted).notices, ¬ notice.TellsMissing := by
  have tiles : Ensures (Tiles order) (array.element order) := by
    rw [MatArray.element_eq]
    refine (tilesArray_encode shaped).bind fun payload nested => ?_
    exact tiles_encodeElement (by decide) fun _ offset aligned =>
      ⟨nested.tiles.tiled aligned, nested.exhausted offset⟩
  have tiled := (tiles bytes written).tiled aligned
  refine ⟨(tiles bytes written).aligned, tiled, ?_⟩
  obtain ⟨element, read, tag, _⟩ := element_of_writtenArray shaped written [] offset
  rw [List.append_nil] at read
  have isMatrix : element.tag.type = .matrix := congrArg Tag.type tag
  cases tiled with
  | ended => cases read
  | @element _ _ other whole inside _ _ =>
    have reading := whole.reading
    rw [reading] at read
    cases read
    exact ⟨_, reading, isMatrix, fun wanted =>
      (Cursor.tiling.keeps_matrix (inside isMatrix) wanted).notices⟩

theorem tiled_of_written_twoCells :
    ∃ bytes : List UInt8, twoCells.element .big = .ok bytes ∧
      bytes.length % 8 = 0 ∧ Cursor.Tiled ⟨bytes, 128, .big⟩ ∧ ∃ element : Element,
        Cursor.element ⟨bytes, 128, .big⟩ = pure (element, ⟨[], 128 + bytes.length, .big⟩) ∧
        element.tag.type = .matrix ∧ ∀ wanted : String → Bool,
          ∀ notice ∈ (element.payload.matrix wanted).notices, ¬ notice.TellsMissing := by
  have succeeds : (twoCells.element .big).isOk = true := by decide +kernel
  obtain ⟨bytes, written⟩ := Outcome.exists_of_isOk succeeds
  have shaped : twoCells.Everywhere MatArray.Shaped :=
    wellFormed_twoCells.imp fun _ here => here.shaped
  exact ⟨bytes, written, tiled_of_written shaped written (by decide)⟩

end

end MatFormat
