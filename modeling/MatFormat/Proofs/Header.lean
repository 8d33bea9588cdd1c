/-
This file proves that a written header is read back, whatever follows it: the byte order and
the version as they were written, and the description as far as its 116 bytes tell it. A long
description is cut at the end of a character, so no character is split and the bytes that are
left spell a text. Spaces fill up a short one, and go with the blanks at its end when it is read,
unless a NUL stands before them.
-/

import MatFormat.Header
import MatFormat.Proofs.Run
import MatFormat.Proofs.Text.Strict
import Mathlib.Data.List.DropRight
import Mathlib.Data.List.Infix

namespace MatFormat

namespace Header

theorem length_marker (order : ByteOrder) : order.marker.length = 2 := by
  cases order <;> rfl

/-- The header that is read where one was written. -/
def written (description : String) (order : ByteOrder) : Header where
  description := readDescription (encodeDescription description)
  order := order

/-- A written header is read back. -/
theorem read_encode (description : String) (order : ByteOrder) (rest : List UInt8) :
    (read (encode description order ++ rest)).result = .ok (written description order) := by
  have size := length_encodeDescription description
  have whole : ¬ (encode description order ++ rest).length < headerSize := by
    rw [List.length_append, length_encode]
    exact Nat.not_lt.mpr (Nat.le_add_right _ _)
  have parts : encode description order ++ rest =
      encodeDescription description ++ (List.replicate 8 0 ++ (order.encode 2 formatVersion
        ++ (order.marker ++ rest))) := by
    rw [encode, List.append_assoc, List.append_assoc, List.append_assoc]
  have beforeVersion : (encodeDescription description ++ List.replicate 8 (0 : UInt8)).length =
      versionOffset := by
    rw [List.length_append, size, List.length_replicate]
    rfl
  have beforeMarker : (encodeDescription description ++ List.replicate 8 0
      ++ order.encode 2 formatVersion).length = markerOffset := by
    rw [List.length_append, beforeVersion, order.length_encode]
    rfl
  have marker : ((encode description order ++ rest).drop markerOffset).take 2 = order.marker := by
    rw [parts, ← List.append_assoc, ← List.append_assoc, List.drop_left' beforeMarker,
      List.take_left' (length_marker order)]
  have version : ((encode description order ++ rest).drop versionOffset).take 2 =
      order.encode 2 formatVersion := by
    rw [parts, ← List.append_assoc, List.drop_left' beforeVersion,
      List.take_left' (order.length_encode _ _)]
  have text : (encode description order ++ rest).take descriptionSize =
      encodeDescription description := by
    rw [parts, List.take_left' size]
  have decoded : order.decode (order.encode 2 formatVersion) = formatVersion := by
    rw [order.decode_encode]
    rfl
  rw [read, if_neg whole]
  dsimp only
  rw [marker, ByteOrder.ofMarker?_marker]
  dsimp only
  rw [version, decoded, if_neg (not_not.mpr rfl), text]
  rfl

/-- Only the bytes of a header are looked at. -/
theorem read_append {head : List UInt8} (size : head.length = headerSize) (rest : List UInt8) :
    (read (head ++ rest)).result = (read head).result := by
  have part (start count : Nat) (inside : start + count ≤ headerSize) :
      ((head ++ rest).drop start).take count = (head.drop start).take count := by
    rw [List.drop_append_of_le_length (by omega), List.take_append_of_le_length
      (by rw [List.length_drop]; omega)]
  have marker := part markerOffset 2 (Nat.le_refl headerSize)
  have version := part versionOffset 2 (by decide)
  have text := part 0 descriptionSize (by decide)
  have long : ¬ (head ++ rest).length < headerSize := by
    rw [List.length_append, size]
    exact Nat.not_lt.mpr (Nat.le_add_right _ _)
  rw [List.drop_zero, List.drop_zero] at text
  rw [read, read, if_neg long, if_neg (Nat.not_lt.mpr (Nat.le_of_eq size.symm)), marker, version,
    text]

/-! ### Starts of a text -/

/-- The longest start of a text that takes no more bytes than there is room for. -/
structure LongestStart (room : Nat) (text start : String) : Prop where
  isPrefix : start.toList <+: text.toList
  fits : start.utf8ByteSize ≤ room
  longest : ∀ other : String, other.toList <+: text.toList → other.utf8ByteSize ≤ room →
    other.length ≤ start.length

theorem fitting_isPrefix (room : Nat) (text : List Char) : fitting room text <+: text := by
  induction text generalizing room with
  | nil => exact List.prefix_rfl
  | cons char rest inductionHypothesis =>
    unfold fitting
    dsimp only
    split
    · exact List.cons_prefix_cons.mpr ⟨rfl, inductionHypothesis _⟩
    · exact List.nil_prefix

theorem isPrefix_fitting {room : Nat} {text other : List Char} (start : other <+: text)
    (fits : (other.flatMap Utf8.encodeChar).length ≤ room) : other <+: fitting room text := by
  induction text generalizing room other with
  | nil => exact start
  | cons char rest inductionHypothesis =>
    cases other with
    | nil => exact List.nil_prefix
    | cons first others =>
      obtain ⟨rfl, later⟩ := List.cons_prefix_cons.mp start
      rw [List.flatMap_cons, List.length_append] at fits
      unfold fitting
      dsimp only
      rw [if_pos (Nat.le_trans (Nat.le_add_right _ _) fits)]
      exact List.cons_prefix_cons.mpr ⟨rfl, inductionHypothesis later (by omega)⟩

theorem longestStart_fitting (room : Nat) (text : String) :
    LongestStart room text (String.ofList (fitting room text.toList)) where
  isPrefix := by
    rw [String.toList_ofList]
    exact fitting_isPrefix room text.toList
  fits := Utf8.length_encodeList _ ▸ length_fitting_le room text.toList
  longest other start fits := by
    rw [← Utf8.length_encode] at fits
    rw [String.length_ofList]
    exact (isPrefix_fitting start fits).length_le

theorem LongestStart.eq {room : Nat} {text start : String}
    (longest : LongestStart room text start) :
    start = String.ofList (fitting room text.toList) := by
  have other := longestStart_fitting room text
  apply String.toList_inj.mp
  exact (List.prefix_of_prefix_length_le longest.isPrefix other.isPrefix
    (other.longest start longest.isPrefix longest.fits)).eq_of_length_le
      (longest.longest _ other.isPrefix other.fits)

/-- A text that there is room for is its own longest start. -/
theorem longestStart_self {room : Nat} {text : String} (fits : text.utf8ByteSize ≤ room) :
    LongestStart room text text :=
  ⟨List.prefix_rfl, fits, fun _ start _ => start.length_le⟩

/-! ### Ends of a text -/

/-- A text that does not end in a blank. -/
def Solid (text : String) : Prop := ∀ last ∈ text.toList.getLast?, isBlank last = false

instance (text : String) : Decidable (Solid text) :=
  decidable_of_iff (text.toList.getLast?.all fun last => !isBlank last)
    (by cases ending : text.toList.getLast? <;> simp [Solid, ending])

/-- A text without the blanks at its end. -/
structure Trimmed (text trimmed : String) : Prop where
  blanks : ∃ tail, text.toList = trimmed.toList ++ tail ∧ ∀ char ∈ tail, isBlank char = true
  solid : Solid trimmed

theorem trimmed_trimEnd (text : String) : Trimmed text (String.ofList (trimEnd text.toList)) where
  blanks := by
    refine ⟨text.toList.rtakeWhile isBlank, ?_, fun char member => List.mem_rtakeWhile_imp member⟩
    rw [String.toList_ofList]
    exact List.rdropWhile_append_rtakeWhile.symm
  solid := by
    intro last member
    rw [String.toList_ofList] at member
    obtain ⟨nonempty, rfl⟩ := List.mem_getLast?_eq_getLast member
    exact Bool.eq_false_iff.mpr (List.rdropWhile_last_not isBlank text.toList nonempty)

/-- Blanks behind a text go when it is trimmed. -/
theorem trimEnd_append {blanks : List Char} (all : ∀ char ∈ blanks, isBlank char = true)
    (text : List Char) : trimEnd (text ++ blanks) = trimEnd text := by
  rw [trimEnd, List.reverse_append,
    List.dropWhile_append_of_pos fun char member => all char (List.mem_reverse.mp member)]
  rfl

theorem trimEnd_of_solid {text : String} (solid : Solid text) :
    trimEnd text.toList = text.toList :=
  List.rdropWhile_eq_self_iff.mpr fun nonempty =>
    Bool.eq_false_iff.mp (solid _ (List.getLast?_eq_some_getLast nonempty))

theorem Trimmed.eq {text trimmed : String} (ends : Trimmed text trimmed) :
    trimmed = String.ofList (trimEnd text.toList) := by
  obtain ⟨tail, whole, blanks⟩ := ends.blanks
  rw [whole, trimEnd_append blanks, trimEnd_of_solid ends.solid, String.ofList_toList]

/-! ### Descriptions -/

/-- Spaces behind a text stand behind its first NUL, or go when it is read. -/
theorem trimEnd_cutName_append (text : List Char) (count : Nat) :
    trimEnd (cutName (String.ofList (text ++ List.replicate count ' '))).toList =
      trimEnd (cutName (String.ofList text)).toList := by
  simp only [cutName, String.toList_ofList]
  rw [List.takeWhile_append]
  split
  · rename_i plain
    rw [(List.takeWhile_prefix _).eq_of_length plain]
    refine trimEnd_append (fun char member => ?_) text
    rw [List.eq_of_mem_replicate ((List.takeWhile_prefix _).mem member)]
    rfl
  · rfl

theorem encodeDescription_eq (description : String) :
    ∃ count, encodeDescription description = Utf8.encode
      (String.ofList (fitting descriptionSize description.toList ++ List.replicate count ' ')) := by
  have space : Utf8.encodeChar ' ' = [0x20] := by decide
  refine ⟨descriptionSize - ((fitting descriptionSize description.toList).flatMap
    Utf8.encodeChar).length, ?_⟩
  rw [Utf8.encode, String.toList_ofList, List.flatMap_append, List.flatMap_replicate, space,
    List.flatten_replicate_singleton]
  rfl

/-- A description that was written is read up to its first NUL and without the blanks at its end,
as far as it fits. -/
theorem readDescription_encodeDescription (description : String) :
    readDescription (encodeDescription description) = String.ofList (trimEnd
      (cutName (String.ofList (fitting descriptionSize description.toList))).toList) := by
  obtain ⟨count, spelled⟩ := encodeDescription_eq description
  have read := decodeLossy_beforeNul_encode
    (String.ofList (fitting descriptionSize description.toList ++ List.replicate count ' '))
  rw [readDescription, spelled, ← Element.beforeNul, read, trimEnd_cutName_append]

/-- The description that a header tells: the longest start that fits, cut at the first NUL and
without the blanks at its end. -/
def Tells (description told : String) : Prop :=
  ∃ start, LongestStart descriptionSize description start ∧ Trimmed (cutName start) told

/-- It is the description that is read. -/
theorem tells_iff {description told : String} :
    Tells description told ↔ told = readDescription (encodeDescription description) := by
  rw [readDescription_encodeDescription]
  constructor
  · rintro ⟨start, longest, trimmed⟩
    rw [← longest.eq, ← trimmed.eq]
  · rintro rfl
    exact ⟨_, longestStart_fitting _ _, trimmed_trimEnd _⟩

/-- A description that comes back from a header as it is. -/
structure Kept (description : String) : Prop where
  fits : description.utf8ByteSize ≤ descriptionSize
  plain : NulFree description
  solid : Solid description

theorem Kept.tells {description : String} (kept : Kept description) :
    Tells description description := by
  refine ⟨description, longestStart_self kept.fits, ?_⟩
  rw [(cutName_eq_self_iff _).mpr kept.plain]
  exact ⟨⟨[], (List.append_nil _).symm, fun _ member => absurd member List.not_mem_nil⟩, kept.solid⟩

/-- A description that a header tells is kept from then on. -/
theorem Tells.kept {description told : String} (tells : Tells description told) : Kept told := by
  obtain ⟨start, longest, trimmed⟩ := tells
  -- Cutting and trimming leave a start of what fits already.
  obtain ⟨tail, whole, _⟩ := trimmed.blanks
  have shorter : told.toList <+: (cutName start).toList := ⟨tail, whole.symm⟩
  have first : told.toList <+: start.toList := by
    refine shorter.trans ?_
    rw [cutName, String.toList_ofList]
    exact List.takeWhile_prefix _
  refine ⟨?_, fun char member => nulFree_cutName start char (List.IsPrefix.mem member shorter),
    trimmed.solid⟩
  have size := (List.IsPrefix.flatMap first Utf8.encodeChar).length_le
  exact Nat.le_trans (by rwa [← Utf8.length_encode, ← Utf8.length_encode]) longest.fits

/-! ### The round trip -/

/-- A written header has 128 bytes. It tells one description, and is read back with it, whatever
follows. A description that fits, has no NUL and does not end in a blank is told unchanged. Written
and read once more, what was told stays the same. -/
theorem description_of_written (description : String) (order : ByteOrder) :
    (encode description order).length = 128 ∧
      (∃ told, Tells description told) ∧
      ∀ told, Tells description told →
        (∀ rest, (read (encode description order ++ rest)).result =
          .ok { description := told, version := 0x0100, order }) ∧
        (Kept description → told = description) ∧
        ∀ other rest, (read (encode told other ++ rest)).result =
          .ok { description := told, version := 0x0100, order := other } := by
  refine ⟨length_encode description order, ⟨_, tells_iff.mpr rfl⟩, fun told tells => ?_⟩
  have read := tells_iff.mp tells
  refine ⟨fun rest => ?_, fun kept => ?_, fun other rest => ?_⟩
  · rw [read_encode, written, ← read]
    rfl
  · rw [read, ← tells_iff.mp kept.tells]
  · rw [read_encode, written, ← tells_iff.mp tells.kept.tells]
    rfl

/-- A description that would be cut inside a character of two bytes, with a blank before it. -/
def longDescription : String := String.ofList (List.replicate 114 'a' ++ [' ', 'ż'])

theorem tells_longDescription :
    Tells longDescription (String.ofList (List.replicate 114 'a')) := by
  rw [tells_iff, readDescription_encodeDescription]
  decide +kernel

/-- A description that is cut before its last character, and one that is told unchanged. -/
theorem description_of_written_cut :
    (read (encode longDescription .big ++ [0])).result =
        .ok { description := String.ofList (List.replicate 114 'a'), order := .big } ∧
      (read (encode "ż b" .little ++ [0])).result =
        .ok { description := "ż b", order := .little } := by
  obtain ⟨_, _, long⟩ := description_of_written longDescription .big
  obtain ⟨_, ⟨told, tells⟩, short⟩ := description_of_written "ż b" .little
  have same : told = "ż b" := (short told tells).2.1 ⟨by decide, by decide, by decide⟩
  subst same
  exact ⟨(long _ tells_longDescription).1 [0], (short _ tells).1 [0]⟩

end Header

end MatFormat
