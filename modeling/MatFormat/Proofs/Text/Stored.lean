/-
This file proves that a text reads the same however it is stored. It may stand in a payload as the
bytes of UTF-8, as code units of 16 bits or, if it has no character above the first 65536, as codes
of 32 bits. The code units that are read are those of the text in each case, and a name ends at the
first NUL of any of these runs. Bytes that are no UTF-8 are refused whatever is expected of them.
-/

import MatFormat.Proofs.Layout.Run
import MatFormat.Proofs.Text.Strict
import Mathlib.Data.List.Basic

namespace MatFormat

variable {order : ByteOrder} {type : DataType} {payload : List UInt8} {element : Element}

/-! ### Stored texts -/

/-- The code of a character as a number of 32 bits. -/
def codeWord (char : Char) : NumericClass.uint32.Value := BitVec.ofNat _ char.toNat

/-- All characters of a text are among the first 65536. -/
def Basic (text : String) : Prop := ∀ char ∈ text.toList, char.toNat < 0x10000

instance (text : String) : Decidable (Basic text) :=
  decidable_of_iff (text.toList.all fun char => decide (char.toNat < 0x10000)) (by simp [Basic])

/-- The payloads that hold a text. -/
inductive StoredText (order : ByteOrder) (text : String) : DataType → List UInt8 → Prop where
  | bytes : StoredText order text .utf8 (Utf8.encode text)
  | units {type : DataType} (wide : type = .utf16 ∨ type = .uint16) :
      StoredText order text type ((Utf16.encode text).flatMap (NumericClass.uint16.write order))
  | codes (basic : Basic text) : StoredText order text .utf32
      ((text.toList.map codeWord).flatMap (NumericClass.uint32.write order))

/-- A run that is empty or starts with NUL. -/
def NulLed {Item : Type} [OfNat Item 0] (tail : List Item) : Prop := ∀ first ∈ tail.head?, first = 0

instance {Item : Type} [OfNat Item 0] [DecidableEq Item] (tail : List Item) :
    Decidable (NulLed tail) :=
  decidable_of_iff (tail.head?.all fun first => decide (first = 0))
    (by cases start : tail.head? <;> simp [NulLed, start])

/-- The payloads that hold a name, which may go on behind a NUL. -/
inductive StoredName (order : ByteOrder) (name : String) : DataType → List UInt8 → Prop where
  | bytes {type : DataType} {tail : List UInt8}
      (narrow : type = .utf8 ∨ type = .int8 ∨ type = .uint8) (led : NulLed tail) :
      StoredName order name type (Utf8.encode name ++ tail)
  | units {type : DataType} {tail : List CodeUnit} (wide : type = .utf16 ∨ type = .uint16)
      (led : NulLed tail) : StoredName order name type
        ((Utf16.encode name ++ tail).flatMap (NumericClass.uint16.write order))
  | codes {tail : List NumericClass.uint32.Value} (basic : Basic name) (led : NulLed tail) :
      StoredName order name .utf32
        ((name.toList.map codeWord ++ tail).flatMap (NumericClass.uint32.write order))

/-! ### Units -/

/-- Numbers of 32 bits are read as their lower halves. -/
theorem Element.values_of_codes {codes : List NumericClass.uint32.Value}
    (holds : element.Holds order .utf32 (codes.flatMap (NumericClass.uint32.write order))) :
    element.values .uint16 = .ok (codes.map fun code => BitVec.ofNat _ code.toNat) := by
  rw [values_of_holds holds rfl]
  refine congrArg Except.ok (List.map_congr_left fun code _ => ?_)
  rw [NumericClass.load_integer rfl rfl]
  exact BitVec.ofInt_natCast _ _

theorem ofNat_codeWord {char : Char} (basic : char.toNat < 0x10000) :
    [(BitVec.ofNat _ (codeWord char).toNat : CodeUnit)] = Utf16.encodeChar char := by
  have small : char.toNat < 2 ^ (8 * NumericClass.uint32.size) :=
    Nat.lt_trans basic (by decide)
  unfold Utf16.encodeChar
  dsimp only
  rw [if_pos basic, codeWord, BitVec.toNat_ofNat, Nat.mod_eq_of_lt small]

/-- The lower halves of the codes of a text are its units. -/
theorem map_ofNat_codeWord {text : String} (basic : Basic text) :
    (text.toList.map codeWord).map (fun code => (BitVec.ofNat _ code.toNat : CodeUnit)) =
      Utf16.encode text := by
  rw [Utf16.encode, Utf16.encodeList, List.map_map, List.map_eq_flatMap]
  exact List.flatMap_congr fun char member => ofNat_codeWord (basic char member)

/-- Units that are read if as many are expected, and refused otherwise. -/
structure Element.ReadsUnits (element : Element) (units : List CodeUnit) : Prop where
  whole : element.codeUnits units.length = .ok units
  short : ∀ expected, units.length < expected →
    element.codeUnits expected = .error (.truncated element.offset expected units.length)
  surplus : ∀ expected < units.length, element.codeUnits expected =
    .error (.malformed element.offset (.surplusValues expected units.length))

theorem Element.readsUnits_of_counted {units : List CodeUnit}
    (counted : ∀ expected, element.codeUnits expected =
      element.checkCount expected units.length >>= fun _ => pure units) :
    element.ReadsUnits units := by
  refine ⟨?_, fun expected short => ?_, fun expected surplus => ?_⟩
  · rw [counted, checkCount_self]
    rfl
  · rw [counted, checkCount, if_pos short]
    rfl
  · rw [counted, checkCount, if_neg (Nat.lt_asymm surplus), if_pos surplus]
    rfl

theorem Element.readsUnits_of_decode {text : List Char} (spelled : element.tag.type = .utf8)
    (decoded : Utf8.decode element.bytes = .ok text) :
    element.ReadsUnits (Utf16.encodeList text) := by
  refine readsUnits_of_counted fun expected => ?_
  rw [codeUnits, if_pos spelled, decoded]
  rfl

theorem ne_utf8_of_wide (wide : type = .utf16 ∨ type = .uint16) : type ≠ .utf8 := by
  rcases wide with rfl | rfl <;> decide

/-- However a text is stored, its units are read. -/
theorem Element.readsUnits_of_stored {text : String} (stored : StoredText order text type payload)
    (holds : element.Holds order type payload) : element.ReadsUnits (Utf16.encode text) := by
  cases stored with
  | bytes =>
    refine readsUnits_of_decode holds.type (Utf8.decode_eq_ok.mpr ?_)
    rw [Element.bytes, holds.bytes, Utf8.encode]
  | units wide =>
    exact readsUnits_of_counted
      (codeUnits_of_values (holds.type ▸ ne_utf8_of_wide wide) (values_of_units wide holds))
  | codes basic =>
    have read := values_of_codes holds
    rw [map_ofNat_codeWord basic] at read
    refine readsUnits_of_counted (codeUnits_of_values ?_ read)
    rw [holds.type]
    decide

/-- Bytes that are no UTF-8 are refused, whatever number of units is expected. -/
theorem Element.codeUnits_of_invalid (holds : element.Holds order .utf8 payload)
    (invalid : ¬payload.toByteArray.IsValidUTF8) (expected : Nat) :
    ∃ fault, element.codeUnits expected =
      .error (.malformed element.offset (.invalidText fault)) := by
  cases decoded : Utf8.decode payload with
  | ok text => exact absurd (Utf8.exists_decode_iff.mp ⟨text, decoded⟩) invalid
  | error fault =>
    refine ⟨fault, ?_⟩
    rw [codeUnits, if_pos holds.type, Element.bytes, holds.bytes, decoded]
    rfl

/-! ### Names -/

theorem takeWhile_append_of_led {Item : Type} {keep : Item → Bool} {name tail : List Item}
    (kept : ∀ item ∈ name, keep item = true) (led : ∀ first ∈ tail.head?, keep first = false) :
    (name ++ tail).takeWhile keep = name := by
  rw [List.takeWhile_append_of_pos kept]
  cases tail with
  | nil => rw [List.takeWhile_nil, List.append_nil]
  | cons first rest =>
    rw [List.takeWhile_cons_of_neg (by rw [led first rfl]; exact Bool.false_ne_true),
      List.append_nil]

/-- Bytes are read up to the first NUL. -/
theorem Element.name_of_bytes {name : String} (plain : NulFree name) {tail : List UInt8}
    (led : NulLed tail) (narrow : type = .utf8 ∨ type = .int8 ∨ type = .uint8)
    (holds : element.Holds order type (Utf8.encode name ++ tail)) : element.name = .ok name := by
  have kept : ∀ byte ∈ Utf8.encode name, (byte != 0) = true := by
    intro byte member
    obtain ⟨char, charMember, byteMember⟩ := List.mem_flatMap.mp member
    rw [bne_iff_ne]
    rintro rfl
    exact Utf8.zero_not_mem_encodeChar (plain char charMember) byteMember
  have cut : beforeNul (Utf8.encode name ++ tail) = Utf8.encode name :=
    takeWhile_append_of_led kept fun first here => by rw [led first here]; rfl
  have read : element.name = .ok (Utf8.decodeLossy (beforeNul element.bytes)) := by
    rw [Element.name, holds.type]
    rcases narrow with rfl | rfl | rfl <;> rfl
  rw [read, Element.bytes, holds.bytes, cut, Utf8.encode, Utf8.decodeLossy_encodeList,
    String.ofList_toList]

/-- Units are read up to the first NUL. -/
theorem Element.name_of_values {name : String} (plain : NulFree name) {tail : List CodeUnit}
    (led : NulLed tail) (wide : type = .utf16 ∨ type = .uint16 ∨ type = .utf32)
    (typed : element.tag.type = type)
    (values : element.values .uint16 = .ok (Utf16.encode name ++ tail)) :
    element.name = .ok name := by
  have kept : ∀ unit ∈ Utf16.encode name, (unit.toNat != 0) = true := fun unit member =>
    bne_iff_ne.mpr (Utf16.ne_zero_of_mem_encodeList plain unit member)
  have cut : (Utf16.encode name ++ tail).takeWhile (fun unit => unit.toNat != 0) =
      Utf16.encode name :=
    takeWhile_append_of_led kept fun first here => by rw [led first here]; rfl
  have read : element.name = (element.values .uint16 >>= fun units =>
      pure (Utf16.decodeLossy (units.takeWhile fun unit => unit.toNat != 0))) := by
    rw [Element.name, typed]
    rcases wide with rfl | rfl | rfl <;> rfl
  rw [read, Outcome.bind_of_ok values, cut, Utf16.decodeLossy_encode]
  rfl

/-- However a name is stored, it is read up to the first NUL. -/
theorem Element.name_of_stored {name : String} (plain : NulFree name)
    (stored : StoredName order name type payload) (holds : element.Holds order type payload) :
    element.name = .ok name := by
  cases stored with
  | bytes narrow led => exact name_of_bytes plain led narrow holds
  | units wide led =>
    exact name_of_values plain led (wide.imp_right Or.inl) holds.type (values_of_units wide holds)
  | codes basic led =>
    have read := values_of_codes holds
    rw [List.map_append, map_ofNat_codeWord basic] at read
    refine name_of_values plain (fun first here => ?_) (Or.inr (Or.inr rfl)) holds.type read
    rw [List.head?_map] at here
    obtain ⟨code, there, rfl⟩ := Option.map_eq_some_iff.mp here
    rw [led code there]
    rfl

/-! ### Texts from every encoding -/

/-- The units of a text are read the same however it is stored, if as many are expected, and
otherwise the run is too short or too long. Bytes of the type of UTF-8 that are none are refused.
A name without NUL is read the same however it is stored, whatever stands behind a NUL. -/
theorem text_of_stored (holds : element.Holds order type payload) :
    (∀ text, StoredText order text type payload → element.ReadsUnits (Utf16.encode text)) ∧
    (type = .utf8 → ¬payload.toByteArray.IsValidUTF8 → ∀ expected, ∃ fault,
      element.codeUnits expected = .error (.malformed element.offset (.invalidText fault))) ∧
    ∀ name, NulFree name → StoredName order name type payload → element.name = .ok name := by
  refine ⟨fun text stored => Element.readsUnits_of_stored stored holds, ?_,
    fun name plain stored => Element.name_of_stored plain stored holds⟩
  rintro rfl
  exact Element.codeUnits_of_invalid holds

/-- A text with a character of two bytes and one of two units, stored in both ways that can hold
it, a leading byte without the byte that it asks for, and a name with more behind a NUL. -/
theorem text_of_stored_emoji :
    (Element.single .big .utf8 [0xC3, 0xA9, 0xF0, 0x9F, 0x98, 0x80]).ReadsUnits
        [0xE9, 0xD83D, 0xDE00] ∧
      (Element.single .big .utf16 [0x00, 0xE9, 0xD8, 0x3D, 0xDE, 0x00]).ReadsUnits
        [0xE9, 0xD83D, 0xDE00] ∧
      (Element.single .little .utf32 [0x61, 0, 0, 0, 0xE9, 0, 0, 0]).ReadsUnits [0x61, 0xE9] ∧
      (∃ fault, (Element.single .big .utf8 [0x61, 0xC3]).codeUnits 0 =
        .error (.malformed 0 (.invalidText fault))) ∧
      (Element.single .little .int8 [0xC3, 0xA9, 0, 0xFF]).name = .ok "é" ∧
      (Element.single .little .utf32 [0xE9, 0, 0, 0, 0, 0, 0, 0, 0x61, 0, 0, 0]).name =
        .ok "é" := by
  have apart (order : ByteOrder) (type : DataType) (payload : List UInt8) :=
    text_of_stored (Element.holds_single order type payload)
  refine ⟨(apart _ _ _).1 "é😀" .bytes, (apart _ _ _).1 "é😀" (.units (Or.inl rfl)),
    (apart _ _ _).1 "aé" (.codes ?_), (apart _ _ _).2.1 rfl ?_ 0,
    (apart _ _ _).2.2 "é" (by decide) (.bytes (Or.inr (Or.inl rfl)) ?_),
    (apart _ _ _).2.2 "é" (by decide) (@StoredName.codes .little "é" [0, 0x61] ?_ ?_)⟩
  · decide
  · intro valid
    obtain ⟨text, decoded⟩ := Utf8.exists_decode_iff.mpr valid
    cases decoded
  · decide
  · decide
  · decide

end MatFormat
