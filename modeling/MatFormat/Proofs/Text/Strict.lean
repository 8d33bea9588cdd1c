/-
This file proves that strict reading accepts exactly the bytes that spell a text, and gives that
text. Spelled texts are accepted because their pieces are their characters. For the other way the
scan is followed byte by byte: a started character carries the range of the codes that it can still
become, and all of them are spelled with the bytes that were read and a continuation for each byte
that is missing. The bytes of a text are those of the Unicode standard as the library has them.
-/

import MatFormat.Proofs.Text.Utf8

namespace MatFormat

namespace Utf8

/-! ### Characters by the number of their bytes -/

/-- The last bytes of a character, six bits of its code in each. -/
def continuations : (count : Nat) → (code : Nat) → List UInt8
  | 0, _ => []
  | count + 1, code => UInt8.ofNat (0x80 + code / 64 ^ count % 64) :: continuations count code

/-- The marks of leading bytes, by the bytes that are missing after the next one, each with the
first of the codes that are spelled with it and their end. -/
inductive Leads : (missing mark first limit : Nat) → Prop where
  | two : Leads 0 0xC0 0x80 0x800
  | three : Leads 1 0xE0 0x800 0x10000
  | four : Leads 2 0xF0 0x10000 0x110000

theorem encodeChar_one {code : Nat} (small : code < 0x80) :
    encodeChar (Char.ofNat code) = [UInt8.ofNat code] := by
  unfold encodeChar
  rw [toNat_ofNat_of_scalar (by omega)]
  exact if_pos small

/-- The other characters are a leading byte and continuations. -/
theorem encodeChar_of_leads {missing mark first limit code : Nat}
    (leads : Leads missing mark first limit)
    (scalar : code < 0xD800 ∨ 0xDFFF < code ∧ code < 0x110000)
    (atLeast : first ≤ code) (below : code < limit) :
    encodeChar (Char.ofNat code) =
      UInt8.ofNat (mark + code / 64 ^ (missing + 1)) :: continuations (missing + 1) code := by
  unfold encodeChar
  rw [toNat_ofNat_of_scalar scalar]
  dsimp only
  cases leads with
  | two =>
    rw [if_neg (by omega), if_pos below]
    simp only [continuations, Nat.pow_zero, Nat.zero_add, Nat.pow_one, Nat.div_one]
  | three =>
    rw [if_neg (by omega), if_neg (by omega), if_pos below]
    simp only [continuations, Nat.pow_zero, Nat.pow_one, Nat.div_one, Nat.reduceAdd, Nat.reducePow]
  | four =>
    rw [if_neg (by omega), if_neg (by omega), if_neg (by omega)]
    simp only [continuations, Nat.pow_zero, Nat.pow_one, Nat.div_one, Nat.reduceAdd, Nat.reducePow]

/-! ### Started characters -/

/-- A code that a started character can still become. -/
def Start.Reaches (start : Start) (code : Nat) : Prop :=
  (start.bits * 64 + (start.low - 0x80)) * 64 ^ start.missing ≤ code ∧
    code < (start.bits * 64 + (start.high - 0x80) + 1) * 64 ^ start.missing

/-- The bits so far are the first ones of every code that is reached. -/
theorem Start.Reaches.quotient {start : Start} {code : Nat} (high : start.high ≤ 0xBF)
    (reaches : start.Reaches code) :
    code / 64 ^ (start.missing + 1) = start.bits := by
  have lower := (Nat.le_div_iff_mul_le (Nat.pow_pos (by decide))).mpr reaches.1
  have upper := Nat.div_lt_of_lt_mul (Nat.mul_comm _ _ ▸ reaches.2)
  rw [Nat.pow_succ, ← Nat.div_div_eq_div_mul]
  omega

theorem Start.Reaches.scalar {start : Start} {code : Nat} (sound : start.Sound)
    (reaches : start.Reaches code) : code < 0xD800 ∨ 0xDFFF < code ∧ code < 0x110000 := by
  obtain ⟨atLeast, below⟩ := reaches
  have scalar := sound.scalar
  omega

/-- Every code that is reached after one more byte was reached before. -/
theorem Start.Reaches.of_next {start : Start} {byte missing code : Nat}
    (needs : start.missing = missing + 1) (low : start.low ≤ byte) (high : byte ≤ start.high)
    (reaches : Start.Reaches
      ⟨start.bits * 64 + (byte - 0x80), start.length + 1, missing, 0x80, 0xBF⟩ code) :
    start.Reaches code := by
  obtain ⟨atLeast, below⟩ := reaches
  dsimp only at atLeast below
  unfold Start.Reaches
  rw [needs]
  exact ⟨Nat.le_trans (Start.first_le_next low missing) atLeast,
    Nat.lt_of_lt_of_le below (Start.next_le_last high missing)⟩

/-- A byte that goes on with a character is the continuation of every code that it leaves. -/
theorem Start.Reaches.continuation {bits length missing code : Nat} {byte : UInt8}
    (low : 0x80 ≤ byte.toNat) (high : byte.toNat ≤ 0xBF)
    (reaches : Start.Reaches
      ⟨bits * 64 + (byte.toNat - 0x80), length, missing, 0x80, 0xBF⟩ code) :
    continuations (missing + 2) code = byte :: continuations (missing + 1) code := by
  have quotient := reaches.quotient (Nat.le_refl _)
  have six : 0x80 + code / 64 ^ (missing + 1) % 64 = byte.toNat := by
    rw [quotient]
    dsimp only
    omega
  rw [continuations, six, UInt8.ofNat_toNat]

/-- Every code that a started character can become is spelled with the bytes that were read and a
continuation for each byte that is missing. -/
structure Start.Opens (start : Start) (read : List UInt8) : Prop where
  sound : start.Sound
  spells : ∀ code, start.Reaches code →
    encodeChar (Char.ofNat code) = read ++ continuations (start.missing + 1) code

/-- A leading byte opens the characters that it starts if all of them are spelled with it. -/
theorem Start.opens_of_leads {byte : UInt8} {start : Start} (sound : start.Sound)
    {mark first limit : Nat} (leads : Leads start.missing mark first limit)
    (lead : mark + start.bits = byte.toNat)
    (atLeast : first ≤ (start.bits * 64 + (start.low - 0x80)) * 64 ^ start.missing)
    (below : (start.bits * 64 + (start.high - 0x80) + 1) * 64 ^ start.missing ≤ limit) :
    start.Opens [byte] := by
  refine ⟨sound, fun code reaches => ?_⟩
  rw [encodeChar_of_leads leads (reaches.scalar sound) (Nat.le_trans atLeast reaches.1)
    (Nat.lt_of_lt_of_le reaches.2 below), reaches.quotient sound.high_le, lead, UInt8.ofNat_toNat,
    List.singleton_append]

/-- The leading bytes are those of the characters that they start. -/
theorem Start.opens_of_ofByte? {byte : UInt8} {start : Start}
    (started : Start.ofByte? byte.toNat = some start) : start.Opens [byte] := by
  have sound := Start.sound_of_ofByte? started
  unfold Start.ofByte? at started
  split at started
  · obtain rfl := Option.some.inj started
    refine opens_of_leads sound .two ?_ ?_ ?_ <;> dsimp only <;> omega
  split at started
  · obtain rfl := Option.some.inj started
    refine opens_of_leads sound .three ?_ ?_ ?_ <;> dsimp only <;> omega
  split at started
  · obtain rfl := Option.some.inj started
    refine opens_of_leads sound .three ?_ ?_ ?_ <;> dsimp only <;> omega
  split at started
  · obtain rfl := Option.some.inj started
    refine opens_of_leads sound .three ?_ ?_ ?_ <;> dsimp only <;> omega
  split at started
  · obtain rfl := Option.some.inj started
    refine opens_of_leads sound .four ?_ ?_ ?_ <;> dsimp only <;> omega
  split at started
  · obtain rfl := Option.some.inj started
    refine opens_of_leads sound .four ?_ ?_ ?_ <;> dsimp only <;> omega
  split at started
  · obtain rfl := Option.some.inj started
    refine opens_of_leads sound .four ?_ ?_ ?_ <;> dsimp only <;> omega
  · cases started

theorem Start.Opens.next {start : Start} {read : List UInt8} (opens : start.Opens read)
    {byte : UInt8} {missing : Nat} (needs : start.missing = missing + 1)
    (low : start.low ≤ byte.toNat) (high : byte.toNat ≤ start.high) :
    Start.Opens ⟨start.bits * 64 + (byte.toNat - 0x80), start.length + 1, missing, 0x80, 0xBF⟩
      (read ++ [byte]) := by
  refine ⟨opens.sound.next needs low high, fun code reaches => ?_⟩
  have spelled := opens.spells code (reaches.of_next needs low high)
  rw [needs, reaches.continuation (Nat.le_trans opens.sound.low_ge low)
    (Nat.le_trans high opens.sound.high_le)] at spelled
  rw [spelled, List.append_assoc, List.singleton_append]

/-- The last byte of a character completes its bytes. -/
theorem Start.Opens.complete {start : Start} {read : List UInt8} (opens : start.Opens read)
    {byte : UInt8} (needs : start.missing = 0) (low : start.low ≤ byte.toNat)
    (high : byte.toNat ≤ start.high) :
    encodeChar (Char.ofNat (start.bits * 64 + (byte.toNat - 0x80))) = read ++ [byte] := by
  have lowest := Nat.le_trans opens.sound.low_ge low
  have highest := Nat.le_trans high opens.sound.high_le
  have reaches : start.Reaches (start.bits * 64 + (byte.toNat - 0x80)) := by
    unfold Start.Reaches
    rw [needs]
    omega
  have six : 0x80 + (start.bits * 64 + (byte.toNat - 0x80)) % 64 = byte.toNat := by omega
  rw [opens.spells _ reaches, needs, continuations, Nat.pow_zero, Nat.div_one, six,
    UInt8.ofNat_toNat]
  rfl

/-! ### Scans -/

/-- If all pieces are characters, what was read are their bytes. The pieces stand latest first. -/
def Spelled (pieces : List Piece) (read : List UInt8) : Prop :=
  ∀ text : List Char, pieces = text.map Piece.char → read = text.reverse.flatMap encodeChar

/-- What was read are the bytes of the finished pieces and those of the started character. -/
def Scan.Spells (scan : Scan) (read : List UInt8) : Prop :=
  match scan.start with
  | none => Spelled scan.pieces read
  | some start => ∃ finished begun, read = finished ++ begun ∧ Spelled scan.pieces finished ∧
      start.Opens begun

theorem Spelled.char {pieces : List Piece} {read : List UInt8} (spelled : Spelled pieces read)
    (char : Char) : Spelled (.char char :: pieces) (read ++ encodeChar char) := by
  intro text chars
  obtain ⟨_, earlier, rfl, same, rest⟩ := List.map_eq_cons_iff.mp chars.symm
  rw [Piece.char.inj same, List.reverse_cons, List.flatMap_append, List.flatMap_singleton,
    spelled earlier rest.symm]

theorem spelled_of_invalid (pieces : List Piece) (length : Nat) (read : List UInt8) :
    Spelled (.invalid length :: pieces) read := by
  intro text chars
  obtain ⟨_, _, _, same, _⟩ := List.map_eq_cons_iff.mp chars.symm
  cases same

theorem Spelled.lead {pieces : List Piece} {read : List UInt8} (spelled : Spelled pieces read)
    (byte : UInt8) : (Scan.lead pieces byte.toNat).Spells (read ++ [byte]) := by
  unfold Scan.lead
  split
  · rename_i small
    have next := spelled.char (Char.ofNat byte.toNat)
    rwa [encodeChar_one small, UInt8.ofNat_toNat] at next
  split
  · rename_i start started
    exact ⟨read, [byte], rfl, spelled, Start.opens_of_ofByte? started⟩
  · exact spelled_of_invalid pieces 1 _

theorem Scan.Spells.push {scan : Scan} {read : List UInt8} (spells : scan.Spells read)
    (byte : UInt8) : (scan.push byte).Spells (read ++ [byte]) := by
  obtain ⟨pieces, started⟩ := scan
  cases started with
  | none => exact Spelled.lead spells byte
  | some start =>
    obtain ⟨finished, begun, rfl, spelled, opens⟩ := spells
    by_cases within : start.low ≤ byte.toNat ∧ byte.toNat ≤ start.high
    · cases needs : start.missing with
      | zero =>
        rw [push_of_complete pieces start byte needs within.1 within.2, List.append_assoc,
          ← opens.complete needs within.1 within.2]
        exact spelled.char _
      | succ missing =>
        rw [push_of_missing pieces start byte missing needs within.1 within.2, List.append_assoc]
        exact ⟨finished, _, rfl, spelled, opens.next needs within.1 within.2⟩
    · -- The character ends as invalid, so the pieces spell no text and nothing is left to show.
      rw [Scan.push]
      dsimp only
      rw [if_neg within]
      exact (spelled_of_invalid pieces start.length _).lead byte

theorem Scan.Spells.foldl {scan : Scan} {read : List UInt8} (spells : scan.Spells read)
    (bytes : List UInt8) : (bytes.foldl Scan.push scan).Spells (read ++ bytes) := by
  induction bytes generalizing scan read with
  | nil => rwa [List.append_nil]
  | cons byte rest inductionHypothesis =>
    have scanned := inductionHypothesis (spells.push byte)
    rwa [List.append_assoc, List.singleton_append] at scanned

/-- If all pieces of a run are characters, the run is spelled with them. -/
theorem spelled_of_pieces {bytes : List UInt8} {text : List Char}
    (chars : pieces bytes = text.map Piece.char) : bytes = text.flatMap encodeChar := by
  have start : ({} : Scan).Spells [] := by
    intro text none
    rw [List.map_eq_nil_iff.mp none.symm]
    rfl
  have scanned := start.foldl bytes
  rw [List.nil_append] at scanned
  unfold pieces Scan.finish at chars
  unfold Scan.Spells at scanned
  split at chars
  · rename_i ended
    rw [ended] at scanned
    have latestFirst : (bytes.foldl Scan.push {}).pieces = text.reverse.map Piece.char := by
      rw [List.map_reverse, ← chars, List.reverse_reverse]
    rw [scanned _ latestFirst, List.reverse_reverse]
  · rename_i start _
    have member : Piece.incomplete start.length ∈ text.map Piece.char := by
      rw [← chars, List.mem_reverse]
      exact List.mem_cons_self
    obtain ⟨_, _, same⟩ := List.mem_map.mp member
    cases same

/-! ### Strict reading -/

theorem Piece.collect_map_char (text : List Char) (index : Nat) (known : List Char) :
    Piece.collect index known (text.map Piece.char) = .ok (known.reverse ++ text) := by
  induction text generalizing index known with
  | nil => rw [List.map_nil, collect, List.append_nil]
  | cons char rest inductionHypothesis =>
    rw [List.map_cons, collect, inductionHypothesis, List.reverse_cons, List.append_assoc,
      List.singleton_append]

theorem Piece.eq_map_char_of_collect {pieces : List Piece} {index : Nat} {known text : List Char}
    (collected : Piece.collect index known pieces = .ok text) :
    ∃ rest : List Char, pieces = rest.map Piece.char := by
  induction pieces generalizing index known with
  | nil => exact ⟨[], rfl⟩
  | cons piece rest inductionHypothesis =>
    cases piece with
    | char char =>
      obtain ⟨chars, rfl⟩ := inductionHypothesis collected
      exact ⟨char :: chars, rfl⟩
    | invalid length => cases collected
    | incomplete length => cases collected

/-- Strict reading accepts exactly the bytes of a text, and gives the text. -/
theorem decode_eq_ok {bytes : List UInt8} {text : List Char} :
    decode bytes = .ok text ↔ bytes = text.flatMap encodeChar := by
  constructor
  · intro decoded
    obtain ⟨chars, all⟩ := Piece.eq_map_char_of_collect decoded
    rw [decode, all, Piece.collect_map_char] at decoded
    rw [← Except.ok.inj decoded]
    exact spelled_of_pieces all
  · rintro rfl
    rw [decode, pieces_encodeList, Piece.collect_map_char]
    rfl

/-! ### The standard -/

/-- The bytes of a character are those that the library gives it, which takes the rest of the
leading byte and puts the mark last. -/
theorem encodeChar_eq (char : Char) : encodeChar char = String.utf8EncodeChar char := by
  have scalar := isScalar char
  have same : char.val.toNat = char.toNat := rfl
  unfold encodeChar String.utf8EncodeChar
  dsimp only
  rw [same]
  by_cases one : char.toNat < 0x80
  · rw [if_pos one, if_pos (Nat.le_of_lt_succ one)]
  have past : ¬char.toNat ≤ 127 := by omega
  rw [if_neg one, if_neg past, Nat.add_comm 0x80]
  by_cases two : char.toNat < 0x800
  · have lead : 0xC0 + char.toNat / 64 = char.toNat / 64 % 32 + 0xC0 := by omega
    rw [if_pos two, if_pos (Nat.le_of_lt_succ two), lead]
  have past : ¬char.toNat ≤ 2047 := by omega
  rw [if_neg two, if_neg past, Nat.add_comm 0x80]
  by_cases three : char.toNat < 0x10000
  · have lead : 0xE0 + char.toNat / 4096 = char.toNat / 4096 % 16 + 0xE0 := by omega
    rw [if_pos three, if_pos (Nat.le_of_lt_succ three), lead]
  have past : ¬char.toNat ≤ 65535 := by omega
  have lead : 0xF0 + char.toNat / 262144 = char.toNat / 262144 % 8 + 0xF0 := by omega
  rw [if_neg three, if_neg past, Nat.add_comm 0x80, lead]

theorem toByteArray_encodeList (text : List Char) :
    (text.flatMap encodeChar).toByteArray = text.utf8Encode := by
  rw [funext encodeChar_eq]
  rfl

/-- The bytes of a text are as many as the library counts. -/
theorem length_encodeList (text : List Char) :
    (text.flatMap encodeChar).length = (String.ofList text).utf8ByteSize := by
  rw [String.utf8ByteSize, String.toByteArray_ofList, ← toByteArray_encodeList,
    List.size_toByteArray]

theorem length_encode (text : String) : (encode text).length = text.utf8ByteSize := by
  rw [encode, length_encodeList, String.ofList_toList]

/-- Strict reading accepts exactly the bytes that are valid. -/
theorem exists_decode_iff {bytes : List UInt8} :
    (∃ text, decode bytes = .ok text) ↔ bytes.toByteArray.IsValidUTF8 := by
  simp only [decode_eq_ok]
  constructor
  · rintro ⟨text, rfl⟩
    rw [toByteArray_encodeList]
    exact ByteArray.isValidUTF8_utf8Encode
  · rintro ⟨text, spelled⟩
    rw [← toByteArray_encodeList] at spelled
    exact ⟨text, List.toByteArray_inj.mp spelled⟩

end Utf8

end MatFormat
