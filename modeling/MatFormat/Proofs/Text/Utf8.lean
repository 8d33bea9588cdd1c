/-
This file proves that lenient reading gives a spelled text back, and that bytes without NUL
never read as a text with NUL. Both follow the scan byte by byte. For the first, the bytes of
one character are four cases by the number of bytes. For the second, a started character
carries the range of the codes it can still become, and that range holds neither codes below
128 nor codes that no character has.
-/

import MatFormat.Text.Utf8

namespace MatFormat

namespace Utf8

/-! ### The first byte -/

theorem isScalar (char : Char) :
    char.toNat < 0xD800 ∨ 0xDFFF < char.toNat ∧ char.toNat < 0x110000 := char.valid

theorem toNat_ofNat_of_lt {value : Nat} (small : value < 256) :
    (UInt8.ofNat value).toNat = value := by
  rw [UInt8.toNat_ofNat']
  exact Nat.mod_eq_of_lt small

theorem push_lead (pieces : List Piece) (byte : UInt8) :
    Scan.push ⟨pieces, none⟩ byte = Scan.lead pieces byte.toNat := rfl

theorem lead_of_start {byte : Nat} {start : Start} (started : Start.ofByte? byte = some start)
    (high : 0x80 ≤ byte) (pieces : List Piece) :
    Scan.lead pieces byte = ⟨pieces, some start⟩ := by
  unfold Scan.lead
  rw [if_neg (by omega), started]

/-- A byte in the expected range goes on with a started character. -/
theorem push_of_missing (pieces : List Piece) (start : Start) (byte : UInt8) (missing : Nat)
    (needs : start.missing = missing + 1) (low : start.low ≤ byte.toNat)
    (high : byte.toNat ≤ start.high) :
    Scan.push ⟨pieces, some start⟩ byte =
      ⟨pieces, some ⟨start.bits * 64 + (byte.toNat - 0x80), start.length + 1, missing, 0x80,
        0xBF⟩⟩ := by
  simp only [Scan.push, if_pos (And.intro low high), needs]

/-- A byte in the expected range ends a started character that needs no byte after it. -/
theorem push_of_complete (pieces : List Piece) (start : Start) (byte : UInt8)
    (needs : start.missing = 0) (low : start.low ≤ byte.toNat) (high : byte.toNat ≤ start.high) :
    Scan.push ⟨pieces, some start⟩ byte =
      ⟨.char (Char.ofNat (start.bits * 64 + (byte.toNat - 0x80))) :: pieces, none⟩ := by
  simp only [Scan.push, if_pos (And.intro low high), needs]

theorem ofByte?_two {code : Nat} (atLeast : 0x80 ≤ code) (below : code < 0x800) :
    Start.ofByte? (0xC0 + code / 64) = some ⟨code / 64, 1, 0, 0x80, 0xBF⟩ := by
  unfold Start.ofByte?
  rw [if_pos (by omega), Nat.add_sub_cancel_left]

/-- The leading byte of a character of three bytes starts it, and the second byte is in the
range that the start asks for. -/
theorem ofByte?_three {code : Nat} (atLeast : 0x800 ≤ code) (below : code < 0x10000)
    (scalar : code < 0xD800 ∨ 0xDFFF < code) :
    ∃ low high, Start.ofByte? (0xE0 + code / 4096) = some ⟨code / 4096, 1, 1, low, high⟩ ∧
      low ≤ 0x80 + code / 64 % 64 ∧ 0x80 + code / 64 % 64 ≤ high := by
  unfold Start.ofByte?
  rw [if_neg (by omega)]
  by_cases first : 0xE0 + code / 4096 = 0xE0
  · have bits : code / 4096 = 0 := by omega
    rw [if_pos first, bits]
    exact ⟨_, _, rfl, by omega, by omega⟩
  by_cases surrogates : 0xE0 + code / 4096 = 0xED
  · have bits : code / 4096 = 0xD := by omega
    rw [if_neg first, if_pos surrogates, bits]
    exact ⟨_, _, rfl, by omega, by omega⟩
  rw [if_neg first, if_neg surrogates, if_pos (by omega), Nat.add_sub_cancel_left]
  exact ⟨_, _, rfl, by omega, by omega⟩

/-- The leading byte of a character of four bytes starts it, and the second byte is in the
range that the start asks for. -/
theorem ofByte?_four {code : Nat} (atLeast : 0x10000 ≤ code) (below : code < 0x110000) :
    ∃ low high, Start.ofByte? (0xF0 + code / 262144) = some ⟨code / 262144, 1, 2, low, high⟩ ∧
      low ≤ 0x80 + code / 4096 % 64 ∧ 0x80 + code / 4096 % 64 ≤ high := by
  unfold Start.ofByte?
  rw [if_neg (by omega), if_neg (by omega), if_neg (by omega), if_neg (by omega)]
  by_cases first : 0xF0 + code / 262144 = 0xF0
  · have bits : code / 262144 = 0 := by omega
    rw [if_pos first, bits]
    exact ⟨_, _, rfl, by omega, by omega⟩
  by_cases last : 0xF0 + code / 262144 = 0xF4
  · have bits : code / 262144 = 4 := by omega
    rw [if_neg first, if_pos last, bits]
    exact ⟨_, _, rfl, by omega, by omega⟩
  rw [if_neg first, if_neg last, if_pos (by omega), Nat.add_sub_cancel_left]
  exact ⟨_, _, rfl, by omega, by omega⟩

/-! ### The bytes after the first -/

theorem toNat_continuation (code : Nat) :
    (UInt8.ofNat (0x80 + code % 64)).toNat = 0x80 + code % 64 :=
  toNat_ofNat_of_lt (by omega)

theorem continuation_le (code : Nat) : 0x80 + code % 64 ≤ 0xBF := by omega

/-- A byte after the first adds six bits to a started character. -/
theorem push_continuation (pieces : List Piece) (start : Start) (code missing : Nat)
    (needs : start.missing = missing + 1) (low : start.low ≤ 0x80 + code % 64)
    (high : 0x80 + code % 64 ≤ start.high) :
    Scan.push ⟨pieces, some start⟩ (UInt8.ofNat (0x80 + code % 64)) =
      ⟨pieces, some ⟨start.bits * 64 + code % 64, start.length + 1, missing, 0x80, 0xBF⟩⟩ := by
  rw [push_of_missing pieces start _ missing needs (by rw [toNat_continuation]; exact low)
    (by rw [toNat_continuation]; exact high), toNat_continuation, Nat.add_sub_cancel_left]

/-- The last byte of a character adds its last six bits. -/
theorem push_last (pieces : List Piece) (bits length code : Nat) :
    Scan.push ⟨pieces, some ⟨bits, length, 0, 0x80, 0xBF⟩⟩ (UInt8.ofNat (0x80 + code % 64)) =
      ⟨.char (Char.ofNat (bits * 64 + code % 64)) :: pieces, none⟩ := by
  have low : 0x80 ≤ (UInt8.ofNat (0x80 + code % 64)).toNat := by
    rw [toNat_continuation]
    exact Nat.le_add_right _ _
  have high : (UInt8.ofNat (0x80 + code % 64)).toNat ≤ 0xBF := by
    rw [toNat_continuation]
    exact continuation_le code
  rw [push_of_complete pieces _ _ rfl low high, toNat_continuation, Nat.add_sub_cancel_left]

/-! ### Characters by the number of their bytes -/

theorem foldl_push_two {code : Nat} (atLeast : 0x80 ≤ code) (below : code < 0x800)
    (pieces : List Piece) :
    [UInt8.ofNat (0xC0 + code / 64), UInt8.ofNat (0x80 + code % 64)].foldl Scan.push
      ⟨pieces, none⟩ = ⟨.char (Char.ofNat code) :: pieces, none⟩ := by
  have bits : code / 64 * 64 + code % 64 = code := Nat.div_add_mod' code 64
  rw [List.foldl_cons, List.foldl_cons, List.foldl_nil, push_lead, toNat_ofNat_of_lt (by omega),
    lead_of_start (ofByte?_two atLeast below) (by omega), push_last, bits]

theorem foldl_push_three {code : Nat} (atLeast : 0x800 ≤ code) (below : code < 0x10000)
    (scalar : code < 0xD800 ∨ 0xDFFF < code) (pieces : List Piece) :
    [UInt8.ofNat (0xE0 + code / 4096), UInt8.ofNat (0x80 + code / 64 % 64),
      UInt8.ofNat (0x80 + code % 64)].foldl Scan.push ⟨pieces, none⟩ =
        ⟨.char (Char.ofNat code) :: pieces, none⟩ := by
  obtain ⟨low, high, started, secondLow, secondHigh⟩ := ofByte?_three atLeast below scalar
  have bits : (code / 4096 * 64 + code / 64 % 64) * 64 + code % 64 = code := by
    rw [show 4096 = 64 * 64 from rfl, ← Nat.div_div_eq_div_mul, Nat.div_add_mod',
      Nat.div_add_mod']
  rw [List.foldl_cons, List.foldl_cons, List.foldl_cons, List.foldl_nil, push_lead,
    toNat_ofNat_of_lt (by omega), lead_of_start started (by omega),
    push_continuation _ _ _ 0 rfl secondLow secondHigh, push_last, bits]

theorem foldl_push_four {code : Nat} (atLeast : 0x10000 ≤ code) (below : code < 0x110000)
    (pieces : List Piece) :
    [UInt8.ofNat (0xF0 + code / 262144), UInt8.ofNat (0x80 + code / 4096 % 64),
      UInt8.ofNat (0x80 + code / 64 % 64), UInt8.ofNat (0x80 + code % 64)].foldl Scan.push
        ⟨pieces, none⟩ = ⟨.char (Char.ofNat code) :: pieces, none⟩ := by
  obtain ⟨low, high, started, secondLow, secondHigh⟩ := ofByte?_four atLeast below
  have bits : ((code / 262144 * 64 + code / 4096 % 64) * 64 + code / 64 % 64) * 64 + code % 64 =
      code := by
    rw [show 262144 = 64 * 64 * 64 from rfl, show 4096 = 64 * 64 from rfl,
      ← Nat.div_div_eq_div_mul, ← Nat.div_div_eq_div_mul, Nat.div_add_mod', Nat.div_add_mod',
      Nat.div_add_mod']
  rw [List.foldl_cons, List.foldl_cons, List.foldl_cons, List.foldl_cons, List.foldl_nil,
    push_lead, toNat_ofNat_of_lt (by omega), lead_of_start started (by omega),
    push_continuation _ _ _ 1 rfl secondLow secondHigh,
    push_continuation _ _ _ 0 rfl (Nat.le_add_right _ _) (continuation_le _), push_last, bits]

/-- The bytes of a character scan as that character. -/
theorem foldl_push_encodeChar (char : Char) (pieces : List Piece) :
    (encodeChar char).foldl Scan.push ⟨pieces, none⟩ = ⟨.char char :: pieces, none⟩ := by
  have scalar := isScalar char
  have same := Char.ofNat_toNat char
  unfold encodeChar
  dsimp only
  by_cases one : char.toNat < 0x80
  · rw [if_pos one, List.foldl_cons, List.foldl_nil, push_lead,
      toNat_ofNat_of_lt (by omega), Scan.lead, if_pos one, same]
  by_cases two : char.toNat < 0x800
  · rw [if_neg one, if_pos two, foldl_push_two (Nat.le_of_not_lt one) two, same]
  by_cases three : char.toNat < 0x10000
  · rw [if_neg one, if_neg two, if_pos three,
      foldl_push_three (Nat.le_of_not_lt two) three (by omega), same]
  · rw [if_neg one, if_neg two, if_neg three,
      foldl_push_four (Nat.le_of_not_lt three) (by omega), same]

/-! ### Whole texts -/

theorem foldl_push_encode (text : List Char) (pieces : List Piece) :
    (text.flatMap encodeChar).foldl Scan.push ⟨pieces, none⟩ =
      ⟨(text.map Piece.char).reverse ++ pieces, none⟩ := by
  induction text generalizing pieces with
  | nil => rfl
  | cons char rest inductionHypothesis =>
    rw [List.flatMap_cons, List.foldl_append, foldl_push_encodeChar, inductionHypothesis,
      List.map_cons, List.reverse_cons, List.append_assoc, List.singleton_append]

/-- The pieces of a spelled text are its characters. -/
theorem pieces_encodeList (text : List Char) :
    pieces (text.flatMap encodeChar) = text.map Piece.char := by
  rw [pieces, foldl_push_encode, Scan.finish, List.append_nil, List.reverse_reverse]

/-- Lenient reading gives a spelled text back. -/
theorem decodeLossy_encodeList (text : List Char) :
    decodeLossy (text.flatMap encodeChar) = String.ofList text := by
  rw [decodeLossy, pieces_encodeList, List.map_map]
  exact congrArg String.ofList (List.map_id text)

/-! ### NUL -/

theorem zero_not_mem_encodeChar {char : Char} (plain : char.toNat ≠ 0) :
    (0 : UInt8) ∉ encodeChar char := by
  have scalar := isScalar char
  have nonzero {value : Nat} (positive : 0 < value) (small : value < 256) :
      (0 : UInt8) ≠ UInt8.ofNat value := by
    intro equal
    have number := congrArg UInt8.toNat equal
    rw [toNat_ofNat_of_lt small] at number
    exact absurd number.symm (Nat.ne_of_gt positive)
  unfold encodeChar
  dsimp only
  split
  · simp only [List.mem_singleton]
    exact nonzero (by omega) (by omega)
  split
  · simp only [List.mem_cons, List.not_mem_nil, or_false, not_or]
    exact ⟨nonzero (by omega) (by omega), nonzero (by omega) (by omega)⟩
  split
  · simp only [List.mem_cons, List.not_mem_nil, or_false, not_or]
    exact ⟨nonzero (by omega) (by omega), nonzero (by omega) (by omega),
      nonzero (by omega) (by omega)⟩
  · simp only [List.mem_cons, List.not_mem_nil, or_false, not_or]
    exact ⟨nonzero (by omega) (by omega), nonzero (by omega) (by omega),
      nonzero (by omega) (by omega), nonzero (by omega) (by omega)⟩

/-- The bytes before the first NUL spell the characters before the first NUL. -/
theorem takeWhile_encodeList (text : List Char) :
    (text.flatMap encodeChar).takeWhile (fun byte => byte != 0) =
      (text.takeWhile fun char => char.toNat != 0).flatMap encodeChar := by
  induction text with
  | nil => rfl
  | cons char rest inductionHypothesis =>
    rw [List.flatMap_cons]
    by_cases nul : char.toNat = 0
    · have spelled : encodeChar char = [0] := by
        unfold encodeChar
        rw [nul]
        rfl
      simp [spelled, nul]
    · have all : ∀ byte ∈ encodeChar char, (byte != 0) = true := by
        intro byte member
        rw [bne_iff_ne]
        intro zero
        exact zero_not_mem_encodeChar nul (zero ▸ member)
      rw [List.takeWhile_append_of_pos all, inductionHypothesis,
        List.takeWhile_cons_of_pos (by simpa using nul), List.flatMap_cons]

/-- What a started character still promises: the next byte is a continuation, and every code
that the character can become is above 127 and is the code of a character. -/
structure Start.Sound (start : Start) : Prop where
  low_ge : 0x80 ≤ start.low
  high_le : start.high ≤ 0xBF
  above : 0x80 ≤ (start.bits * 64 + (start.low - 0x80)) * 64 ^ start.missing
  scalar : (start.bits * 64 + (start.high - 0x80) + 1) * 64 ^ start.missing ≤ 0xD800 ∨
    0xE000 ≤ (start.bits * 64 + (start.low - 0x80)) * 64 ^ start.missing ∧
      (start.bits * 64 + (start.high - 0x80) + 1) * 64 ^ start.missing ≤ 0x110000

theorem Start.sound_of_ofByte? {byte : Nat} {start : Start}
    (started : Start.ofByte? byte = some start) : start.Sound := by
  unfold Start.ofByte? at started
  split at started
  · rw [← Option.some.inj started]
    refine ⟨?_, ?_, ?_, ?_⟩ <;> dsimp only <;> omega
  split at started
  · rw [← Option.some.inj started]
    exact ⟨by decide, by decide, by decide, by decide⟩
  split at started
  · rw [← Option.some.inj started]
    exact ⟨by decide, by decide, by decide, by decide⟩
  split at started
  · rw [← Option.some.inj started]
    refine ⟨?_, ?_, ?_, ?_⟩ <;> dsimp only <;> omega
  split at started
  · rw [← Option.some.inj started]
    exact ⟨by decide, by decide, by decide, by decide⟩
  split at started
  · rw [← Option.some.inj started]
    exact ⟨by decide, by decide, by decide, by decide⟩
  split at started
  · rw [← Option.some.inj started]
    refine ⟨?_, ?_, ?_, ?_⟩ <;> dsimp only <;> omega
  · cases started

theorem toNat_ofNat_of_scalar {code : Nat}
    (scalar : code < 0xD800 ∨ 0xDFFF < code ∧ code < 0x110000) :
    (Char.ofNat code).toNat = code := by
  rw [Char.ofNat, dif_pos scalar]
  rfl

/-- The codes that a started character can become after one more byte lie in the range that they
were in before. -/
theorem Start.first_le_next {start : Start} {byte : Nat} (low : start.low ≤ byte)
    (missing : Nat) : (start.bits * 64 + (start.low - 0x80)) * 64 ^ (missing + 1) ≤
      ((start.bits * 64 + (byte - 0x80)) * 64 + (0x80 - 0x80)) * 64 ^ missing := by
  rw [Nat.pow_succ', ← Nat.mul_assoc]
  exact Nat.mul_le_mul_right _ (by omega)

theorem Start.next_le_last {start : Start} {byte : Nat} (high : byte ≤ start.high)
    (missing : Nat) :
    ((start.bits * 64 + (byte - 0x80)) * 64 + (0xBF - 0x80) + 1) * 64 ^ missing ≤
      (start.bits * 64 + (start.high - 0x80) + 1) * 64 ^ (missing + 1) := by
  rw [Nat.pow_succ', ← Nat.mul_assoc]
  exact Nat.mul_le_mul_right _ (by omega)

/-- The promise is kept with every byte that goes on with the character. -/
theorem Start.Sound.next {start : Start} (sound : start.Sound) {byte missing : Nat}
    (needs : start.missing = missing + 1) (low : start.low ≤ byte) (high : byte ≤ start.high) :
    Start.Sound ⟨start.bits * 64 + (byte - 0x80), start.length + 1, missing, 0x80, 0xBF⟩ := by
  have first := Start.first_le_next low missing
  have last := Start.next_le_last high missing
  have above := sound.above
  have scalar := sound.scalar
  rw [needs] at above scalar
  refine ⟨?_, ?_, ?_, ?_⟩ <;> dsimp only
  · omega
  · omega
  · exact Nat.le_trans above first
  · omega

/-- The last byte of a sound character gives a character that is not NUL. -/
theorem Start.Sound.char_ne_nul {start : Start} (sound : start.Sound) {byte : Nat}
    (needs : start.missing = 0) (low : start.low ≤ byte) (high : byte ≤ start.high) :
    (Char.ofNat (start.bits * 64 + (byte - 0x80))).toNat ≠ 0 := by
  have above := sound.above
  have scalar := sound.scalar
  rw [needs, Nat.pow_zero, Nat.mul_one] at above scalar
  rw [Nat.mul_one] at scalar
  rw [toNat_ofNat_of_scalar (by omega)]
  omega

/-- A scan that has met no NUL so far. -/
structure Scan.WithoutNul (scan : Scan) : Prop where
  pieces : ∀ piece ∈ scan.pieces, piece.lossy.toNat ≠ 0
  start : ∀ start, scan.start = some start → start.Sound

theorem lossy_invalid (length : Nat) : (Piece.invalid length).lossy.toNat ≠ 0 := by
  rw [Piece.lossy]
  decide

theorem lossy_incomplete (length : Nat) : (Piece.incomplete length).lossy.toNat ≠ 0 := by
  rw [Piece.lossy]
  decide

theorem Scan.WithoutNul.lead {pieces : List Piece}
    (plain : ∀ piece ∈ pieces, piece.lossy.toNat ≠ 0) {byte : Nat} (nonzero : byte ≠ 0) :
    (Scan.lead pieces byte).WithoutNul := by
  unfold Scan.lead
  split
  · refine ⟨?_, fun start started => by cases started⟩
    intro piece member
    rcases List.mem_cons.mp member with rfl | earlier
    · rw [Piece.lossy, toNat_ofNat_of_scalar (Or.inl (by omega))]
      exact nonzero
    · exact plain piece earlier
  · split
    · rename_i start started
      refine ⟨plain, fun other same => ?_⟩
      cases same
      exact Start.sound_of_ofByte? started
    · refine ⟨?_, fun start started => by cases started⟩
      intro piece member
      rcases List.mem_cons.mp member with rfl | earlier
      · exact lossy_invalid 1
      · exact plain piece earlier

theorem Scan.WithoutNul.push {scan : Scan} (plain : scan.WithoutNul) {byte : UInt8}
    (nonzero : byte ≠ 0) : (scan.push byte).WithoutNul := by
  have number : byte.toNat ≠ 0 := fun zero => nonzero (UInt8.toNat_inj.mp zero)
  obtain ⟨pieces, started⟩ := scan
  cases started with
  | none => exact Scan.WithoutNul.lead plain.pieces number
  | some start =>
    have sound := plain.start start rfl
    by_cases within : start.low ≤ byte.toNat ∧ byte.toNat ≤ start.high
    · cases needs : start.missing with
      | zero =>
        rw [push_of_complete pieces start byte needs within.1 within.2]
        refine ⟨?_, fun start started => by cases started⟩
        intro piece member
        rcases List.mem_cons.mp member with rfl | earlier
        · exact sound.char_ne_nul needs within.1 within.2
        · exact plain.pieces piece earlier
      | succ missing =>
        rw [push_of_missing pieces start byte missing needs within.1 within.2]
        refine ⟨plain.pieces, fun other same => ?_⟩
        rw [← Option.some.inj same]
        exact sound.next needs within.1 within.2
    · rw [Scan.push]
      dsimp only
      rw [if_neg within]
      refine Scan.WithoutNul.lead ?_ number
      intro piece member
      rcases List.mem_cons.mp member with rfl | earlier
      · exact lossy_invalid start.length
      · exact plain.pieces piece earlier

theorem Scan.WithoutNul.foldl {bytes : List UInt8} (nonzero : (0 : UInt8) ∉ bytes) {scan : Scan}
    (plain : scan.WithoutNul) : (bytes.foldl Scan.push scan).WithoutNul := by
  induction bytes generalizing scan with
  | nil => exact plain
  | cons byte rest inductionHypothesis =>
    rw [List.mem_cons, not_or] at nonzero
    exact inductionHypothesis nonzero.2 (plain.push (Ne.symm nonzero.1))

/-- Bytes without NUL never read as a text with NUL. -/
theorem nul_not_mem_decodeLossy {bytes : List UInt8} (nonzero : (0 : UInt8) ∉ bytes) :
    ∀ char ∈ (decodeLossy bytes).toList, char.toNat ≠ 0 := by
  have start : ({} : Scan).WithoutNul :=
    ⟨fun piece member => absurd member List.not_mem_nil, fun start started => by cases started⟩
  have scanned := Scan.WithoutNul.foldl nonzero start
  rw [decodeLossy, String.toList_ofList, pieces, Scan.finish]
  intro char member
  obtain ⟨piece, pieceMember, rfl⟩ := List.mem_map.mp member
  split at pieceMember
  · exact scanned.pieces piece (List.mem_reverse.mp pieceMember)
  · rcases List.mem_cons.mp (List.mem_reverse.mp pieceMember) with rfl | earlier
    · exact lossy_incomplete _
    · exact scanned.pieces piece earlier

end Utf8

end MatFormat
