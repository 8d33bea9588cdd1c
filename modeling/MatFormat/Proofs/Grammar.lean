/-
This file compares the reader of elements with the grammar of elements. A word decides between
two forms: if its upper half is not zero it is a packed tag, which must tell a short size and a
type of numbers, and if it is zero it is the type of an element whose size is in a second word.
The reader accepts just the elements of these two forms whose payload is there in full, and what
it may cut short is the padding at the end of the bytes. Each step of the reader is turned into
a condition on the bytes first, so that the two forms can be put together from them.
-/

import MatFormat.Proofs.Located

namespace MatFormat

namespace Cursor

/-! ### Places -/

/-- The place a number of bytes further on. -/
def onward (cursor : Cursor) (count : Nat) : Cursor :=
  ⟨cursor.bytes.drop count, cursor.offset + count, cursor.order⟩

/-- A number of bytes from some place on, as a cursor of their own. -/
def part (cursor : Cursor) (start count : Nat) : Cursor :=
  ⟨(cursor.bytes.drop start).take count, cursor.offset + start, cursor.order⟩

/-- The word of four bytes from some place on. -/
def word (cursor : Cursor) (start : Nat) : Nat :=
  cursor.order.decode ((cursor.bytes.drop start).take 4)

variable {cursor rest : Cursor}

theorem remaining_onward (cursor : Cursor) (count : Nat) :
    (cursor.onward count).remaining = cursor.remaining - count :=
  List.length_drop

theorem onward_onward (cursor : Cursor) (first second : Nat) :
    (cursor.onward first).onward second = cursor.onward (first + second) := by
  rw [onward, onward, onward, List.drop_drop, Nat.add_assoc]

theorem part_onward (cursor : Cursor) (first start count : Nat) :
    (cursor.onward first).part start count = cursor.part (first + start) count := by
  rw [onward, part, part, List.drop_drop, Nat.add_assoc]

theorem word_onward (cursor : Cursor) (first start : Nat) :
    (cursor.onward first).word start = cursor.word (first + start) := by
  rw [onward, word, word, List.drop_drop]

/-- What is passed over at the end of the bytes is all that is left. -/
theorem skipAtMost_eq (cursor : Cursor) (count : Nat) :
    (cursor.skipAtMost count).2 = cursor.onward (min count cursor.remaining) := by
  have passed : cursor.bytes.drop count = cursor.bytes.drop (min count cursor.bytes.length) := by
    rcases Nat.le_total count cursor.bytes.length with fits | exceeds
    · rw [Nat.min_eq_left fits]
    · rw [Nat.min_eq_right exceeds, List.drop_length, List.drop_of_length_le exceeds]
  rw [skipAtMost, List.splitAt_eq]
  dsimp only
  rw [onward, remaining, ← passed, List.length_take]

/-! ### Steps of the reader -/

theorem split_eq_ok {payload : Cursor} {count : Nat} :
    cursor.split count = .ok (payload, rest) ↔
      count ≤ cursor.remaining ∧ payload = cursor.part 0 count ∧ rest = cursor.onward count := by
  by_cases enough : count ≤ cursor.remaining
  · rw [split, take_of_le cursor count enough]
    constructor
    · intro same
      cases same
      exact ⟨enough, rfl, rfl⟩
    · rintro ⟨_, rfl, rfl⟩
      rfl
  · rw [split, take_of_lt cursor count (Nat.lt_of_not_le enough)]
    constructor
    · intro failed
      cases failed
    · intro accepted
      exact absurd accepted.1 enough

theorem number_four_eq_ok {value : Nat} :
    cursor.number 4 = .ok (value, rest) ↔
      4 ≤ cursor.remaining ∧ value = cursor.word 0 ∧ rest = cursor.onward 4 := by
  by_cases enough : 4 ≤ cursor.remaining
  · rw [number, take_of_le cursor 4 enough]
    constructor
    · intro same
      cases same
      exact ⟨enough, rfl, rfl⟩
    · rintro ⟨_, rfl, rfl⟩
      rfl
  · rw [number, take_of_lt cursor 4 (Nat.lt_of_not_le enough)]
    constructor
    · intro failed
      cases failed
    · intro accepted
      exact absurd accepted.1 enough

/-! ### The grammar -/

/-- The two forms of a tag. The size of a packed one is the upper half of its only word. -/
inductive TagAt (cursor : Cursor) : Tag → Cursor → Prop where
  | packed {type : DataType} (word : 4 ≤ cursor.remaining)
      (positive : 1 ≤ cursor.word 0 / 65536) (short : cursor.word 0 / 65536 ≤ 4)
      (lower : cursor.word 0 % 65536 = type.code) (primitive : type.isPrimitive = true) :
      TagAt cursor ⟨type, cursor.word 0 / 65536, true⟩ (cursor.onward 4)
  | normal {type : DataType} (words : 8 ≤ cursor.remaining)
      (upper : cursor.word 0 / 65536 = 0) (code : cursor.word 0 = type.code) :
      TagAt cursor ⟨type, cursor.word 4, false⟩ (cursor.onward 8)

/-- The bytes of padding behind a payload that is not packed: none if it is compressed, and up to
the next multiple of eight if it is not. -/
def PaddedBy (type : DataType) (size padding : Nat) : Prop :=
  if type = .compressed then padding = 0 else padding < 8 ∧ (size + padding) % 8 = 0

/-- The grammar of elements: what stands at the front of some bytes, and the place behind it. A
packed element takes eight bytes, and any other its tag, its payload and its padding, both as far
as there are bytes. -/
inductive StartsWith (cursor : Cursor) : Element → Cursor → Prop where
  | packed {type : DataType} {size : Nat} (word : 4 ≤ cursor.remaining)
      (upper : cursor.word 0 / 65536 = size) (positive : 1 ≤ size) (short : size ≤ 4)
      (lower : cursor.word 0 % 65536 = type.code) (primitive : type.isPrimitive = true)
      (fits : size ≤ cursor.remaining - 4) :
      StartsWith cursor ⟨⟨type, size, true⟩, cursor.part 4 size⟩
        (cursor.onward (min 8 cursor.remaining))
  | normal {type : DataType} {size padding : Nat} (words : 8 ≤ cursor.remaining)
      (upper : cursor.word 0 / 65536 = 0) (code : cursor.word 0 = type.code)
      (second : cursor.word 4 = size) (fits : size ≤ cursor.remaining - 8)
      (padded : PaddedBy type size padding) :
      StartsWith cursor ⟨⟨type, size, false⟩, cursor.part 8 size⟩
        (cursor.onward (min cursor.remaining (8 + size + padding)))

/-! ### The reader and the grammar -/

theorem tag_eq_ok {tag : Tag} : cursor.tag = .ok (tag, rest) ↔ cursor.TagAt tag rest := by
  constructor
  · intro read
    obtain ⟨⟨value, afterWord⟩, wordRead, read⟩ := Outcome.bind_eq_ok.mp read
    obtain ⟨enough, rfl, rfl⟩ := number_four_eq_ok.mp wordRead
    dsimp only at read
    split at read
    · rename_i positive
      split at read
      · cases read
      · rename_i short
        split at read
        · cases read
        · rename_i type named
          split at read
          · cases read
          · rename_i primitive
            cases read
            exact .packed enough (Nat.pos_of_ne_zero positive) (Nat.le_of_not_lt short)
              (DataType.code_of_ofCode? named).symm (by simpa using primitive)
    · rename_i upper
      obtain ⟨⟨size, afterSize⟩, sizeRead, read⟩ := Outcome.bind_eq_ok.mp read
      obtain ⟨more, rfl, rfl⟩ := number_four_eq_ok.mp sizeRead
      rw [remaining_onward] at more
      dsimp only at read
      split at read
      · cases read
      · rename_i type named
        cases read
        rw [word_onward, onward_onward]
        exact .normal (by omega) (not_not.mp upper) (DataType.code_of_ofCode? named).symm
  · intro grammar
    cases grammar with
    | packed word positive short lower primitive =>
      rw [tag, Outcome.bind_of_ok (number_four_eq_ok.mpr ⟨word, rfl, rfl⟩)]
      dsimp only
      have whole : ¬ packedLimit < cursor.word 0 / 65536 := Nat.not_lt.mpr short
      rw [if_pos (Nat.pos_iff_ne_zero.mp positive), if_neg whole, lower, DataType.ofCode?_code]
      dsimp only
      rw [primitive]
      rfl
    | normal words upper code =>
      have second : (cursor.onward 4).number 4 = .ok (cursor.word 4, cursor.onward 8) := by
        refine number_four_eq_ok.mpr ⟨?_, (word_onward cursor 4 0).symm, (onward_onward _ 4 4).symm⟩
        rw [remaining_onward]
        omega
      rw [tag, Outcome.bind_of_ok (number_four_eq_ok.mpr ⟨by omega, rfl, rfl⟩)]
      dsimp only
      rw [if_neg (not_not.mpr upper), Outcome.bind_of_ok second]
      dsimp only
      rw [code, DataType.ofCode?_code]
      rfl

theorem paddedBy_iff {type : DataType} {size padding : Nat} :
    PaddedBy type size padding ↔ Tag.padding ⟨type, size, false⟩ = padding := by
  rw [PaddedBy, Tag.padding, if_neg Bool.false_ne_true]
  dsimp only
  split
  · exact eq_comm
  · rw [paddingTo8]
    omega

/-- An element is its tag, its payload, and its padding as far as there are bytes. -/
theorem element_eq_ok_of_tag {tag : Tag} {payload : Cursor} :
    cursor.element.result = .ok (⟨tag, payload⟩, rest) ↔
      ∃ after : Cursor, cursor.TagAt tag after ∧ tag.size ≤ after.remaining ∧
        payload = after.part 0 tag.size ∧
        rest = after.onward (min (tag.size + tag.padding) after.remaining) := by
  have passed (after : Cursor) {size : Nat} (fits : size ≤ after.remaining) (padding : Nat) :
      ((after.onward size).skipAtMost padding).2 =
        after.onward (min (size + padding) after.remaining) := by
    rw [skipAtMost_eq, onward_onward, remaining_onward]
    congr 1
    omega
  rw [result_element]
  constructor
  · intro read
    obtain ⟨⟨found, after⟩, tagRead, read⟩ := Outcome.bind_eq_ok.mp read
    obtain ⟨⟨content, behind⟩, payloadRead, read⟩ := Outcome.bind_eq_ok.mp read
    obtain ⟨fits, rfl, rfl⟩ := split_eq_ok.mp payloadRead
    cases read
    exact ⟨after, tag_eq_ok.mp tagRead, fits, rfl, passed after fits _⟩
  · rintro ⟨after, grammar, fits, rfl, rfl⟩
    rw [Outcome.bind_of_ok (tag_eq_ok.mpr grammar)]
    dsimp only
    rw [Outcome.bind_of_ok (split_eq_ok.mpr ⟨fits, rfl, rfl⟩), passed after fits]
    rfl

/-- A packed element takes eight bytes, or all there are. -/
theorem onward_packed {type : DataType} {size : Nat} (word : 4 ≤ cursor.remaining)
    (short : size ≤ 4) (fits : size ≤ cursor.remaining - 4) :
    (cursor.onward 4).onward (min (size + Tag.padding ⟨type, size, true⟩)
        (cursor.onward 4).remaining) = cursor.onward (min 8 cursor.remaining) := by
  have limit : packedLimit = 4 := rfl
  rw [onward_onward, remaining_onward, Tag.padding, if_pos rfl]
  congr 1
  dsimp only
  omega

/-- Any other element takes its tag, its payload and its padding, or all there are. -/
theorem onward_normal {type : DataType} {size padding : Nat} (words : 8 ≤ cursor.remaining)
    (padded : PaddedBy type size padding) :
    (cursor.onward 8).onward (min (size + Tag.padding ⟨type, size, false⟩)
        (cursor.onward 8).remaining) =
      cursor.onward (min cursor.remaining (8 + size + padding)) := by
  rw [onward_onward, remaining_onward, paddedBy_iff.mp padded]
  congr 1
  omega

/-- The reader accepts just the elements of the grammar. -/
theorem element_eq_ok_of_grammar {element : Element} :
    cursor.element.result = .ok (element, rest) ↔ cursor.StartsWith element rest := by
  obtain ⟨tag, payload⟩ := element
  rw [element_eq_ok_of_tag]
  constructor
  · rintro ⟨after, grammar, fits, rfl, rfl⟩
    cases grammar with
    | packed word positive short lower primitive =>
      rw [remaining_onward] at fits
      rw [part_onward, onward_packed word short fits]
      exact .packed word rfl positive short lower primitive fits
    | @normal type words upper code =>
      rw [remaining_onward] at fits
      have padded := paddedBy_iff.mpr (Eq.refl (Tag.padding ⟨type, cursor.word 4, false⟩))
      rw [part_onward, onward_normal words padded]
      exact .normal words upper code rfl fits padded
  · intro grammar
    cases grammar with
    | packed word upper positive short lower primitive fits =>
      subst upper
      exact ⟨_, .packed word positive short lower primitive, remaining_onward cursor 4 ▸ fits,
        (part_onward cursor 4 0 _).symm, (onward_packed word short fits).symm⟩
    | normal words upper code second fits padded =>
      subst second
      exact ⟨_, .normal words upper code, remaining_onward cursor 8 ▸ fits,
        (part_onward cursor 8 0 _).symm, (onward_normal words padded).symm⟩

/-! ### Refusals -/

/-- There are too few bytes for what they begin with: for a word, for the second word of a tag, or
for the payload that a tag tells of. -/
inductive CutShort (cursor : Cursor) : Prop where
  | word (short : cursor.remaining < 4)
  | words (upper : cursor.word 0 / 65536 = 0) (short : cursor.remaining < 8)
  | payload {tag : Tag} {after : Cursor} (grammar : cursor.TagAt tag after)
      (short : after.remaining < tag.size)

/-- How bytes are refused that no element stands in front of. -/
inductive Refused (cursor : Cursor) : Error → Prop where
  | truncated {offset needed available : Nat} (short : cursor.CutShort) :
      Refused cursor (.truncated offset needed available)
  | malformed {reason : Malformation} (enough : ¬ cursor.CutShort) :
      Refused cursor (.malformed cursor.offset reason)

/-- Bytes that there are enough of for a tag, but that are none. -/
theorem refused_malformed {reason : Malformation} (word : 4 ≤ cursor.remaining)
    (words : cursor.word 0 / 65536 = 0 → 8 ≤ cursor.remaining)
    (failed : cursor.tag = .error (.malformed cursor.offset reason)) :
    cursor.Refused (.malformed cursor.offset reason) := by
  refine .malformed fun short => ?_
  cases short with
  | word short => exact absurd word (Nat.not_le.mpr short)
  | words upper short => exact absurd (words upper) (Nat.not_le.mpr short)
  | payload grammar => exact absurd (failed.symm.trans (tag_eq_ok.mpr grammar)) nofun

theorem refused_of_tag {error : Error} (failed : cursor.tag = .error error) :
    cursor.Refused error := by
  by_cases enough : 4 ≤ cursor.remaining
  · have whole := failed
    rw [tag, Outcome.bind_of_ok (number_four_eq_ok.mpr ⟨enough, rfl, rfl⟩)] at failed
    dsimp only at failed
    split at failed
    · rename_i positive
      have packed (upper : cursor.word 0 / 65536 = 0) : 8 ≤ cursor.remaining :=
        absurd upper positive
      split at failed
      · cases failed
        exact refused_malformed enough packed whole
      · split at failed
        · cases failed
          exact refused_malformed enough packed whole
        · split at failed
          · cases failed
            exact refused_malformed enough packed whole
          · cases failed
    · rename_i upper
      by_cases more : 4 ≤ (cursor.onward 4).remaining
      · rw [Outcome.bind_of_ok (number_four_eq_ok.mpr ⟨more, rfl, rfl⟩)] at failed
        rw [remaining_onward] at more
        dsimp only at failed
        split at failed
        · cases failed
          exact refused_malformed enough (fun _ => by omega) whole
        · cases failed
      · rw [number, take_of_lt _ 4 (Nat.lt_of_not_le more)] at failed
        cases failed
        rw [remaining_onward] at more ⊢
        exact .truncated (.words (not_not.mp upper) (by omega))
  · have short := Nat.lt_of_not_le enough
    rw [tag, number, take_of_lt cursor 4 short] at failed
    cases failed
    exact .truncated (.word short)

/-- The reader refuses bytes as truncated where there are too few of them for what they begin
with, and as malformed where they begin with no element at all. -/
theorem refused_of_element {error : Error} (failed : cursor.element.result = .error error) :
    cursor.Refused error := by
  rw [result_element] at failed
  rcases Outcome.bind_eq_error.mp failed with tagFailed | ⟨⟨tag, after⟩, tagRead, failed⟩
  · exact refused_of_tag tagFailed
  · rcases Outcome.bind_eq_error.mp failed with payloadFailed | ⟨payload, _, failed⟩
    · by_cases enough : tag.size ≤ after.remaining
      · rw [split_eq_ok.mpr ⟨enough, rfl, rfl⟩] at payloadFailed
        cases payloadFailed
      · have short := Nat.lt_of_not_le enough
        rw [split, take_of_lt after tag.size short] at payloadFailed
        cases payloadFailed
        exact .truncated (.payload (tag_eq_ok.mp tagRead) short)
    · cases failed

/-! ### What the reader accepts -/

/-- The reader of elements accepts exactly what the grammar derives, with its payload and the
place behind it, and refuses everything else as truncated or malformed. Both the payload and the
place behind stand in the buffer that the bytes are from, at the offsets that they tell. -/
theorem element_accepts_grammar (cursor : Cursor) :
    (∀ (element : Element) (rest : Cursor),
      cursor.element.result = .ok (element, rest) ↔ cursor.StartsWith element rest) ∧
    ((¬ ∃ element rest, cursor.StartsWith element rest) →
      ∃ error, cursor.element.result = .error error ∧ cursor.Refused error) ∧
    ∀ (buffer : List UInt8) (element : Element) (rest : Cursor),
      cursor.Inside (.ofBytes buffer cursor.order) → cursor.StartsWith element rest →
      element.payload.Inside (.ofBytes buffer cursor.order) ∧
        rest.Inside (.ofBytes buffer cursor.order) := by
  refine ⟨fun element rest => element_eq_ok_of_grammar, fun none => ?_,
    fun buffer element rest inside grammar => ?_⟩
  · cases read : cursor.element.result with
    | error error => exact ⟨error, rfl, refused_of_element read⟩
    | ok found => exact absurd ⟨found.1, found.2, element_eq_ok_of_grammar.mp read⟩ none
  · exact (located_element inside).holds (element_eq_ok_of_grammar.mpr grammar)

/-- Two bytes of text in the packed form, cut off before their padding. -/
def cutText : Cursor := ⟨[2, 0, 2, 0, 97, 98], 130, .little⟩

/-- A matrix in the packed form, which it cannot have. -/
def packedMatrix : Cursor := ⟨[0, 1, 0, 14, 0, 0, 0, 0], 128, .big⟩

theorem element_accepts_grammar_cutText :
    cutText.element.result =
        .ok (⟨⟨.uint8, 2, true⟩, ⟨[97, 98], 134, .little⟩⟩, ⟨[], 136, .little⟩) ∧
      Inside ⟨[97, 98], 134, .little⟩
        (.ofBytes (List.replicate 130 0 ++ [2, 0, 2, 0, 97, 98]) .little) ∧
      ∃ error, packedMatrix.element.result = .error error ∧ packedMatrix.Refused error := by
  have grammar : cutText.StartsWith ⟨⟨.uint8, 2, true⟩, cutText.part 4 2⟩
      (cutText.onward (min 8 cutText.remaining)) :=
    .packed (by decide) rfl (by decide) (by decide) rfl rfl (by decide)
  have inside : cutText.Inside
      (.ofBytes (List.replicate 130 0 ++ [2, 0, 2, 0, 97, 98]) .little) := by
    refine ⟨List.replicate 130 0, [], (List.append_nil _).symm, ?_, rfl⟩
    rw [List.length_replicate]
    rfl
  refine ⟨((element_accepts_grammar cutText).1 _ _).mpr grammar,
    ((element_accepts_grammar cutText).2.2 _ _ _ inside grammar).1,
    (element_accepts_grammar packedMatrix).2.1 ?_⟩
  rintro ⟨element, rest, grammar⟩
  cases grammar with
  | @packed type size word upper positive short lower primitive fits =>
    have code : type.code = DataType.matrix.code := lower.symm
    have same := (DataType.ofCode?_code type).symm.trans
      ((congrArg DataType.ofCode? code).trans (DataType.ofCode?_code .matrix))
    cases same
    cases primitive
  | normal words upper => cases upper

end Cursor

end MatFormat
