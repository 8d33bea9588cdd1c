/-
This file tells what a file yields that was written and then cut. Every element of it is a
tag and a payload without padding, so an element that is cut is never taken for a whole one:
its tag is not there in full, or its payload is shorter than the tag says. What is left of it
can only be taken for padding if it ends before the type in its tag, where a big-endian file
has zeros. So the arrays of the elements before the cut are yielded, and then the missing
bytes are told of.
-/

import MatFormat.Proofs.File.RoundTrip
import MatFormat.Proofs.Matrix.Alignment

namespace MatFormat

variable {compress : Compressor} {inflate : Inflater} {order : ByteOrder}
  {compression : Compression}

/-! ### The first word of a tag -/

theorem encode_code_little (type : DataType) :
    ByteOrder.little.encode 4 type.code = [UInt8.ofNat type.code, 0, 0, 0] := by
  cases type <;> rfl

theorem encode_code_big (type : DataType) :
    ByteOrder.big.encode 4 type.code = [0, 0, 0, UInt8.ofNat type.code] := by
  cases type <;> rfl

theorem code_ne_zero (type : DataType) : (UInt8.ofNat type.code == 0) = false := by
  cases type <;> rfl

/-- The bytes of a tag are no padding once they hold the type, which comes first in a
little-endian file. -/
theorem Cursor.hasMore_of_cutTag (type : DataType) (rest : List UInt8) {left : Nat}
    (some : 0 < left) (typed : 4 ≤ left ∨ order = .little) (offset : Nat) :
    HasMore ⟨(order.encode 4 type.code ++ rest).take left, offset, order⟩ := by
  cases order with
  | little =>
    obtain ⟨fewer, rfl⟩ := Nat.exists_eq_succ_of_ne_zero (Nat.ne_of_gt some)
    rw [encode_code_little]
    simp [HasMore, atEnd, atPadding, code_ne_zero]
  | big =>
    obtain ⟨fewer, rfl⟩ := Nat.exists_eq_add_of_le' (typed.resolve_right (by decide))
    rw [encode_code_big]
    simp [HasMore, atEnd, atPadding, code_ne_zero]

/-- Before the type in a big-endian tag there are zeros. -/
theorem Cursor.not_hasMore_of_cutTag (type : DataType) (rest : List UInt8) {left : Nat}
    (few : left < 4) (offset : Nat) :
    ¬ HasMore ⟨(ByteOrder.big.encode 4 type.code ++ rest).take left, offset, .big⟩ := by
  rw [encode_code_big]
  match left, few with
  | 0, _ => exact fun more => more.1 rfl
  | 1, _ => exact fun more => more.2 rfl
  | 2, _ => exact fun more => more.2 rfl
  | 3, _ => exact fun more => more.2 rfl

/-! ### Elements that are cut -/

/-- A tag that is cut in one of its two words is told to be cut there. -/
theorem Cursor.tag_of_cut {type : DataType} {size : Nat} {tag : List UInt8}
    (written : encodeTag order type size = .ok tag) (rest : List UInt8) {left : Nat}
    (short : left < tagSize) (offset : Nat) :
    ∃ place needed available, Cursor.tag ⟨(tag ++ rest).take left, offset, order⟩ =
      .error (.truncated place needed available) := by
  obtain ⟨_, rfl⟩ := encodeTag_eq_ok.mp written
  have word : (order.encode 4 type.code).length = 4 := order.length_encode 4 type.code
  have two : tagSize = 8 := rfl
  rw [tagBytes, List.append_assoc]
  by_cases typed : 4 ≤ left
  · have fits : type.code < 256 ^ 4 := Nat.lt_trans type.code_lt (by decide)
    have small := type.code_lt
    have upper : ¬ type.code / 65536 ≠ 0 := by omega
    have few : Cursor.remaining ⟨(order.encode 4 size ++ rest).take (left - 4), offset + 4,
        order⟩ < 4 := by
      rw [remaining, List.length_take]
      omega
    rw [List.take_append, word, List.take_of_length_le (le_of_eq_of_le word typed), Cursor.tag,
      number_append order 4 type.code fits, Outcome.bind_of_ok rfl]
    dsimp only
    rw [if_neg upper, number, take_of_lt _ 4 few]
    exact ⟨_, _, _, rfl⟩
  · have few : Cursor.remaining ⟨(order.encode 4 type.code ++ (order.encode 4 size ++ rest)).take
        left, offset, order⟩ < 4 := by
      rw [remaining, List.length_take]
      omega
    rw [Cursor.tag, number, take_of_lt _ 4 few]
    exact ⟨_, _, _, rfl⟩

/-- An element that is cut is told to be cut. -/
theorem Cursor.element_of_cut {type : DataType} {tag payload : List UInt8}
    (written : encodeTag order type payload.length = .ok tag) {left : Nat}
    (short : left < (tag ++ payload).length) (offset : Nat) :
    ∃ place needed available,
      (Cursor.element ⟨(tag ++ payload).take left, offset, order⟩).result =
        .error (.truncated place needed available) := by
  have head := length_encodeTag written
  rw [result_element]
  by_cases tagged : tagSize ≤ left
  · have fewer : Cursor.remaining ⟨payload.take (left - tagSize), offset + tagSize, order⟩ <
        payload.length := by
      rw [List.length_append] at short
      rw [remaining, List.length_take]
      omega
    rw [List.take_append, head, List.take_of_length_le (le_of_eq_of_le head tagged),
      Outcome.bind_of_ok (tag_of_written written _ offset)]
    dsimp only
    rw [split, take_of_lt _ _ fewer]
    exact ⟨_, _, _, rfl⟩
  · obtain ⟨place, needed, available, failed⟩ :=
      tag_of_cut written payload (Nat.lt_of_not_le tagged) offset
    rw [failed]
    exact ⟨place, needed, available, rfl⟩

/-- How a stream ends where some bytes of an element are left: without an error if they are none
or are zeros ahead of its type, and by telling of the missing bytes otherwise. -/
structure EndsCut (order : ByteOrder) (left : Nat) (failure : Option Error) : Prop where
  boundary : left = 0 → failure = none
  padding : left < 4 → order = .big → failure = none
  truncated : 0 < left → 4 ≤ left ∨ order = .little →
    ∃ place needed available, failure = some (.truncated place needed available)

/-- Nothing is yielded from an element that is cut. -/
theorem ArrayStream.everything_of_cut {type : DataType} {tag payload : List UInt8}
    (written : encodeTag order type payload.length = .ok tag) {left : Nat}
    (short : left < (tag ++ payload).length) (wanted : String → Bool) (offset : Nat) :
    ∃ failure, EndsCut order left failure ∧
      everything inflate wanted ⟨[], .reading ⟨(tag ++ payload).take left, offset, order⟩⟩ =
        ⟨[], failure⟩ := by
  obtain ⟨place, needed, available, failed⟩ := Cursor.element_of_cut written short offset
  have words : tag ++ payload =
      order.encode 4 type.code ++ (order.encode 4 payload.length ++ payload) := by
    rw [(encodeTag_eq_ok.mp written).2, tagBytes, List.append_assoc]
  by_cases typed : 0 < left ∧ (4 ≤ left ∨ order = .little)
  · have more := Cursor.hasMore_of_cutTag type (order.encode 4 payload.length ++ payload)
      typed.1 typed.2 offset
    rw [← words] at more
    refine ⟨some (.truncated place needed available), ⟨?_, ?_, fun _ _ => ⟨_, _, _, rfl⟩⟩, ?_⟩
    · intro none
      exact absurd typed.1 (none ▸ Nat.lt_irrefl 0)
    · rintro few rfl
      exact absurd few (Nat.not_lt.mpr (typed.2.resolve_right (by decide)))
    · rw [everything_of_hasMore more, result_topLevel, elementStream, failed]
      rfl
  · have ends : ¬ Cursor.HasMore ⟨(tag ++ payload).take left, offset, order⟩ := by
      by_cases none : left = 0
      · rw [none]
        exact fun more => more.1 rfl
      · cases order with
        | little => exact absurd ⟨Nat.pos_of_ne_zero none, .inr rfl⟩ typed
        | big =>
          rw [words]
          refine Cursor.not_hasMore_of_cutTag type _ (Nat.lt_of_not_le fun four => ?_) offset
          exact typed ⟨Nat.pos_of_ne_zero none, .inl four⟩
    refine ⟨none, ⟨fun _ => rfl, fun _ _ => rfl, fun some early => ?_⟩,
      everything_of_not_hasMore ends⟩
    exact absurd ⟨some, early⟩ typed

/-! ### Elements of a file -/

theorem parts_of_encodeTopLevel {array : MatArray} {bytes : List UInt8}
    (written : encodeTopLevel compress order compression array = .ok bytes) :
    ∃ (type : DataType) (tag payload : List UInt8), bytes = tag ++ payload ∧
      encodeTag order type payload.length = .ok tag := by
  obtain ⟨element, elementWritten, written⟩ := Outcome.bind_eq_ok.mp written
  cases compression with
  | none =>
    obtain rfl := Outcome.pure_eq_ok.mp written
    obtain ⟨tag, payload, parts, tagWritten⟩ := parts_of_element elementWritten
    exact ⟨.matrix, tag, payload, parts, tagWritten⟩
  | level level =>
    obtain ⟨tag, tagWritten, written⟩ := Outcome.bind_eq_ok.mp written
    exact ⟨.compressed, tag, _, (Outcome.pure_eq_ok.mp written).symm, tagWritten⟩

/-- A cut falls behind some parts that are whole and, unless it is at the end, into the next. -/
theorem exists_cut {Item : Type} {write : Item → Except Error (List UInt8)} {items : List Item}
    {bytes : List UInt8} (written : joinParts (items.map write) = .ok bytes) {cut : Nat}
    (inside : cut ≤ bytes.length) :
    ∃ (complete cutOff : List Item) (front back : List UInt8),
      items = complete ++ cutOff ∧ bytes = front ++ back ∧
      joinParts (complete.map write) = .ok front ∧ joinParts (cutOff.map write) = .ok back ∧
      front.length ≤ cut ∧
      ∀ item ∈ cutOff.head?, ∃ part, write item = .ok part ∧ cut < front.length + part.length := by
  induction items generalizing bytes cut with
  | nil => exact ⟨[], [], [], bytes, rfl, rfl, rfl, written, Nat.zero_le cut, nofun⟩
  | cons item others inductionHypothesis =>
    rw [List.map_cons] at written
    obtain ⟨part, rest, rfl, partWritten, restWritten⟩ := joinParts_cons_eq_ok.mp written
    by_cases whole : part.length ≤ cut
    · rw [List.length_append] at inside
      obtain ⟨complete, cutOff, front, back, rfl, rfl, frontWritten, backWritten, before, behind⟩ :=
        inductionHypothesis restWritten (show cut - part.length ≤ rest.length by omega)
      refine ⟨item :: complete, cutOff, part ++ front, back, rfl, (List.append_assoc _ _ _).symm,
        joinParts_cons_eq_ok.mpr ⟨part, front, rfl, partWritten, frontWritten⟩, backWritten, ?_,
        fun next member => ?_⟩
      · rw [List.length_append]
        omega
      · obtain ⟨following, followingWritten, longer⟩ := behind next member
        refine ⟨following, followingWritten, ?_⟩
        rw [List.length_append]
        omega
    · refine ⟨[], item :: others, [], part ++ rest, rfl, rfl, rfl, written, Nat.zero_le cut,
        fun next member => ?_⟩
      obtain rfl := Option.some.inj member
      refine ⟨part, partWritten, ?_⟩
      rw [List.length_nil, Nat.zero_add]
      exact Nat.lt_of_not_le whole

/-- Nothing is yielded where a cut leaves less than the first element. -/
theorem ArrayStream.everything_of_cutOff {arrays : List MatArray} {bytes : List UInt8}
    (written : joinParts (arrays.map (encodeTopLevel compress order compression)) = .ok bytes)
    {left : Nat} (inside : left ≤ bytes.length)
    (short : ∀ array ∈ arrays.head?, ∃ element,
      encodeTopLevel compress order compression array = .ok element ∧ left < element.length)
    (wanted : String → Bool) (offset : Nat) :
    ∃ failure, EndsCut order left failure ∧
      everything inflate wanted ⟨[], .reading ⟨bytes.take left, offset, order⟩⟩ =
        ⟨[], failure⟩ := by
  cases arrays with
  | nil =>
    obtain rfl := Except.ok.inj written
    obtain rfl := Nat.le_zero.mp inside
    exact ⟨none, ⟨fun _ => rfl, fun _ _ => rfl, fun more => absurd more (Nat.lt_irrefl 0)⟩,
      everything_of_not_hasMore fun more => more.1 rfl⟩
  | cons array others =>
    rw [List.map_cons] at written
    obtain ⟨element, rest, rfl, elementWritten, _⟩ := joinParts_cons_eq_ok.mp written
    obtain ⟨same, sameWritten, shorter⟩ := short array rfl
    obtain rfl := Except.ok.inj (elementWritten.symm.trans sameWritten)
    obtain ⟨type, tag, payload, rfl, tagWritten⟩ := parts_of_encodeTopLevel elementWritten
    rw [List.take_append_of_le_length (Nat.le_of_lt shorter)]
    exact everything_of_cut tagWritten shorter wanted offset

/-- The arrays of the elements before a cut are yielded, and nothing of the element that it
falls into. -/
theorem ArrayStream.everything_of_cutElements
    (inverted : compression ≠ .none → compress.Inverted inflate)
    {arrays : List MatArray} (shaped : ∀ array ∈ arrays, array.Everywhere MatArray.Shaped)
    {bytes : List UInt8}
    (written : joinParts (arrays.map (encodeTopLevel compress order compression)) = .ok bytes)
    (wanted : String → Bool) {cut : Nat} (inside : cut ≤ bytes.length) (offset : Nat) :
    ∃ (complete cutOff : List MatArray) (front : List UInt8) (failure : Option Error),
      arrays = complete ++ cutOff ∧
      joinParts (complete.map (encodeTopLevel compress order compression)) = .ok front ∧
      front <+: bytes ∧ front.length ≤ cut ∧
      (∀ array ∈ cutOff.head?, ∃ element,
        encodeTopLevel compress order compression array = .ok element ∧
          cut < front.length + element.length) ∧
      EndsCut order (cut - front.length) failure ∧
      everything inflate wanted ⟨[], .reading ⟨bytes.take cut, offset, order⟩⟩ =
        ⟨complete.filterMap (MatArray.readBack? wanted), failure⟩ := by
  obtain ⟨complete, cutOff, front, back, rfl, rfl, frontWritten, backWritten, before, behind⟩ :=
    exists_cut written inside
  have left : cut - front.length ≤ back.length := by
    rw [List.length_append] at inside
    omega
  have short : ∀ array ∈ cutOff.head?, ∃ element,
      encodeTopLevel compress order compression array = .ok element ∧
        cut - front.length < element.length := by
    intro array member
    obtain ⟨element, elementWritten, longer⟩ := behind array member
    exact ⟨element, elementWritten, by omega⟩
  obtain ⟨failure, ends, yielded⟩ := everything_of_cutOff backWritten left short wanted
    (offset + front.length)
  refine ⟨complete, cutOff, front, failure, rfl, frontWritten, List.prefix_append front back,
    before, behind, ends, ?_⟩
  rw [List.take_append, List.take_of_length_le before, everything_of_elements inverted
    (fun array member => shaped array (List.mem_append_left cutOff member)) frontWritten, yielded,
    Yield.after_nil]

/-! ### Whole files -/

theorem joinParts_concat {parts : List (Except Error (List UInt8))}
    {last : Except Error (List UInt8)} {front back : List UInt8}
    (partsWritten : joinParts parts = .ok front) (lastWritten : last = .ok back) :
    joinParts (parts ++ [last]) = .ok (front ++ back) := by
  induction parts generalizing front with
  | nil =>
    obtain rfl := Except.ok.inj partsWritten
    exact joinParts_cons_eq_ok.mpr ⟨back, [], (List.append_nil _).symm, lastWritten, rfl⟩
  | cons part others inductionHypothesis =>
    obtain ⟨head, tail, rfl, headWritten, tailWritten⟩ := joinParts_cons_eq_ok.mp partsWritten
    rw [List.cons_append, List.append_assoc]
    exact joinParts_cons_eq_ok.mpr
      ⟨head, tail ++ back, rfl, headWritten, inductionHypothesis tailWritten⟩

/-- A file is its header and the elements of its arrays. -/
theorem encodeFileWith_of_elements {arrays : List MatArray} {options : WriteOptions}
    {elements : List UInt8}
    (written : joinParts (arrays.map
      (encodeTopLevel compress options.order options.compression)) = .ok elements) :
    encodeFileWith compress arrays options =
      .ok (Header.encode options.description options.order ++ elements) := by
  rw [encodeFileWith, Outcome.bind_of_ok written]
  rfl

/-- A file that was written and cut anywhere behind its header yields the arrays whose elements
are whole, and nothing else: no error if the cut is where an element ends, and an error that
tells of missing bytes if it is inside an element, unless what is left of that are the zeros
that a big-endian tag starts with. -/
theorem yields_truncated {options : WriteOptions}
    (inverted : options.compression ≠ .none → compress.Inverted inflate) {arrays : List MatArray}
    (wellFormed : ∀ array ∈ arrays, array.Everywhere MatArray.WellFormed) {bytes : List UInt8}
    (written : encodeFileWith compress arrays options = .ok bytes) {cut : Nat}
    (header : headerSize ≤ cut) (inside : cut ≤ bytes.length) :
    ∃ (complete cutOff : List MatArray) (front : List UInt8) (stream : ArrayStream)
      (yield : Yield),
      arrays = complete ++ cutOff ∧
      encodeFileWith compress complete options = .ok front ∧ front <+: bytes ∧
      front.length ≤ cut ∧
      (∀ array ∈ cutOff.head?, ∃ longer,
        encodeFileWith compress (complete ++ [array]) options = .ok longer ∧
          cut < longer.length) ∧
      (openStream (bytes.take cut)).result =
        .ok (Header.written options.description options.order, stream) ∧
      stream.Yields inflate (fun _ => true) yield ∧
      yield.arrays = complete.map MatArray.settled ∧
      sameArrays yield.arrays complete = true ∧
      EndsCut options.order (cut - front.length) yield.failure := by
  obtain ⟨elements, elementsWritten, written⟩ := Outcome.bind_eq_ok.mp written
  obtain rfl := Outcome.pure_eq_ok.mp written
  have head := Header.length_encode options.description options.order
  rw [List.length_append, head] at inside
  have shaped : ∀ array ∈ arrays, array.Everywhere MatArray.Shaped :=
    fun array member => (wellFormed array member).imp fun _ here => here.shaped
  obtain ⟨complete, cutOff, front, failure, rfl, frontWritten, starts, before, behind, ends,
    yielded⟩ := ArrayStream.everything_of_cutElements inverted shaped elementsWritten
      (fun _ => true) (show cut - headerSize ≤ elements.length by omega) headerSize
  have settled : complete.map MatArray.kept = complete.map MatArray.settled :=
    List.map_congr_left fun array member =>
      MatArray.kept_eq_settled (wellFormed array (List.mem_append_left cutOff member))
  rw [filterMap_readBack?_all, settled] at yielded
  have yields := ArrayStream.yields_everything inflate (fun _ => true) ⟨[], .reading
    ⟨elements.take (cut - headerSize), headerSize, options.order⟩⟩
  rw [yielded] at yields
  have opened := @openStream_encode options.order options.description
    (elements.take (cut - headerSize))
  refine ⟨complete, cutOff, _, _, _, rfl,
    encodeFileWith_of_elements frontWritten,
    (List.prefix_append_right_inj _).mpr starts, ?_, fun array member => ?_, ?_, yields, rfl,
    sameArrays_map_settled complete, ?_⟩
  · rw [List.length_append, head]
    omega
  · obtain ⟨element, elementWritten, longer⟩ := behind array member
    have both : joinParts ((complete ++ [array]).map
        (encodeTopLevel compress options.order options.compression)) = .ok (front ++ element) := by
      rw [List.map_append]
      exact joinParts_concat frontWritten elementWritten
    refine ⟨_, encodeFileWith_of_elements both, ?_⟩
    rw [List.length_append, List.length_append, head]
    omega
  · rw [List.take_append, head, List.take_of_length_le (le_of_eq_of_le head header)]
    exact opened
  · rw [List.length_append, head, Nat.sub_add_eq]
    exact ends

theorem yields_truncated_twoCells :
    ∃ bytes : List UInt8,
      encodeFileWith Zlib.deflate (List.replicate 2 twoCells)
        { order := .big, compression := .level 0 } = .ok bytes ∧
      headerSize ≤ 400 ∧ 400 ≤ bytes.length ∧
      ∃ (complete cutOff : List MatArray) (front : List UInt8) (stream : ArrayStream)
        (yield : Yield),
        List.replicate 2 twoCells = complete ++ cutOff ∧
        encodeFileWith Zlib.deflate complete { order := .big, compression := .level 0 } =
          .ok front ∧ front <+: bytes ∧ front.length ≤ 400 ∧
        (∀ array ∈ cutOff.head?, ∃ longer,
          encodeFileWith Zlib.deflate (complete ++ [array])
            { order := .big, compression := .level 0 } = .ok longer ∧ 400 < longer.length) ∧
        (openStream (bytes.take 400)).result =
          .ok (Header.written Header.defaultDescription .big, stream) ∧
        stream.Yields Zlib.inflater (fun _ => true) yield ∧
        yield.arrays = complete.map MatArray.settled ∧
        sameArrays yield.arrays complete = true ∧
        EndsCut .big (400 - front.length) yield.failure := by
  have wellFormed : ∀ array ∈ List.replicate 2 twoCells,
      array.Everywhere MatArray.WellFormed :=
    fun array member => List.eq_of_mem_replicate member ▸ wellFormed_twoCells
  have long : (match encodeFileWith Zlib.deflate (List.replicate 2 twoCells)
      { order := .big, compression := .level 0 } with
    | .ok bytes => decide (400 ≤ bytes.length)
    | .error _ => false) = true := by decide +kernel
  cases written : encodeFileWith Zlib.deflate (List.replicate 2 twoCells)
      { order := .big, compression := .level 0 } with
  | error fault =>
    rw [written] at long
    cases long
  | ok bytes =>
    rw [written] at long
    have inside : 400 ≤ bytes.length := of_decide_eq_true long
    exact ⟨bytes, rfl, by decide, inside, yields_truncated
      (fun _ => Zlib.inverted_deflate) wellFormed written (by decide) inside⟩

end MatFormat
