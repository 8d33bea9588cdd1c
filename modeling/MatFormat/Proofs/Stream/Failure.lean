/-
This file tells which bytes the offset of an error counts in, and that it stands among them.
The error of a file comes from its header, from an element that the stream has reached, or from
a matrix in the stream that a compressed element spells; the offset counts in the file in the
first two cases, and in that stream in the third. A cancellation is no error of the bytes and
has no offset, and it comes only where the flag was raised.
-/

import MatFormat.File.Reader
import MatFormat.Proofs.Located
import MatFormat.Proofs.Stream.Delivery

namespace MatFormat

/-! ### The bytes of an error -/

/-- A matrix of an inflated stream is read without an error, and reading goes on behind it. -/
def Cursor.LeadsToInflated (wanted : String → Bool) (cursor rest : Cursor) : Prop :=
  ∃ slot, (cursor.inflatedMatrix wanted).result = .ok (slot, rest)

/-- The bytes that the offset of an error counts in: the file for an error of its header or of
the first of its elements that is not read, and the stream that a compressed element spells for
an error of the first matrix in there that is not read. -/
inductive RefersTo (inflate : Inflater) (wanted : String → Bool) (bytes : List UInt8)
    (error : Error) : Cursor → Prop where
  | header (order : ByteOrder) (failed : (openStream bytes).result = .error error) :
      RefersTo inflate wanted bytes error (.ofBytes bytes order)
  | element {header : Header} {start place : Cursor}
      (opened : (openStream bytes).result = .ok (header, ⟨[], .reading start⟩))
      (reached : Relation.ReflTransGen (Cursor.LeadsTo inflate wanted) start place)
      (more : place.HasMore) (failed : (place.topLevel inflate wanted).result = .error error) :
      RefersTo inflate wanted bytes error (.ofBytes bytes header.order)
  | inflated {header : Header} {start cursor rest place : Cursor} {element : Element}
      {content : List UInt8}
      (opened : (openStream bytes).result = .ok (header, ⟨[], .reading start⟩))
      (reached : Relation.ReflTransGen (Cursor.LeadsTo inflate wanted) start cursor)
      (more : cursor.HasMore) (found : cursor.element.result = .ok (element, rest))
      (type : element.tag.type = .compressed)
      (spelled : (element.payload.inflate inflate).result = .ok content)
      (placeReached : Relation.ReflTransGen (Cursor.LeadsToInflated wanted)
        (.ofBytes content rest.order) place)
      (left : ¬ place.atEnd = true) (failed : (place.inflatedMatrix wanted).result = .error error) :
      RefersTo inflate wanted bytes error (.ofBytes content rest.order)

/-- The errors that decoding a file comes to: opening it fails, its stream yields the error in
answer to one of some calls, which a schedule cancels or not, or reading it whole fails. -/
inductive Fails (inflate : Inflater) (wanted : String → Bool) (schedule : Nat → Bool)
    (bytes : List UInt8) : Error → Prop where
  | opening {error : Error} (failed : (openStream bytes).result = .error error) :
      Fails inflate wanted schedule bytes error
  | yielding {header : Header} {stream after : ArrayStream} {count : Nat}
      {items : List (Option (Except Error MatArray))} {error : Error}
      (opened : (openStream bytes).result = .ok (header, stream))
      (asked : (stream.run inflate wanted (ArrayStream.calls schedule count)).result =
        .ok (items, after))
      (yielded : some (.error error) ∈ items) : Fails inflate wanted schedule bytes error
  | reading {error : Error}
      (failed : (MatFile.read inflate bytes wanted).result = .error error) :
      Fails inflate wanted schedule bytes error

variable {inflate : Inflater} {wanted : String → Bool} {schedule : Nat → Bool}
  {bytes : List UInt8} {error : Error}

/-! ### Headers -/

/-- A header fails to be read only inside the file. -/
theorem located_header (bytes : List UInt8) (order : ByteOrder) :
    Located (.ofBytes bytes order) (fun _ => True) (Header.read bytes).result := by
  refine .choice (fun short => .error ⟨⟨Nat.le_refl 0, Nat.zero_le _⟩, short⟩) fun long => ?_
  have covers {offset : Nat} (inside : offset ≤ headerSize) :
      (Cursor.ofBytes bytes order).Covers offset :=
    ⟨Nat.zero_le _, (inside.trans (Nat.le_of_not_lt long)).trans (Nat.le_add_left _ 0)⟩
  split
  · exact .error (covers (by decide))
  · exact .choice (fun _ => .error (covers (by decide))) fun _ => .ok trivial

theorem within_openStream (failed : (openStream bytes).result = .error error)
    (order : ByteOrder) : error.Within (.ofBytes bytes order) := by
  have located : Located (.ofBytes bytes order) (fun _ => True) (openStream bytes).result :=
    (located_header bytes order).reading fun _ _ => .ok trivial
  exact located.permitted failed

/-! ### Elements -/

namespace Cursor

variable {outer start place : Cursor}

/-- Steps that stay inside some bytes never leave them. -/
theorem inside_of_steps {step : Cursor → Cursor → Prop}
    (stays : ∀ {cursor rest : Cursor}, cursor.Inside outer → step cursor rest → rest.Inside outer)
    (inside : start.Inside outer) (reached : Relation.ReflTransGen step start place) :
    place.Inside outer := by
  induction reached with
  | refl => exact inside
  | tail _ last inductionHypothesis => exact stays inductionHypothesis last

theorem LeadsTo.inside {cursor rest : Cursor} (inside : cursor.Inside outer)
    (leads : LeadsTo inflate wanted cursor rest) : rest.Inside outer :=
  leads.elim fun _ read => (located_topLevel inside inflate wanted).holds read

theorem LeadsToInflated.inside {cursor rest : Cursor} (inside : cursor.Inside outer)
    (leads : LeadsToInflated wanted cursor rest) : rest.Inside outer :=
  leads.elim fun _ read => (located_inflatedMatrix inside wanted).holds read

/-- The error that ends an inflated stream is that of the first matrix which is not read. -/
theorem Inflates.exists_failing {cursor : Cursor} {yield : Yield}
    (inflates : Inflates wanted cursor yield) (failure : yield.failure = some error) :
    ∃ place : Cursor, Relation.ReflTransGen (LeadsToInflated wanted) cursor place ∧
      ¬ place.atEnd = true ∧ (place.inflatedMatrix wanted).result = .error error := by
  induction inflates with
  | ended => cases failure
  | failing more read =>
    cases failure
    exact ⟨_, .refl, more, read⟩
  | matrix more read later inductionHypothesis =>
    obtain ⟨place, reached, failed⟩ := inductionHypothesis failure
    exact ⟨place, .head ⟨_, read⟩ reached, failed⟩

/-- What the elements of a file deliver ends in a cancellation, which takes a raised flag, or in
an error of the bytes that it refers to. -/
theorem Delivers.failure_located {header : Header}
    (opened : (openStream bytes).result = .ok (header, ⟨[], .reading start⟩))
    (inside : start.Inside (.ofBytes bytes header.order)) {cursor : Cursor} {yield : Yield}
    (delivers : cursor.Delivers inflate wanted schedule yield)
    (reached : Relation.ReflTransGen (LeadsTo inflate wanted) start cursor)
    (failure : yield.failure = some error) :
    (error = .cancelled ∧ ∃ call, schedule call = true) ∨
      ∃ buffer, RefersTo inflate wanted bytes error buffer ∧ error.Within buffer := by
  induction delivers with
  | ended => cases failure
  | cancelled more raised =>
    cases failure
    exact .inl ⟨rfl, 0, raised⟩
  | failing more lowered read =>
    cases failure
    have located := located_topLevel (inside_of_steps LeadsTo.inside inside reached) inflate wanted
    exact .inr ⟨_, .element opened reached more read, located.permitted read⟩
  | matrix more lowered found type read later inductionHypothesis =>
    have step : LeadsTo inflate wanted _ _ := ⟨_, ArrayStream.topLevel_of_matrix found type read⟩
    exact (inductionHypothesis (reached.tail step) failure).imp_left
      fun ⟨same, call, raised⟩ => ⟨same, _, raised⟩
  | compressed more lowered found type spelled inflates later inductionHypothesis =>
    have step : LeadsTo inflate wanted _ _ :=
      ⟨_, ArrayStream.topLevel_of_inflates found type spelled inflates⟩
    exact (inductionHypothesis (reached.tail step) failure).imp_left
      fun ⟨same, call, raised⟩ => ⟨same, _, raised⟩
  | compressedFailing more lowered found type spelled inflates =>
    obtain ⟨place, placeReached, left, failed⟩ := inflates.exists_failing failure
    have located := located_inflatedMatrix
      (inside_of_steps LeadsToInflated.inside (.refl _) placeReached) wanted
    exact .inr ⟨_, .inflated opened reached more found type spelled placeReached left failed,
      located.permitted failed⟩

end Cursor

/-! ### Files -/

/-- The error that a stream yields is the one that ends what it yields. -/
theorem ArrayStream.YieldsOn.failure_of_yielded {stream after : ArrayStream} {yield : Yield}
    (yields : stream.YieldsOn inflate wanted schedule yield) {count : Nat}
    {items : List (Option (Except Error MatArray))}
    (asked : (stream.run inflate wanted (calls schedule count)).result = .ok (items, after))
    (yielded : some (.error error) ∈ items) : yield.failure = some error := by
  obtain ⟨_, ran, _⟩ := yields count
  cases asked.symm.trans ran
  obtain ⟨index, _, found⟩ := List.mem_map.mp yielded
  rcases List.mem_append.mp (List.mem_of_getElem? found) with array | failure
  · obtain ⟨_, _, same⟩ := List.mem_map.mp array
    cases same
  · obtain ⟨other, held, same⟩ := List.mem_map.mp failure
    cases same
    exact Option.mem_toList.mp held

/-- The error that ends what a stream yields comes behind its arrays. -/
theorem ArrayStream.YieldsOn.exists_yielded {stream : ArrayStream} {yield : Yield}
    (yields : stream.YieldsOn inflate wanted schedule yield)
    (failure : yield.failure = some error) :
    ∃ (count : Nat) (items : List (Option (Except Error MatArray))) (after : ArrayStream),
      (stream.run inflate wanted (calls schedule count)).result = .ok (items, after) ∧
        some (.error error) ∈ items := by
  obtain ⟨after, ran, _⟩ := yields (yield.arrays.length + 1)
  have last : yield.items[yield.arrays.length]? = some (.error error) := by
    rw [Yield.items, failure, List.getElem?_append_right (by rw [List.length_map]),
      List.length_map, Nat.sub_self]
    rfl
  exact ⟨_, _, after, ran,
    List.mem_map.mpr ⟨_, List.mem_range.mpr (Nat.lt_succ_self _), last⟩⟩

/-- An error that the stream of a file yields is a cancellation or one of the bytes. -/
theorem located_of_yielded {header : Header} {stream after : ArrayStream} {count : Nat}
    {items : List (Option (Except Error MatArray))}
    (opened : (openStream bytes).result = .ok (header, stream))
    (asked : (stream.run inflate wanted (ArrayStream.calls schedule count)).result =
      .ok (items, after))
    (yielded : some (.error error) ∈ items) :
    (error = .cancelled ∧ ∃ call, schedule call = true) ∨
      ∃ buffer, RefersTo inflate wanted bytes error buffer ∧ error.Within buffer := by
  obtain ⟨_, rfl⟩ := openStream_eq_ok.mp opened
  obtain ⟨yield, delivers⟩ := Cursor.exists_delivers inflate wanted schedule
    ((Cursor.ofBytes bytes header.order).skipAtMost headerSize).2
  have yields := ArrayStream.yieldsOn_of_delivers delivers
  exact delivers.failure_located opened (Cursor.inside_skipAtMost _ headerSize) .refl
    (yields.failure_of_yielded asked yielded)

/-- Reading a file whole fails where opening it does, or with an error that its stream yields
when it is never cancelled. -/
theorem yielded_of_read (failed : (MatFile.read inflate bytes wanted).result = .error error) :
    (openStream bytes).result = .error error ∨
      ∃ (header : Header) (stream after : ArrayStream) (count : Nat)
        (items : List (Option (Except Error MatArray))),
        (openStream bytes).result = .ok (header, stream) ∧
        (stream.run inflate wanted (ArrayStream.calls (fun _ => false) count)).result =
          .ok (items, after) ∧ some (.error error) ∈ items := by
  cases opened : (openStream bytes).result with
  | error fault =>
    rw [MatFile.read, Reading.result_bind, opened] at failed
    cases failed
    exact .inl rfl
  | ok found =>
    obtain ⟨header, stream⟩ := found
    rw [MatFile.result_read opened, Yield.result] at failed
    split at failed
    · cases failed
    · rename_i failure
      cases failed
      obtain ⟨count, items, after, yields⟩ :=
        (ArrayStream.yieldsOn_everything inflate wanted stream).exists_yielded failure
      exact .inr ⟨header, stream, after, count, items, rfl, yields⟩

/-- Every error that decoding a file comes to is a cancellation, where the flag was raised, or has
its offset, if it has one, between the start and the end of the bytes that the offset counts in.
Where bytes are missing, fewer are there than needed. -/
theorem located_of_fails (fails : Fails inflate wanted schedule bytes error) :
    (error = .cancelled ∧ ∃ call, schedule call = true) ∨
      ∃ buffer, RefersTo inflate wanted bytes error buffer ∧ error.Within buffer := by
  cases fails with
  | opening failed =>
    exact .inr ⟨_, .header .little failed, within_openStream failed .little⟩
  | yielding opened asked yielded => exact located_of_yielded opened asked yielded
  | reading failed =>
    rcases yielded_of_read failed with unopened | ⟨header, stream, after, count, items, yields⟩
    · exact .inr ⟨_, .header .little unopened, within_openStream unopened .little⟩
    · obtain ⟨opened, asked, yielded⟩ := yields
      refine .inr ((located_of_yielded opened asked yielded).resolve_left ?_)
      rintro ⟨_, _, raised⟩
      cases raised

/-- A stream that spells a matrix which claims eight bytes and has none. -/
def hollowStream : List UInt8 := Zlib.deflate 6 (tagBytes .little .matrix 8)

/-- A file with one compressed element, which spells such a matrix. -/
def hollowFile : List UInt8 :=
  Header.encode "" .little ++ (tagBytes .little .compressed hollowStream.length ++ hollowStream)

theorem fails_hollowFile :
    Fails Zlib.inflater (fun _ => true) (fun _ => false) hollowFile (.truncated 8 8 0) := by
  have fits : hollowStream.length < wordLimit := by decide +kernel
  have found := @Cursor.element_of_compressedRun .little hollowStream fits [] headerSize
  rw [List.append_nil] at found
  have spelled : (Cursor.inflate ⟨hollowStream, headerSize + tagSize, .little⟩
      Zlib.inflater).result = .ok (tagBytes .little .matrix 8) := by
    rw [Cursor.inflate, hollowStream, Zlib.inflater_deflate]
    rfl
  have delivers : Cursor.Delivers Zlib.inflater (fun _ => true) (fun _ => false) _
      ⟨[], some (.truncated 8 8 0)⟩ :=
    .compressedFailing (by decide +kernel) rfl found rfl spelled (.failing (by decide) rfl)
  obtain ⟨count, items, after, asked, yielded⟩ :=
    (ArrayStream.yieldsOn_of_delivers delivers).exists_yielded rfl
  exact .yielding (openStream_encode "" _) asked yielded

theorem located_of_fails_hollowFile :
    Fails Zlib.inflater (fun _ => true) (fun _ => false) hollowFile (.truncated 8 8 0) ∧
      ((Error.truncated 8 8 0 = .cancelled ∧ ∃ call : Nat, (fun _ => false) call = true) ∨
        ∃ buffer, RefersTo Zlib.inflater (fun _ => true) hollowFile (.truncated 8 8 0) buffer ∧
          (Error.truncated 8 8 0).Within buffer) :=
  ⟨fails_hollowFile, located_of_fails fails_hollowFile⟩

end MatFormat
