/-
This file states what can be relied on in every array that was read, at every depth and
whatever bytes it was read from: its parts fit together, its names have no NUL, no slot holds
the array that an unset slot is written as, its counts are those of its dimensions and fit in
64 bits, and no access leaves its parts. It holds of an array read from the payload of a
matrix and of every array that the stream of a file yields.
-/

import MatFormat.Proofs.Bounds
import MatFormat.Proofs.File.RoundTrip
import MatFormat.Proofs.Stream.Yields

namespace MatFormat

/-- What can be relied on in an array that was read. -/
structure MatArray.Decoded (array : MatArray) : Prop extends array.Sound where
  rank : 2 ≤ array.dimensions.length
  count : array.info.shape.count = product array.dimensions ∧
    array.info.shape.count < countLimit
  columns : array.info.shape.columns = product array.dimensions.tail ∧
    array.info.shape.columns < countLimit
  index : ∀ row column place : Nat,
    array.info.shape.index? row column = some place → place < array.info.shape.count
  linearIndex : ∀ (position : List Nat) (place : Nat),
    array.info.shape.linearIndex? position = some place → place < array.info.shape.count
  inBounds : array.InBounds

theorem MatArray.Sound.decoded {array : MatArray} (sound : array.Sound) : array.Decoded :=
  { sound with
    rank := array.info.shape.rank_ge_two
    count := ⟨rfl, array.info.shape.count_lt⟩
    columns := ⟨rfl, array.info.shape.columns_lt⟩
    index := fun _ _ _ found => Shape.lt_count_of_index? found
    linearIndex := fun _ _ found => Shape.lt_count_of_linearIndex? found
    inBounds := sound.shaped.inBounds }

/-- Every array that is read from the payload of a matrix, or yielded by the stream of a file
on whatever schedule of cancellations, can be relied on at every depth. -/
theorem everywhere_decoded (wanted : String → Bool) :
    (∀ (payload : Cursor) (array : MatArray),
      (payload.matrix wanted).result = .ok (some array) →
        array.Everywhere MatArray.Decoded) ∧
    ∀ (inflate : Inflater) (bytes : List UInt8) (header : Header) (stream : ArrayStream)
      (schedule : List Bool) (results : List (Option (Except Error MatArray))),
      (openStream bytes).result = .ok (header, stream) →
      (ArrayStream.items inflate wanted schedule stream).result = .ok results →
        ∀ array, some (.ok array) ∈ results → array.Everywhere MatArray.Decoded := by
  have gives : Cursor.Gives (fun payload => payload.matrix wanted)
      (MatArray.Everywhere MatArray.Decoded) := fun payload array read =>
    (Cursor.gives_matrix wanted payload array read).imp fun _ sound => sound.decoded
  exact ⟨gives, fun inflate bytes header stream schedule results opened yielded =>
    ArrayStream.of_items gives (allReady_of_openStream opened) yielded⟩

/-- The payload of a matrix of one small integer under a name of one letter. -/
def scalarPayload : List UInt8 :=
  [6, 0, 0, 0, 8, 0, 0, 0, 8, 0, 0, 0, 0, 0, 0, 0, 5, 0, 0, 0, 8, 0, 0, 0, 1, 0, 0, 0, 1, 0, 0, 0,
    1, 0, 1, 0, 97, 0, 0, 0, 1, 0, 1, 0, 7, 0, 0, 0]

/-- Two elements that hold that matrix. -/
def scalarElements : List UInt8 :=
  let element := [14, 0, 0, 0, 48, 0, 0, 0] ++ scalarPayload
  element ++ element

theorem everywhere_decoded_scalar :
    (∃ array : MatArray, ((Cursor.ofBytes scalarPayload .little).matrix fun _ => true).result =
        .ok (some array) ∧ array.Everywhere MatArray.Decoded) ∧
      ∃ (header : Header) (stream : ArrayStream) (first second : MatArray),
        (openStream (Header.encode "" .little ++ scalarElements)).result = .ok (header, stream) ∧
          (ArrayStream.items Zlib.inflater (fun _ => true) [false, false, true] stream).result =
            .ok [some (.ok first), some (.ok second), none] ∧
          first.Everywhere MatArray.Decoded ∧ second.Everywhere MatArray.Decoded := by
  obtain ⟨ofPayload, ofFile⟩ := everywhere_decoded fun _ => true
  constructor
  · obtain ⟨array, read⟩ : ∃ array : MatArray,
        ((Cursor.ofBytes scalarPayload .little).matrix fun _ => true).result =
          .ok (some array) := ⟨_, rfl⟩
    exact ⟨array, read, ofPayload _ array read⟩
  · have opened : (openStream (Header.encode "" .little ++ scalarElements)).result = _ :=
      openStream_encode "" scalarElements
    obtain ⟨first, second, yielded⟩ : ∃ first second : MatArray,
        (ArrayStream.items Zlib.inflater (fun _ => true) [false, false, true]
          ⟨[], .reading ⟨scalarElements, headerSize, .little⟩⟩).result =
            .ok [some (.ok first), some (.ok second), none] := ⟨_, _, rfl⟩
    have sound := ofFile _ _ _ _ _ _ opened yielded
    exact ⟨_, _, first, second, opened, yielded, sound first List.mem_cons_self,
      sound second (List.mem_cons_of_mem _ List.mem_cons_self)⟩

end MatFormat
