/-
This file proves that compression cannot be told from the arrays of a file. Complete matrix
elements, whatever their payloads hold, are grouped into runs, and any of these runs may be
replaced by one compressed element that spells it. The file with the compressed runs yields
the arrays of the file without them, and fails exactly where that fails. The two errors
differ in their offsets only, and only by as much as the starts of the failing element: in a
compressed run it is counted from the start of what is spelled.
-/

import MatFormat.Proofs.Element
import MatFormat.Proofs.Header
import MatFormat.Proofs.Matrix.Shift
import MatFormat.Proofs.Stream.Decoded
import MatFormat.Proofs.Stream.Run
import MatFormat.Proofs.Zlib.Store

namespace MatFormat

/-! ### Elements and runs -/

/-- A complete matrix element: a payload of any bytes, and as many bytes of padding as it
needs. -/
structure MatrixElement where
  payload : List UInt8
  padding : List UInt8
  fits : payload.length < wordLimit
  padded : padding.length = paddingTo8 payload.length

/-- Elements that follow each other, and the stream of the compressed element that they are
replaced by, if they are. -/
structure ElementRun where
  elements : List MatrixElement
  compressed : Option (List UInt8)

variable (order : ByteOrder)

/-- The bytes of a matrix element. -/
def MatrixElement.bytes (element : MatrixElement) : List UInt8 :=
  tagBytes order .matrix element.payload.length ++ (element.payload ++ element.padding)

namespace ElementRun

/-- The bytes of the elements of a run. -/
def content (run : ElementRun) : List UInt8 := run.elements.flatMap (MatrixElement.bytes order)

/-- The bytes of a run as it stands in a file. -/
def bytes (run : ElementRun) : List UInt8 :=
  match run.compressed with
  | none => run.content order
  | some stream => tagBytes order .compressed stream.length ++ stream

/-- The stream of a compressed run inflates to the elements of the run. -/
def Spelled (inflate : Inflater) (run : ElementRun) : Prop :=
  ∀ stream ∈ run.compressed, stream.length < wordLimit ∧ inflate stream = .ok (run.content order)

/-- The offset of the first element of a run that stands at an offset of a file. -/
def start (run : ElementRun) (offset : Nat) : Nat :=
  match run.compressed with
  | none => offset
  | some _ => 0

end ElementRun

/-- Elements that follow each other from an offset on, and where each of them starts. -/
def located : (offset : Nat) → List MatrixElement → List (MatrixElement × Nat)
  | _, [] => []
  | offset, element :: rest =>
    (element, offset) :: located (offset + (element.bytes order).length) rest

/-- The elements of runs that follow each other from an offset on, and where each of them
starts: in the file, or in what the stream of its run spells. -/
def locatedInRuns : (offset : Nat) → List ElementRun → List (MatrixElement × Nat)
  | _, [] => []
  | offset, run :: rest =>
    located order (run.start offset) run.elements
      ++ locatedInRuns (offset + (run.bytes order).length) rest

/-- What located elements yield: their arrays, up to the first that cannot be read. -/
def locatedYield (wanted : String → Bool) : List (MatrixElement × Nat) → Yield
  | [] => ⟨[], none⟩
  | (element, offset) :: rest =>
    match (Cursor.matrix ⟨element.payload, offset + tagSize, order⟩ wanted).result with
    | .error error => ⟨[], some error⟩
    | .ok slot => (locatedYield wanted rest).after slot.toList

/-- What is yielded one after the other, up to the first error. -/
def Yield.append (first second : Yield) : Yield :=
  match first.failure with
  | none => second.after first.arrays
  | some _ => first

theorem Yield.after_append (ready : List MatArray) (first second : Yield) :
    (first.append second).after ready = (first.after ready).append second := by
  obtain ⟨arrays, failure⟩ := first
  cases failure with
  | none => simp only [append, after, List.append_assoc]
  | some error => rfl

theorem Yield.append_assoc (first second third : Yield) :
    (first.append second).append third = first.append (second.append third) := by
  obtain ⟨arrays, failure⟩ := first
  cases failure with
  | none => exact (after_append arrays second third).symm
  | some error => rfl

variable {order} {inflate : Inflater} {wanted : String → Bool}

theorem locatedYield_append (first second : List (MatrixElement × Nat)) :
    locatedYield order wanted (first ++ second) =
      (locatedYield order wanted first).append (locatedYield order wanted second) := by
  induction first with
  | nil => rfl
  | cons element rest inductionHypothesis =>
    rw [List.cons_append, locatedYield, locatedYield, inductionHypothesis]
    cases (Cursor.matrix ⟨element.1.payload, element.2 + tagSize, order⟩ wanted).result with
    | error error => rfl
    | ok slot => exact Yield.after_append _ _ _

/-! ### One element -/

theorem MatrixElement.tagSize_le (element : MatrixElement) (order : ByteOrder) :
    tagSize ≤ (element.bytes order).length := by
  rw [MatrixElement.bytes, List.length_append, length_tagBytes]
  exact Nat.le_add_right _ _

theorem tagSize_le_tagBytes_append (order : ByteOrder) (type : DataType) (bytes : List UInt8) :
    tagSize ≤ (tagBytes order type bytes.length ++ bytes).length := by
  rw [List.length_append, length_tagBytes]
  exact Nat.le_add_right _ _

theorem Cursor.element_of_matrixElement (element : MatrixElement) (rest : List UInt8)
    (offset : Nat) :
    (Cursor.element ⟨element.bytes order ++ rest, offset, order⟩).result =
      .ok (⟨⟨.matrix, element.payload.length, false⟩,
          ⟨element.payload, offset + tagSize, order⟩⟩,
        ⟨rest, offset + (element.bytes order).length, order⟩) := by
  have read := element_of_tag element.padding (tag_of_written
    (encodeTag_of_lt order .matrix element.fits)
    (element.payload ++ (element.padding ++ rest)) offset) rfl rfl element.padded.symm
  rw [MatrixElement.bytes, List.append_assoc, List.append_assoc, read, List.length_append,
    List.length_append, length_tagBytes]
  simp only [Nat.add_assoc]

theorem Cursor.element_of_compressedRun {stream : List UInt8} (fits : stream.length < wordLimit)
    (rest : List UInt8) (offset : Nat) :
    (Cursor.element ⟨tagBytes order .compressed stream.length ++ stream ++ rest, offset,
        order⟩).result =
      .ok (⟨⟨.compressed, stream.length, false⟩, ⟨stream, offset + tagSize, order⟩⟩,
        ⟨rest, offset + (tagBytes order .compressed stream.length ++ stream).length, order⟩) := by
  have read := element_of_tag [] (tag_of_written
    (encodeTag_of_lt order .compressed fits) (stream ++ ([] ++ rest)) offset) rfl rfl rfl
  rw [List.append_assoc, List.length_append, length_tagBytes, ← Nat.add_assoc]
  exact read

namespace ArrayStream

theorem everything_resumed (inflate : Inflater) (wanted : String → Bool) (yield : Yield)
    (cursor : Cursor) :
    everything inflate wanted (resumed yield cursor) =
      yield.append (everything inflate wanted ⟨[], .reading cursor⟩) := by
  obtain ⟨arrays, failure⟩ := yield
  cases failure with
  | none => exact everything_ready wanted arrays (.reading cursor)
  | some error => exact everything_failing wanted arrays error

theorem everything_matrixElement (element : MatrixElement) (rest : List UInt8) (offset : Nat) :
    everything inflate wanted ⟨[], .reading ⟨element.bytes order ++ rest, offset, order⟩⟩ =
      (locatedYield order wanted [(element, offset)]).append (everything inflate wanted
        ⟨[], .reading ⟨rest, offset + (element.bytes order).length, order⟩⟩) := by
  have more := Cursor.hasMore_append (element.tagSize_le order) rest offset order
  rw [everything_of_hasMore more, result_topLevel, elementStream,
    Outcome.bind_of_ok (Cursor.element_of_matrixElement element rest offset), locatedYield]
  dsimp only
  cases (Cursor.matrix ⟨element.payload, offset + tagSize, order⟩ wanted).result with
  | error error => rfl
  | ok slot =>
    have alone : Yield.after slot.toList ⟨[], none⟩ = ⟨slot.toList, none⟩ :=
      congrArg (Yield.mk · none) (List.append_nil _)
    have resumes := everything_resumed inflate wanted ⟨slot.toList, none⟩
      ⟨rest, offset + (element.bytes order).length, order⟩
    dsimp only [locatedYield]
    rw [alone]
    exact resumes

theorem everything_elements (elements : List MatrixElement) (rest : List UInt8) (offset : Nat) :
    everything inflate wanted
        ⟨[], .reading ⟨elements.flatMap (MatrixElement.bytes order) ++ rest, offset, order⟩⟩ =
      (locatedYield order wanted (located order offset elements)).append
        (everything inflate wanted ⟨[], .reading ⟨rest,
          offset + (elements.flatMap (MatrixElement.bytes order)).length, order⟩⟩) := by
  induction elements generalizing offset with
  | nil => rfl
  | cons element others inductionHypothesis =>
    rw [List.flatMap_cons, List.append_assoc, everything_matrixElement, inductionHypothesis,
      located, List.length_append, Nat.add_assoc, ← Yield.append_assoc, ← locatedYield_append]
    rfl

end ArrayStream

/-! ### Runs -/

theorem length_le_elements (elements : List MatrixElement) :
    elements.length ≤ (elements.flatMap (MatrixElement.bytes order)).length := by
  induction elements with
  | nil => exact Nat.le_refl 0
  | cons element others inductionHypothesis =>
    have filled := element.tagSize_le order
    have positive : tagSize = 8 := rfl
    rw [List.flatMap_cons, List.length_append, List.length_cons]
    omega

/-- What a stream spells yields what its elements yield. -/
theorem Cursor.inflatedYield_elements (elements : List MatrixElement) {bound : Nat}
    (enough : elements.length ≤ bound) (offset : Nat) :
    inflatedYield wanted bound ⟨elements.flatMap (MatrixElement.bytes order), offset, order⟩ =
      locatedYield order wanted (located order offset elements) := by
  induction elements generalizing bound offset with
  | nil => cases bound <;> rfl
  | cons element others inductionHypothesis =>
    obtain ⟨fewer, rfl⟩ : ∃ fewer, bound = fewer + 1 :=
      Nat.exists_eq_succ_of_ne_zero (Nat.ne_of_gt (Nat.lt_of_lt_of_le (Nat.succ_pos _) enough))
    have inside : ¬ Cursor.atEnd ⟨element.bytes order
        ++ others.flatMap (MatrixElement.bytes order), offset, order⟩ = true := by
      apply not_atEnd_of_tagSize_le
      rw [Cursor.remaining, List.length_append]
      exact (element.tagSize_le order).trans (Nat.le_add_right _ _)
    rw [List.flatMap_cons, inflatedYield, if_neg inside, result_inflatedMatrix,
      Outcome.bind_of_ok (element_of_matrixElement element _ offset), located, locatedYield]
    dsimp only
    rw [if_neg (not_not.mpr rfl)]
    cases (Cursor.matrix ⟨element.payload, offset + tagSize, order⟩ wanted).result with
    | error error => rfl
    | ok slot =>
      exact congrArg (Yield.after slot.toList)
        (inductionHypothesis (Nat.le_of_succ_le_succ enough) _)

namespace ArrayStream

/-- A run yields what its elements yield, and then comes what follows it. -/
theorem everything_run {run : ElementRun} (spelled : run.Spelled order inflate) (rest : List UInt8)
    (offset : Nat) :
    everything inflate wanted ⟨[], .reading ⟨run.bytes order ++ rest, offset, order⟩⟩ =
      (locatedYield order wanted (located order (run.start offset) run.elements)).append
        (everything inflate wanted
          ⟨[], .reading ⟨rest, offset + (run.bytes order).length, order⟩⟩) := by
  obtain ⟨elements, compressed⟩ := run
  cases compressed with
  | none => exact everything_elements elements rest offset
  | some stream =>
    obtain ⟨fits, inflated⟩ := spelled stream rfl
    have more : Cursor.HasMore
        ⟨tagBytes order .compressed stream.length ++ stream ++ rest, offset, order⟩ :=
      Cursor.hasMore_append (tagSize_le_tagBytes_append _ _ _) rest offset order
    have content : (Cursor.inflate ⟨stream, offset + tagSize, order⟩ inflate).result =
        .ok (elements.flatMap (MatrixElement.bytes order)) := by
      rw [Cursor.inflate]
      dsimp only
      rw [inflated]
      rfl
    have read : (Cursor.topLevel ⟨tagBytes order .compressed stream.length ++ stream ++ rest,
        offset, order⟩ inflate wanted).result = .ok (resumed
          (locatedYield order wanted (located order 0 elements))
          ⟨rest, offset + (tagBytes order .compressed stream.length ++ stream).length, order⟩) := by
      rw [result_topLevel, elementStream,
        Outcome.bind_of_ok (Cursor.element_of_compressedRun fits rest offset)]
      dsimp only
      rw [Outcome.bind_of_ok content, Cursor.ofBytes,
        Cursor.inflatedYield_elements elements (length_le_elements elements)]
      rfl
    rw [ElementRun.bytes, ElementRun.start]
    dsimp only
    rw [everything_of_hasMore more, read]
    exact everything_resumed inflate wanted _ _

theorem everything_runs (wanted : String → Bool) {runs : List ElementRun}
    (spelled : ∀ run ∈ runs, run.Spelled order inflate) (offset : Nat) :
    everything inflate wanted
        ⟨[], .reading ⟨runs.flatMap (ElementRun.bytes order), offset, order⟩⟩ =
      locatedYield order wanted (locatedInRuns order offset runs) := by
  induction runs generalizing offset with
  | nil =>
    rw [everything]
    exact congrArg (Yield.after []) (everything_ended wanted)
  | cons run others inductionHypothesis =>
    rw [List.flatMap_cons, everything_run (spelled run List.mem_cons_self),
      inductionHypothesis (fun other member => spelled other (List.mem_cons_of_mem _ member)),
      locatedInRuns, locatedYield_append]

end ArrayStream

/-! ### The same elements at other places -/

theorem map_fst_located (offset : Nat) (elements : List MatrixElement) :
    (located order offset elements).map Prod.fst = elements := by
  induction elements generalizing offset with
  | nil => rfl
  | cons element others inductionHypothesis =>
    rw [located, List.map_cons, inductionHypothesis]

theorem map_fst_locatedInRuns (offset : Nat) (runs : List ElementRun) :
    (locatedInRuns order offset runs).map Prod.fst = runs.flatMap ElementRun.elements := by
  induction runs generalizing offset with
  | nil => rfl
  | cons run others inductionHypothesis =>
    rw [locatedInRuns, List.map_append, map_fst_located, inductionHypothesis, List.flatMap_cons]

/-- The payload of an element is read as at the start of a file, and an error is later by as
much as the element starts later. -/
theorem moves_elementPayload (order : ByteOrder) (wanted : String → Bool)
    (element : MatrixElement) (start : Nat) :
    Moves start id (Cursor.matrix ⟨element.payload, tagSize, order⟩ wanted).result
      (Cursor.matrix ⟨element.payload, start + tagSize, order⟩ wanted).result := by
  have moves := Cursor.moves_matrix start ⟨element.payload, tagSize, order⟩ wanted
  rw [Cursor.moved, Nat.add_comm tagSize start] at moves
  exact moves

/-- The same arrays, and the same error but for its place: it comes from the same element,
and its offset counts from where that element starts. -/
inductive SameButForPlace (order : ByteOrder) (wanted : String → Bool)
    (first second : List (MatrixElement × Nat)) : Yield → Yield → Prop where
  | complete (arrays : List MatArray) :
    SameButForPlace order wanted first second ⟨arrays, none⟩ ⟨arrays, none⟩
  | failing (arrays : List MatArray) (place : Nat) (element : MatrixElement)
    (start otherStart : Nat) (error : Error)
    (here : first[place]? = some (element, start))
    (there : second[place]? = some (element, otherStart))
    (fails : (Cursor.matrix ⟨element.payload, tagSize, order⟩ wanted).result = .error error) :
    SameButForPlace order wanted first second ⟨arrays, some (error.moved start)⟩
      ⟨arrays, some (error.moved otherStart)⟩

theorem SameButForPlace.cons {first second : List (MatrixElement × Nat)} {yield other : Yield}
    (same : SameButForPlace order wanted first second yield other)
    (here there : MatrixElement × Nat) (ready : List MatArray) :
    SameButForPlace order wanted (here :: first) (there :: second) (yield.after ready)
      (other.after ready) := by
  cases same with
  | complete arrays => exact .complete (ready ++ arrays)
  | failing arrays place element start otherStart error inFirst inSecond fails =>
    exact .failing (ready ++ arrays) (place + 1) element start otherStart error inFirst inSecond
      fails

/-- The same elements at other places yield the same but for the place of an error. -/
theorem locatedYield_same {first second : List (MatrixElement × Nat)}
    (same : first.map Prod.fst = second.map Prod.fst) :
    SameButForPlace order wanted first second (locatedYield order wanted first)
      (locatedYield order wanted second) := by
  induction first generalizing second with
  | nil =>
    obtain rfl := List.map_eq_nil_iff.mp same.symm
    exact .complete []
  | cons here others inductionHypothesis =>
    obtain ⟨element, start⟩ := here
    cases second with
    | nil => cases same
    | cons there otherOthers =>
      obtain ⟨otherElement, otherStart⟩ := there
      obtain ⟨rfl, rest⟩ := List.cons.inj same
      have moves := moves_elementPayload order wanted element start
      have otherMoves := moves_elementPayload order wanted element otherStart
      rw [locatedYield, locatedYield]
      cases read : (Cursor.matrix ⟨element.payload, tagSize, order⟩ wanted).result with
      | error error =>
        rw [read] at moves otherMoves
        rw [moves.eq_error, otherMoves.eq_error]
        exact .failing [] 0 element start otherStart error rfl rfl read
      | ok slot =>
        rw [read] at moves otherMoves
        rw [moves.eq_ok, otherMoves.eq_ok]
        exact (inductionHypothesis rest).cons _ _ slot.toList

/-! ### Whole files -/

theorem openStream_append {head : List UInt8} {header : Header} (size : head.length = headerSize)
    (read : (Header.read head).result = .ok header) (bytes : List UInt8) :
    (openStream (head ++ bytes)).result =
      .ok (header, ⟨[], .reading ⟨bytes, headerSize, header.order⟩⟩) := by
  refine openStream_eq_ok.mpr ⟨(Header.read_append size bytes).trans read, ?_⟩
  have skipped := Cursor.skipAtMost_append head bytes 0 header.order
  rw [size, Nat.zero_add] at skipped
  rw [Cursor.ofBytes, skipped]

/-- Compression cannot be told from the arrays. Any complete matrix elements follow a header,
in runs of which any may be compressed; the stream of the file in which no run is compressed
and that of the file as it is yield the same arrays, and the same error if there is one but
for its place, which counts from where the failing element starts. -/
theorem compression_transparent {head : List UInt8} {header : Header}
    (size : head.length = headerSize) (read : (Header.read head).result = .ok header)
    {runs : List ElementRun} (spelled : ∀ run ∈ runs, run.Spelled header.order inflate)
    (wanted : String → Bool) :
    ∃ (plain packed : ArrayStream) (plainYield packedYield : Yield),
      (openStream (head ++ runs.flatMap (ElementRun.content header.order))).result =
        .ok (header, plain) ∧
      (openStream (head ++ runs.flatMap (ElementRun.bytes header.order))).result =
        .ok (header, packed) ∧
      plain.Yields inflate wanted plainYield ∧ packed.Yields inflate wanted packedYield ∧
      SameButForPlace header.order wanted
        (located header.order headerSize (runs.flatMap ElementRun.elements))
        (locatedInRuns header.order headerSize runs) plainYield packedYield := by
  refine ⟨_, _, _, _, openStream_append size read _, openStream_append size read _,
    ArrayStream.yields_everything _ _ _, ArrayStream.yields_everything _ _ _, ?_⟩
  -- The plain file is one run that is not compressed.
  have whole : ∀ run ∈ [ElementRun.mk (runs.flatMap ElementRun.elements) none],
      run.Spelled header.order inflate := by
    intro run member stream held
    rw [List.mem_singleton.mp member] at held
    cases held
  have plain := ArrayStream.everything_runs wanted whole headerSize
  have content : runs.flatMap (ElementRun.content header.order) =
      (runs.flatMap ElementRun.elements).flatMap (MatrixElement.bytes header.order) :=
    List.flatMap_assoc.symm
  rw [List.flatMap_singleton, locatedInRuns, locatedInRuns, List.append_nil] at plain
  rw [content, ArrayStream.everything_runs wanted spelled]
  refine plain ▸ locatedYield_same ?_
  rw [map_fst_locatedInRuns]
  exact map_fst_located headerSize _

/-- A matrix of one small integer. -/
def scalarElement : MatrixElement := ⟨scalarPayload, [], by decide, rfl⟩

/-- A matrix that ends within its first tag. -/
def cutElement : MatrixElement := ⟨[1, 2, 3], List.replicate 5 0, by decide, rfl⟩

/-- A plain run, and a compressed one that ends with an element that cannot be read. -/
def mixedRuns : List ElementRun :=
  [⟨[scalarElement], none⟩,
    ⟨[scalarElement, cutElement], some (Zlib.deflate 6
      ([scalarElement, cutElement].flatMap (MatrixElement.bytes .little)))⟩]

theorem spelled_mixedRuns : ∀ run ∈ mixedRuns, run.Spelled .little Zlib.inflater := by
  intro run member stream held
  rcases List.mem_cons.mp member with rfl | member
  · cases held
  · rw [List.mem_singleton.mp member] at held ⊢
    obtain rfl := Option.some.inj held
    exact ⟨by decide +kernel, Zlib.inflater_deflate 6 _⟩

theorem compression_transparent_mixedRuns :
    ∃ (plain packed : ArrayStream) (plainYield packedYield : Yield),
      (openStream
          (Header.encode "" .little ++ mixedRuns.flatMap (ElementRun.content .little))).result =
        .ok (Header.written "" .little, plain) ∧
      (openStream
          (Header.encode "" .little ++ mixedRuns.flatMap (ElementRun.bytes .little))).result =
        .ok (Header.written "" .little, packed) ∧
      plain.Yields Zlib.inflater (fun _ => true) plainYield ∧
      packed.Yields Zlib.inflater (fun _ => true) packedYield ∧
      SameButForPlace .little (fun _ => true)
        (located .little headerSize (mixedRuns.flatMap ElementRun.elements))
        (locatedInRuns .little headerSize mixedRuns) plainYield packedYield := by
  have read := Header.read_encode "" .little []
  rw [List.append_nil] at read
  exact compression_transparent (Header.length_encode "" .little) read spelled_mixedRuns
    fun _ => true

/-! ### A file to read from -/

/-- A matrix of one small integer under a name of one letter. -/
def letterElement (letter value : UInt8) : MatrixElement where
  payload := [6, 0, 0, 0, 8, 0, 0, 0, 8, 0, 0, 0, 0, 0, 0, 0,
    5, 0, 0, 0, 8, 0, 0, 0, 1, 0, 0, 0, 1, 0, 0, 0, 1, 0, 1, 0, letter, 0, 0, 0,
    1, 0, 1, 0, value, 0, 0, 0]
  padding := []
  fits := show 48 < wordLimit by decide
  padded := show 0 = paddingTo8 48 by decide

/-- Three of these that share a compressed element. -/
def sharedElements : List MatrixElement :=
  [letterElement 98 2, letterElement 99 3, letterElement 97 4]

/-- The stream of that element. -/
def sharedStream : List UInt8 :=
  Zlib.deflate 6 (sharedElements.flatMap (MatrixElement.bytes .little))

/-- The elements of a file in which some matrices share a compressed element, and some a name. -/
def sharedRuns : List ElementRun :=
  [⟨[letterElement 97 1], none⟩, ⟨sharedElements, some sharedStream⟩,
    ⟨[letterElement 98 5], none⟩]

theorem length_sharedStream : sharedStream.length < wordLimit := by decide +kernel

theorem spelled_sharedRuns : ∀ run ∈ sharedRuns, run.Spelled .little Zlib.inflater := by
  intro run member stream held
  simp only [sharedRuns, List.mem_cons, List.not_mem_nil, or_false] at member
  rcases member with rfl | rfl | rfl
  · cases held
  · obtain rfl := Option.some.inj held
    exact ⟨length_sharedStream, Zlib.inflater_deflate 6 _⟩
  · cases held

/-- The stream of that file. -/
def sharedFile : ArrayStream :=
  ⟨[], .reading ⟨sharedRuns.flatMap (ElementRun.bytes .little), headerSize, .little⟩⟩

theorem everything_sharedFile :
    ArrayStream.everything Zlib.inflater (fun _ => true) sharedFile =
      ⟨[scalar "a" 1, scalar "b" 2, scalar "c" 3, scalar "a" 4, scalar "b" 5], none⟩ :=
  (ArrayStream.everything_runs _ spelled_sharedRuns headerSize).trans rfl

end MatFormat
