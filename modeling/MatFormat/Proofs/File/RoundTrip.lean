/-
This file proves the round trip of files. Whether the element of an array is compressed or
not, reading it gives what is kept of the array and stops right behind it. No padding stands
between elements, because a matrix element is padded in full and a compressed one never is,
and what is left always holds at least a tag until nothing is left. So the stream yields one
array for every array that was written, and the file enters them in that order. Of the
compressor and the inflater only one thing is used, and only where elements are compressed:
inflating what the compressor gives returns its input.
-/

import MatFormat.File.Reader
import MatFormat.File.Writer
import MatFormat.Proofs.File.Basic
import MatFormat.Proofs.Header
import MatFormat.Proofs.Matrix.RoundTrip
import MatFormat.Proofs.Stream.Run
import MatFormat.Proofs.Zlib.Store

namespace MatFormat

/-- A compressor whose streams inflate to what they were made from. -/
def Compressor.Inverted (compress : Compressor) (inflate : Inflater) : Prop :=
  ∀ (level : Nat) (content : List UInt8), inflate (compress level content) = .ok content

theorem Zlib.inverted_deflate : Compressor.Inverted Zlib.deflate Zlib.inflater :=
  Zlib.inflater_deflate

/-- What is read where an array was written, if its name is wanted. -/
def MatArray.readBack? (wanted : String → Bool) (array : MatArray) : Option MatArray :=
  if wanted (cutName array.name) then some array.kept else none

variable {compress : Compressor} {inflate : Inflater} {order : ByteOrder}
  {compression : Compression}

/-! ### One element -/

theorem tagSize_le_element {array : MatArray} {bytes : List UInt8}
    (written : array.element order = .ok bytes) : tagSize ≤ bytes.length := by
  rw [MatArray.element_eq] at written
  obtain ⟨payload, _, elementWritten⟩ := Outcome.bind_eq_ok.mp written
  exact tagSize_le_of_layout (layout_of_encodeElement elementWritten)

theorem tagSize_le_topLevel {array : MatArray} {bytes : List UInt8}
    (written : encodeTopLevel compress order compression array = .ok bytes) :
    tagSize ≤ bytes.length := by
  obtain ⟨content, contentWritten, written⟩ := Outcome.bind_eq_ok.mp written
  cases compression with
  | none =>
    rw [← Outcome.pure_eq_ok.mp written]
    exact tagSize_le_element contentWritten
  | level level =>
    obtain ⟨tag, tagWritten, written⟩ := Outcome.bind_eq_ok.mp written
    rw [← Outcome.pure_eq_ok.mp written, List.length_append, length_encodeTag tagWritten]
    exact Nat.le_add_right _ _

namespace Cursor

/-- A compressed element is read as the stream that the compressor gave. -/
theorem element_of_compressed {level : Nat} {content bytes : List UInt8}
    (written : encodeCompressed compress order level content = .ok bytes) (rest : List UInt8)
    (offset : Nat) :
    ∃ element : Element,
      (element.tag.type = .compressed ∧
        element.payload.bytes = compress (min level highestLevel) content) ∧
      (Cursor.element ⟨bytes ++ rest, offset, order⟩).result =
        .ok (element, ⟨rest, offset + bytes.length, order⟩) := by
  obtain ⟨tag, tagWritten, written⟩ := Outcome.bind_eq_ok.mp written
  have read := element_of_tag [] (tag_of_written tagWritten
    (compress (min level highestLevel) content ++ ([] ++ rest)) offset) rfl rfl rfl
  rw [← Outcome.pure_eq_ok.mp written, List.append_assoc, List.length_append,
    length_encodeTag tagWritten, ← Nat.add_assoc]
  exact ⟨_, ⟨rfl, rfl⟩, read⟩

theorem inflatedMatrices_of_atEnd (wanted : String → Bool) (bound : Nat) {cursor : Cursor}
    (ends : cursor.atEnd = true) :
    (inflatedMatrices wanted bound cursor).result = .ok ([], none) := by
  cases bound with
  | zero => rfl
  | succ bound =>
    rw [inflatedMatrices, if_pos ends]
    rfl

/-- An inflated stream that spells one written array is read as that array. -/
theorem inflatedMatrices_of_written {array : MatArray} (shaped : array.Everywhere MatArray.Shaped)
    {content : List UInt8} (written : array.element order = .ok content)
    (wanted : String → Bool) :
    (inflatedMatrices wanted content.length (ofBytes content order)).result =
      .ok ((array.readBack? wanted).toList, none) := by
  obtain ⟨element, read, tag, matrix⟩ := element_of_writtenArray shaped written [] 0
  have filled : ¬ (ofBytes content order).atEnd = true :=
    not_atEnd_of_tagSize_le (tagSize_le_element written)
  have type : ¬ element.tag.type ≠ .matrix := by rw [tag]; exact not_not.mpr rfl
  rw [List.append_nil] at read
  have first : (inflatedMatrix (ofBytes content order) wanted).result =
      .ok (array.readBack? wanted, ⟨[], 0 + content.length, order⟩) := by
    rw [inflatedMatrix]
    dsimp only
    rw [ofBytes, Reading.result_bind_of_ok read]
    dsimp only
    rw [if_neg type, Reading.result_bind_of_ok (matrix wanted)]
    rfl
  obtain ⟨bound, length⟩ : ∃ bound, content.length = bound + 1 :=
    Nat.exists_eq_succ_of_ne_zero (Nat.ne_of_gt
      (Nat.lt_of_lt_of_le (by decide) (tagSize_le_element written)))
  have attempted := Reading.result_attempt (inflatedMatrix (ofBytes content order) wanted)
  rw [first] at attempted
  rw [length, inflatedMatrices, if_neg filled, Reading.result_bind_of_ok attempted]
  dsimp only
  rw [Reading.result_bind_of_ok (inflatedMatrices_of_atEnd wanted bound rfl)]
  dsimp only
  rw [List.append_nil]
  rfl

/-- An element of a file is read as the array that was written, and reading stops right
behind it. -/
theorem topLevel_of_written (inverted : compression ≠ .none → compress.Inverted inflate)
    {array : MatArray} (shaped : array.Everywhere MatArray.Shaped) {bytes : List UInt8}
    (written : encodeTopLevel compress order compression array = .ok bytes)
    (wanted : String → Bool) (rest : List UInt8) (offset : Nat) :
    (topLevel ⟨bytes ++ rest, offset, order⟩ inflate wanted).result =
      .ok ⟨(array.readBack? wanted).toList, .reading ⟨rest, offset + bytes.length, order⟩⟩ := by
  obtain ⟨content, contentWritten, written⟩ := Outcome.bind_eq_ok.mp written
  cases compression with
  | none =>
    obtain rfl := Outcome.pure_eq_ok.mp written
    obtain ⟨element, read, tag, matrix⟩ :=
      element_of_writtenArray shaped contentWritten rest offset
    rw [topLevel]
    dsimp only
    rw [Reading.result_bind_of_ok read]
    dsimp only
    rw [tag]
    dsimp only
    rw [Reading.result_bind_of_ok (matrix wanted)]
    rfl
  | level level =>
    obtain ⟨element, ⟨type, payload⟩, read⟩ := element_of_compressed written rest offset
    have inflated := inverted Compression.noConfusion (min level highestLevel) content
    have spelled : (element.payload.inflate inflate).result = .ok content := by
      rw [Cursor.inflate, payload, inflated]
      rfl
    rw [topLevel]
    dsimp only
    rw [Reading.result_bind_of_ok read]
    dsimp only
    rw [type]
    dsimp only
    rw [Reading.result_bind_of_ok spelled,
      Reading.result_bind_of_ok (inflatedMatrices_of_written shaped contentWritten wanted)]
    rfl

end Cursor

/-! ### The stream -/

/-- A written element yields its array, and then comes what follows it. -/
theorem ArrayStream.everything_of_topLevel
    (inverted : compression ≠ .none → compress.Inverted inflate) {array : MatArray}
    (shaped : array.Everywhere MatArray.Shaped) {bytes : List UInt8}
    (written : encodeTopLevel compress order compression array = .ok bytes)
    (wanted : String → Bool) (rest : List UInt8) (offset : Nat) :
    everything inflate wanted ⟨[], .reading ⟨bytes ++ rest, offset, order⟩⟩ =
      (everything inflate wanted ⟨[], .reading ⟨rest, offset + bytes.length, order⟩⟩).after
        (array.readBack? wanted).toList := by
  have more := Cursor.hasMore_append (tagSize_le_topLevel written) rest offset order
  rw [everything_of_hasMore more,
    Cursor.topLevel_of_written inverted shaped written wanted rest offset]
  exact everything_ready wanted _ _

/-- Written elements yield their arrays, and then comes what follows them. -/
theorem ArrayStream.everything_of_elements
    (inverted : compression ≠ .none → compress.Inverted inflate) {arrays : List MatArray}
    (shaped : ∀ array ∈ arrays, array.Everywhere MatArray.Shaped) {bytes : List UInt8}
    (written : joinParts (arrays.map (encodeTopLevel compress order compression)) = .ok bytes)
    (wanted : String → Bool) (rest : List UInt8) (offset : Nat) :
    everything inflate wanted ⟨[], .reading ⟨bytes ++ rest, offset, order⟩⟩ =
      (everything inflate wanted ⟨[], .reading ⟨rest, offset + bytes.length, order⟩⟩).after
        (arrays.filterMap (MatArray.readBack? wanted)) := by
  induction arrays generalizing bytes offset with
  | nil =>
    obtain rfl := Except.ok.inj written
    rfl
  | cons array others inductionHypothesis =>
    obtain ⟨first, remaining⟩ := List.forall_mem_cons.mp shaped
    rw [List.map_cons] at written
    obtain ⟨element, back, rfl, elementWritten, backWritten⟩ := joinParts_cons_eq_ok.mp written
    rw [List.append_assoc, everything_of_topLevel inverted first elementWritten,
      inductionHypothesis remaining backWritten, Yield.after_after, List.length_append,
      Nat.add_assoc, List.filterMap_cons]
    cases array.readBack? wanted <;> rfl

/-! ### Whole files -/

theorem openStream_encode (description : String) (bytes : List UInt8) :
    (openStream (Header.encode description order ++ bytes)).result =
      .ok (Header.written description order, ⟨[], .reading ⟨bytes, headerSize, order⟩⟩) := by
  have skipped := Cursor.skipAtMost_append (Header.encode description order) bytes 0 order
  rw [Header.length_encode, Nat.zero_add] at skipped
  rw [openStream, Reading.result_bind_of_ok (Header.read_encode description order bytes)]
  dsimp only [Header.written, Cursor.ofBytes]
  rw [skipped]
  rfl

/-- A file is read as everything its stream yields, unless an error is among it. -/
theorem MatFile.result_read {wanted : String → Bool} {bytes : List UInt8} {header : Header}
    {stream : ArrayStream} (opened : (openStream bytes).result = .ok (header, stream)) :
    (MatFile.read inflate bytes wanted).result =
      (stream.everything inflate wanted).result >>= fun arrays =>
        .ok (MatFile.ofArrays header arrays) := by
  rw [MatFile.read, Reading.result_bind_of_ok opened, Reading.result_bind,
    ArrayStream.result_arrays]
  rfl

/-- A written file is read as its header and what is read where its arrays were written. -/
theorem MatFile.read_of_written {options : WriteOptions}
    (inverted : options.compression ≠ .none → compress.Inverted inflate) {arrays : List MatArray}
    (shaped : ∀ array ∈ arrays, array.Everywhere MatArray.Shaped) {bytes : List UInt8}
    (written : encodeFileWith compress arrays options = .ok bytes) (wanted : String → Bool) :
    (MatFile.read inflate bytes wanted).result =
      .ok (MatFile.ofArrays (Header.written options.description options.order)
        (arrays.filterMap (MatArray.readBack? wanted))) := by
  obtain ⟨elements, elementsWritten, written⟩ := Outcome.bind_eq_ok.mp written
  obtain rfl := Outcome.pure_eq_ok.mp written
  have yielded := ArrayStream.everything_of_elements inverted shaped elementsWritten wanted []
    headerSize
  have ends : ArrayStream.everything inflate wanted
      ⟨[], .reading ⟨[], headerSize + elements.length, options.order⟩⟩ = ⟨[], none⟩ :=
    ArrayStream.everything_of_not_hasMore fun more => more.1 rfl
  rw [List.append_nil, ends, Yield.after_nil] at yielded
  rw [MatFile.result_read (openStream_encode options.description elements), yielded]
  rfl

theorem filterMap_readBack?_all (arrays : List MatArray) :
    arrays.filterMap (MatArray.readBack? fun _ => true) = arrays.map MatArray.kept :=
  congrFun List.filterMap_eq_map arrays

theorem lastOfEach_map {change : MatArray → MatArray}
    (keeps : ∀ array : MatArray, (change array).name = array.name) (arrays : List MatArray) :
    lastOfEach (arrays.map change) = (lastOfEach arrays).map change := by
  have names : (arrays.map change).map MatArray.name = arrays.map MatArray.name := by
    rw [List.map_map]
    exact List.map_congr_left fun array _ => keeps array
  have last (name : String) :
      lastNamed? (arrays.map change) name = (lastNamed? arrays name).map change := by
    rw [lastNamed?, lastNamed?, ← List.map_reverse, List.find?_map]
    refine congrArg (fun test => Option.map change (List.find? test arrays.reverse)) ?_
    funext array
    rw [Function.comp_apply, keeps]
  rw [lastOfEach, lastOfEach, names, List.map_filterMap]
  exact congrArg (List.filterMap · _) (funext last)

theorem sameArrays_map_settled (arrays : List MatArray) :
    sameArrays (arrays.map MatArray.settled) arrays = true := by
  induction arrays with
  | nil => rfl
  | cons array rest inductionHypothesis =>
    rw [List.map_cons, sameArrays, array.same_settled, inductionHypothesis]
    rfl

/-- The round trip of a file. Well-formed arrays that could be written, compressed or not,
are read back under a header with the chosen byte order. Every name comes once, at the place
where it came first, and what is found there is the last array that had it. -/
theorem read_writtenFile {options : WriteOptions}
    (inverted : options.compression ≠ .none → compress.Inverted inflate) {arrays : List MatArray}
    (wellFormed : ∀ array ∈ arrays, array.Everywhere MatArray.WellFormed) {bytes : List UInt8}
    (written : encodeFileWith compress arrays options = .ok bytes) :
    ∃ file : MatFile, (MatFile.read inflate bytes fun _ => true).result = .ok file ∧
      file.header.order = options.order ∧ file.header.version = 0x0100 ∧
      file.names = (arrays.map MatArray.name).eraseDups ∧
      file.arrays = (lastOfEach arrays).map MatArray.settled ∧
      sameArrays file.arrays (lastOfEach arrays) = true := by
  have names (array : MatArray) : array.settled.name = array.name :=
    congrArg ArrayInfo.name array.info_settled
  have shaped : ∀ array ∈ arrays, array.Everywhere MatArray.Shaped :=
    fun array member => (wellFormed array member).imp fun _ here => here.shaped
  have settled : arrays.map MatArray.kept = arrays.map MatArray.settled :=
    List.map_congr_left fun array member => MatArray.kept_eq_settled (wellFormed array member)
  have read := MatFile.read_of_written inverted shaped written fun _ => true
  rw [filterMap_readBack?_all, settled] at read
  have held : (MatFile.ofArrays (Header.written options.description options.order)
      (arrays.map MatArray.settled)).arrays = (lastOfEach arrays).map MatArray.settled := by
    rw [MatFile.arrays_ofArrays, lastOfEach_map names]
  refine ⟨_, read, ?_, ?_, ?_, held, ?_⟩
  · rw [MatFile.header_ofArrays]
    rfl
  · rw [MatFile.header_ofArrays]
    rfl
  · rw [MatFile.names_ofArrays, List.map_map]
    exact congrArg List.eraseDups (List.map_congr_left fun array _ => names array)
  · rw [held]
    exact sameArrays_map_settled _

/-- A matrix of one small integer. -/
def scalar (name : String) (value : NumericClass.int8.Value) : MatArray :=
  .numeric .int8 ⟨⟨name, ⟨[1, 1], Nat.le_refl 2, rfl, rfl⟩, {}⟩, [value], none⟩

theorem wellFormed_scalar {name : String} (plain : NulFree name)
    (value : NumericClass.int8.Value) : (scalar name value).Everywhere MatArray.WellFormed := by
  refine .intro _ ⟨⟨⟨rfl, nofun⟩, fun _ => rfl, nofun, fun other member => ?_⟩, nofun⟩ nofun
  rw [List.mem_singleton.mp member]
  exact plain

/-- Three matrices, of which the first and the last have one name and the other has none. -/
def repeatedScalars : List MatArray := [scalar "a" 1, scalar "" 2, scalar "a" 3]

theorem read_writtenFile_repeatedScalars :
    ∃ bytes : List UInt8,
      encodeFileWith Zlib.deflate repeatedScalars { order := .big, compression := .level 0 } =
        .ok bytes ∧
      ∃ file : MatFile, (MatFile.read Zlib.inflater bytes fun _ => true).result = .ok file ∧
        file.header.order = .big ∧ file.header.version = 0x0100 ∧
        file.names = (repeatedScalars.map MatArray.name).eraseDups ∧
        file.arrays = (lastOfEach repeatedScalars).map MatArray.settled ∧
        sameArrays file.arrays (lastOfEach repeatedScalars) = true := by
  have wellFormed : ∀ array ∈ repeatedScalars, array.Everywhere MatArray.WellFormed := by
    intro array member
    simp only [repeatedScalars, List.mem_cons, List.not_mem_nil, or_false] at member
    rcases member with rfl | rfl | rfl
    · exact wellFormed_scalar (by decide) 1
    · exact wellFormed_scalar (by decide) 2
    · exact wellFormed_scalar (by decide) 3
  have succeeds : (encodeFileWith Zlib.deflate repeatedScalars
      { order := .big, compression := .level 0 }).isOk = true := by decide +kernel
  cases written : encodeFileWith Zlib.deflate repeatedScalars
      { order := .big, compression := .level 0 } with
  | error fault =>
    rw [written] at succeeds
    cases succeeds
  | ok bytes => exact ⟨bytes, rfl,
    read_writtenFile (fun _ => Zlib.inverted_deflate) wellFormed written⟩

end MatFormat
