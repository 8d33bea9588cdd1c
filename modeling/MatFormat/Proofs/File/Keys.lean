/-
This file proves what the keys of a file have to do with the names of its arrays. An array is
inserted under its own name, and its key stays when it is edited. So an array is what the edits
under its key have made, since it was inserted, of one that had the key as its name; it has
that name still if they kept it. Only the names of the arrays are written, cut before their
first NUL, and not the keys. So the file that is read again has the same names exactly when
every array is named, up to there, as its key.
-/

import MatFormat.Proofs.File.Names
import MatFormat.Proofs.File.Table
import MatFormat.Proofs.Related
import MatFormat.Proofs.Stream.Decoded
import MatFormat.Proofs.Valid

namespace MatFormat

/-! ### Edits under a key -/

/-- The edits under a key since an array was last inserted or removed there, the latest first. -/
def editsSince (key : String) : (history : List FileCall) → List (MatArray → MatArray)
  | [] => []
  | .insert array :: earlier => if array.name = key then [] else editsSince key earlier
  | .remove other :: earlier => if other = key then [] else editsSince key earlier
  | .edit other change :: earlier =>
    if other = key then change :: editsSince key earlier else editsSince key earlier

/-- What some edits, the latest first, make of an array. -/
def edited (edits : List (MatArray → MatArray)) (array : MatArray) : MatArray :=
  edits.foldr (fun change before => change before) array

theorem mem_of_mem_editsSince {key : String} {history : List FileCall}
    {change : MatArray → MatArray} (member : change ∈ editsSince key history) :
    .edit key change ∈ history := by
  fun_induction editsSince key history with
  | case1 => cases member
  | case2 => cases member
  | case3 array earlier differs inductionHypothesis =>
    exact List.mem_cons_of_mem _ (inductionHypothesis member)
  | case4 => cases member
  | case5 other earlier differs inductionHypothesis =>
    exact List.mem_cons_of_mem _ (inductionHypothesis member)
  | case6 latest earlier inductionHypothesis =>
    rcases List.mem_cons.mp member with rfl | before
    · exact List.mem_cons_self
    · exact List.mem_cons_of_mem _ (inductionHypothesis before)
  | case7 other latest earlier differs inductionHypothesis =>
    exact List.mem_cons_of_mem _ (inductionHypothesis member)

/-- What holds of an array and is kept by every edit holds of the edited array. -/
theorem edited_of_kept {property : MatArray → Prop} {edits : List (MatArray → MatArray)}
    (kept : ∀ change ∈ edits, ∀ array, property array → property (change array))
    {array : MatArray} (holds : property array) : property (edited edits array) := by
  induction edits with
  | nil => exact holds
  | cons latest earlier inductionHypothesis =>
    obtain ⟨last, before⟩ := List.forall_mem_cons.mp kept
    exact last _ (inductionHypothesis before)

namespace FileCall

/-- A call edits no array in a way that could give it another name. -/
def KeepsNames : FileCall → Prop
  | edit _ change => ∀ array, (change array).name = array.name
  | _ => True

/-- A call inserts an array with parts as long as its shape asks for, and leaves such an array
where it edits one. -/
def KeepsShapes : FileCall → Prop
  | insert array => array.Everywhere MatArray.Shaped
  | remove _ => True
  | edit _ change => ∀ array : MatArray, array.Everywhere MatArray.Shaped →
      (change array).Everywhere MatArray.Shaped

end FileCall

/-! ### Where the arrays come from -/

namespace MatFile

/-- Arrays entered one after the other are found under their own names. -/
theorem get?_ofArrays_eq_some {header : Header} {arrays : List MatArray} {key : String}
    {array : MatArray} (found : (ofArrays header arrays).get? key = some array) :
    array.name = key ∧ array ∈ arrays := by
  rw [get?_ofArrays, lastNamed?] at found
  have named : (array.name == key) = true :=
    List.find?_some (p := fun other : MatArray => other.name == key) found
  exact ⟨eq_of_beq named, List.mem_reverse.mp (List.mem_of_find?_eq_some found)⟩

variable {start : MatFile} {history : List FileCall}

/-- What is found under a key comes from an array with the key as its name, which was inserted or
was there at the start: the edits under the key since then have made it of that array. -/
theorem entered_of_found (named : ∀ key array, start.get? key = some array → array.name = key)
    {key : String} {array : MatArray} (found : (start.afterCalls history).get? key = some array) :
    ∃ entered : MatArray, entered.name = key ∧
      (.insert entered ∈ history ∨ start.get? key = some entered) ∧
      array = edited (editsSince key history) entered := by
  induction history generalizing array with
  | nil => exact ⟨array, named key array found, .inr found, rfl⟩
  | cons call earlier inductionHypothesis =>
    -- A call on another key changes neither what is found under this one nor its edits.
    have elsewhere (same : editsSince key (call :: earlier) = editsSince key earlier)
        (found : (start.afterCalls earlier).get? key = some array) :
        ∃ entered : MatArray, entered.name = key ∧
          (.insert entered ∈ call :: earlier ∨ start.get? key = some entered) ∧
          array = edited (editsSince key (call :: earlier)) entered := by
      obtain ⟨entered, name, origin, made⟩ := inductionHypothesis found
      exact ⟨entered, name, origin.imp_left (List.mem_cons_of_mem call), same ▸ made⟩
    cases call with
    | insert given =>
      rw [afterCalls, perform, get?_insert] at found
      by_cases here : given.name = key
      · rw [if_pos here.symm] at found
        obtain rfl := Option.some.inj found
        exact ⟨given, here, .inl List.mem_cons_self, by rw [editsSince, if_pos here]; rfl⟩
      · rw [if_neg (Ne.symm here)] at found
        exact elsewhere (if_neg here) found
    | remove other =>
      rw [afterCalls, perform, get?_erase] at found
      by_cases here : other = key
      · rw [if_pos here.symm] at found
        cases found
      · rw [if_neg (Ne.symm here)] at found
        exact elsewhere (if_neg here) found
    | edit other change =>
      rw [afterCalls, perform, get?_modify] at found
      by_cases here : other = key
      · rw [if_pos here.symm, here, Option.map_eq_some_iff] at found
        obtain ⟨before, found, rfl⟩ := found
        obtain ⟨entered, name, origin, rfl⟩ := inductionHypothesis found
        exact ⟨entered, name, origin.imp_left (List.mem_cons_of_mem _),
          by rw [editsSince, if_pos here]; rfl⟩
      · rw [if_neg (Ne.symm here)] at found
        exact elsewhere (if_neg here) found

/-- Arrays under their own names stay so where no edit gives another name. -/
theorem named_afterCalls (named : ∀ key array, start.get? key = some array → array.name = key)
    (keep : ∀ call ∈ history, call.KeepsNames) {key : String} {array : MatArray}
    (found : (start.afterCalls history).get? key = some array) : array.name = key := by
  obtain ⟨entered, name, _, rfl⟩ := entered_of_found named found
  have kept : ∀ change ∈ editsSince key history, ∀ array : MatArray, array.name = key →
      (change array).name = key := fun change member array same =>
    (keep _ (mem_of_mem_editsSince member) array).trans same
  exact edited_of_kept kept name

/-- Shaped arrays stay so where only shaped ones are inserted and edits keep them so. -/
theorem shaped_afterCalls (named : ∀ key array, start.get? key = some array → array.name = key)
    (shapedBefore : ∀ key array, start.get? key = some array → array.Everywhere MatArray.Shaped)
    (shaped : ∀ call ∈ history, call.KeepsShapes) {key : String} {array : MatArray}
    (found : (start.afterCalls history).get? key = some array) :
    array.Everywhere MatArray.Shaped := by
  obtain ⟨entered, _, origin, rfl⟩ := entered_of_found named found
  refine edited_of_kept (fun change member => shaped _ (mem_of_mem_editsSince member)) ?_
  exact origin.elim (fun inserted => shaped _ inserted) (shapedBefore key entered)

/-- Under distinct names, what the arrays are called is the names exactly when each is called as
the key under which it is found. -/
theorem map_eq_names_iff {file : MatFile} (distinct : file.names.Nodup)
    (called : MatArray → String) :
    file.arrays.map called = file.names ↔
      ∀ key array, file.get? key = some array → called array = key := by
  rw [arrays, names, List.map_map, List.map_inj_left]
  constructor
  · exact fun same key array found => same (key, array) ((get?_eq_some_iff distinct).mp found)
  · exact fun same entry member => same entry.1 entry.2 ((get?_eq_some_iff distinct).mpr member)

/-- That is so also where what several arrays are called alike counts once. -/
theorem eraseDups_eq_names_iff {file : MatFile} (distinct : file.names.Nodup)
    (called : MatArray → String) :
    (file.arrays.map called).eraseDups = file.names ↔
      ∀ key array, file.get? key = some array → called array = key := by
  rw [← map_eq_names_iff distinct]
  constructor
  · intro same
    -- As many are left as there are arrays, so no two arrays are called alike.
    have several : (file.arrays.map called).Nodup := by
      apply nodup_of_length_eraseDups
      rw [same, List.length_map, names, arrays, List.length_map, List.length_map]
    rw [← same, eraseDups_of_nodup several]
  · intro same
    rw [same, eraseDups_of_nodup distinct]

end MatFile

namespace FileTable

/-- A file to start from: a new one, or one that was read. -/
def IsStart (file : FileTable) : Prop :=
  (∃ header, file = { header }) ∨
    ∃ inflate bytes wanted, (FileTable.read inflate bytes wanted).result = .ok file

/-- A file is read as a table exactly when it can be read as entries in a list, and both are
made of the same arrays, which are shaped at every depth. -/
theorem related_read (inflate : Inflater) (bytes : List UInt8) (wanted : String → Bool) :
    Related (· = ·)
      (fun file content => ∃ header arrays,
        (∀ array ∈ arrays, array.Everywhere MatArray.Shaped) ∧
          file = ofArrays header arrays ∧ content = MatFile.ofArrays header arrays)
      (FileTable.read inflate bytes wanted).result (MatFile.read inflate bytes wanted).result := by
  cases opened : (openStream bytes).result with
  | error fault =>
    rw [FileTable.read, MatFile.read, Reading.result_bind, Reading.result_bind, opened]
    exact .error rfl
  | ok first =>
    obtain ⟨header, stream⟩ := first
    rw [MatFile.result_read opened, FileTable.read, Reading.result_bind_of_ok opened,
      Reading.result_bind, ArrayStream.result_arrays, Yield.result]
    cases (stream.everything inflate wanted).failure with
    | some fault => exact .error rfl
    | none =>
      refine .ok
        ⟨header, (stream.everything inflate wanted).arrays, fun array member => ?_, rfl, rfl⟩
      have sound := ArrayStream.of_everything (Cursor.gives_matrix wanted)
        (allReady_of_openStream opened) array member
      exact sound.imp fun _ here => here.shaped

/-- A file to start from was made of shaped arrays, inserted one after the other. -/
theorem IsStart.eq_ofArrays {file : FileTable} (started : file.IsStart) :
    ∃ header arrays, (∀ array ∈ arrays, array.Everywhere MatArray.Shaped) ∧
      file = ofArrays header arrays := by
  rcases started with ⟨header, rfl⟩ | ⟨inflate, bytes, wanted, read⟩
  · exact ⟨header, [], nofun, rfl⟩
  · have related := related_read inflate bytes wanted
    rw [read] at related
    generalize (MatFile.read inflate bytes wanted).result = entries at related
    cases related with
    | ok together =>
      obtain ⟨header, arrays, shaped, made, _⟩ := together
      exact ⟨header, arrays, shaped, made⟩

/-- A written file is read as a table with the names of the arrays as far as they were written,
each of them once. -/
theorem read_of_written {compress : Compressor} {inflate : Inflater} {options : WriteOptions}
    (inverted : options.compression ≠ .none → compress.Inverted inflate)
    {arrays : List MatArray} (shaped : ∀ array ∈ arrays, array.Everywhere MatArray.Shaped)
    {bytes : List UInt8}
    (written : encodeFileWith compress arrays options = .ok bytes) :
    ∃ file : FileTable, (FileTable.read inflate bytes fun _ => true).result = .ok file ∧
      file.names = (arrays.map fun array => cutName array.name).eraseDups := by
  have related := related_read inflate bytes fun _ => true
  rw [MatFile.read_of_written inverted shaped written] at related
  generalize (FileTable.read inflate bytes fun _ => true).result = outcome at related
  cases related with
  | ok together =>
    obtain ⟨header, held, _, rfl, same⟩ := together
    refine ⟨_, rfl, ?_⟩
    rw [(Keeps.ofArrays header held).names, ← same, MatFile.names_ofArrays,
      filterMap_readBack?_all, map_name_kept]

/-! ### Keys and names -/

/-- What a file tells about its keys and the names of its arrays after a history of calls on
another one. No key comes twice, and under each is the array that stands in its place. It comes
from an array that had the key as its name, so it has that name unless it was edited to have
another. As long as no call puts a part of the wrong length into an array, the file can be read
again once it is written. Then it has one array for every name that is left of the arrays' names,
and these are the keys again exactly if all are as their keys. -/
structure KeepsKeys (start : FileTable) (history : List FileCall) (file : FileTable) : Prop where
  distinct : file.names.Nodup
  found : file.names.map file.get? = file.arrays.map some
  drained : file.intoArrays = file.arrays
  entered : ∀ key array, file.get? key = some array →
    ∃ entered : MatArray, entered.name = key ∧
      (.insert entered ∈ history ∨ start.get? key = some entered) ∧
      array = edited (editsSince key history) entered
  named : (∀ call ∈ history, call.KeepsNames) → file.arrays.map MatArray.name = file.names
  again : (∀ call ∈ history, call.KeepsShapes) →
    ∀ (compress : Compressor) (inflate : Inflater) (options : WriteOptions) (bytes : List UInt8),
      (options.compression ≠ .none → compress.Inverted inflate) →
      encodeFileWith compress file.intoArrays options = .ok bytes →
      ∃ read : FileTable, (FileTable.read inflate bytes fun _ => true).result = .ok read ∧
        read.names = (file.arrays.map fun array => cutName array.name).eraseDups ∧
        (read.names = file.names ↔ ∀ key array, file.get? key = some array →
          cutName array.name = key)

/-- Whatever calls are made on a new file or on one that was read, it tells this about its keys
and the names of its arrays. -/
theorem keys_afterCalls {start : FileTable} (started : start.IsStart) (history : List FileCall) :
    start.KeepsKeys history (start.afterCalls history) := by
  obtain ⟨header, given, givenShaped, rfl⟩ := started.eq_ofArrays
  have atStart := Keeps.ofArrays header given
  have named : ∀ key array, (MatFile.ofArrays header given).get? key = some array →
      array.name = key := fun key array found => (MatFile.get?_ofArrays_eq_some found).1
  have held := atStart.afterCalls history
  have drained := held.intoArrays
  refine ⟨held.names ▸ held.distinct, held.map_get?_names, drained.trans held.arrays.symm,
    fun key array found => ?_, fun keep => ?_,
    fun shaped compress inflate options bytes inverted written => ?_⟩
  · rw [held.found] at found
    rw [atStart.found]
    exact MatFile.entered_of_found named found
  · rw [held.arrays, held.names, MatFile.map_eq_names_iff held.distinct]
    exact fun key array => MatFile.named_afterCalls named keep
  · rw [drained] at written
    have everyShaped : ∀ array ∈ ((MatFile.ofArrays header given).afterCalls history).arrays,
        array.Everywhere MatArray.Shaped := by
      intro array member
      obtain ⟨⟨key, array⟩, entry, rfl⟩ := List.mem_map.mp member
      refine MatFile.shaped_afterCalls named (fun key array found => ?_) shaped
        ((MatFile.get?_eq_some_iff held.distinct).mpr entry)
      exact givenShaped array (MatFile.get?_ofArrays_eq_some found).2
    obtain ⟨read, success, names⟩ := read_of_written inverted everyShaped written
    refine ⟨read, success, held.arrays ▸ names, ?_⟩
    rw [names, held.names, MatFile.eraseDups_eq_names_iff held.distinct]
    simp only [held.found]

/-- Two arrays are inserted, then the first is given the name of the second. The latest call
comes first. -/
def renamedScalar : List FileCall :=
  [.edit "a" (·.rename "b"), .insert (scalar "b" 2), .insert (scalar "a" 1)]

theorem keys_afterCalls_renamedScalar :
    let file := FileTable.afterCalls { header := Header.default } renamedScalar
    file.names = ["a", "b"] ∧ file.get? "a" = some (scalar "b" 1) ∧
      ∃ bytes : List UInt8,
        encodeFileWith Zlib.deflate file.intoArrays
          { order := .little, compression := .none, description := "" } = .ok bytes ∧
        ∃ read : FileTable, (FileTable.read Zlib.inflater bytes fun _ => true).result = .ok read ∧
          read.names = ["b"] ∧ read.names ≠ file.names := by
  intro file
  have shaped : ∀ call ∈ renamedScalar, call.KeepsShapes := by
    intro call member
    simp only [renamedScalar, List.mem_cons, List.not_mem_nil, or_false] at member
    rcases member with rfl | rfl | rfl
    · exact fun array shaped => shaped.modifyInfo (shaped.here.modifyInfo fun _ => rfl)
    · exact (constructed_scalar "b" 2).valid.imp fun _ here => here.shaped
    · exact (constructed_scalar "a" 1).valid.imp fun _ here => here.shaped
  have keys := keys_afterCalls (.inl ⟨Header.default, rfl⟩) renamedScalar
  have held := (keeps_empty Header.default).afterCalls renamedScalar
  have names : file.names = ["a", "b"] := held.names
  have drained : file.intoArrays = [scalar "b" 1, scalar "b" 2] := held.intoArrays
  obtain ⟨bytes, written⟩ := Outcome.exists_of_isOk
    (show (encodeFileWith Zlib.deflate [scalar "b" 1, scalar "b" 2]
      { order := .little, compression := .none, description := "" }).isOk = true by
        decide +kernel)
  obtain ⟨read, success, spelled, _⟩ := keys.again shaped Zlib.deflate Zlib.inflater _ bytes
    (absurd rfl) (drained ▸ written)
  have single : read.names = ["b"] := by
    rw [spelled, ← keys.drained, drained]
    decide
  exact ⟨names, held.found "a", bytes, drained ▸ written, read, success, single,
    by rw [single, names]; decide⟩

end FileTable

end MatFormat
