/-
This file proves which names survive in a file. Names are stored up to their first NUL, and
the reader keeps one array for each name, so arrays whose names agree up to there are merged.
Nothing is reported: a writer that fails refuses an array for another reason. All names come
back, each array in its place, exactly when no name of an array or a class has a NUL in it
and no slot holds the array that an unset slot is written as.
-/

import MatFormat.Proofs.Constructed
import MatFormat.Proofs.File.RoundTrip
import MatFormat.Proofs.Matrix.Refusal
import MatFormat.Proofs.NameTree

namespace MatFormat

theorem map_name_kept (arrays : List MatArray) :
    (arrays.map MatArray.kept).map MatArray.name =
      arrays.map fun array => cutName array.name := by
  rw [List.map_map]
  exact List.map_congr_left fun array _ => array.name_kept

namespace MatFile

/-- The file that is read where arrays with distinct names were written has them all under
their names exactly when the names can be stored at every depth. -/
theorem names_kept_iff {arrays : List MatArray}
    (valid : ∀ array ∈ arrays, array.Everywhere MatArray.Valid)
    (distinct : (arrays.map MatArray.name).Nodup) {file : MatFile}
    (names : file.names = (arrays.map fun array => cutName array.name).eraseDups)
    (held : file.arrays = lastOfEach (arrays.map MatArray.kept)) :
    (file.names = arrays.map MatArray.name ∧
        file.arrays.map MatArray.nameTree = arrays.map MatArray.nameTree) ↔
      ∀ array ∈ arrays, array.Everywhere MatArray.Nameable := by
  have cut := map_name_kept arrays
  constructor
  · rintro ⟨sameNames, sameTrees⟩
    -- As many names are left as there were arrays, so no two names were cut to one.
    have stillDistinct : (arrays.map fun array => cutName array.name).Nodup := by
      apply nodup_of_length_eraseDups
      rw [← names, sameNames, List.length_map, List.length_map]
    rw [held, lastOfEach_of_nodup (cut ▸ stillDistinct), List.map_map] at sameTrees
    intro array member
    exact (MatArray.nameTree_kept_iff_everywhere (valid array member)).mp
      (List.map_inj_left.mp sameTrees array member)
  · intro nameable
    have uncut : (arrays.map fun array => cutName array.name) = arrays.map MatArray.name :=
      List.map_congr_left fun array member =>
        (cutName_eq_self_iff _).mpr (nameable array member).here.name
    rw [names, held, lastOfEach_of_nodup (by rw [cut, uncut]; exact distinct), uncut,
      eraseDups_of_nodup distinct, List.map_map]
    exact ⟨rfl, List.map_congr_left fun array member =>
      (MatArray.nameTree_kept_iff_everywhere (valid array member)).mpr (nameable array member)⟩

end MatFile

/-- What becomes of the names of arrays that were built in any way, have distinct names and
are written without compression. A writer that fails refuses an array. Otherwise the file is
read with every name cut before its first NUL and the last array for each, and all names are
back in their places exactly when they can be stored at every depth. -/
theorem names_of_writtenFile {arrays : List MatArray}
    (constructed : ∀ array ∈ arrays, array.Constructed)
    (distinct : (arrays.map MatArray.name).Nodup) (compress : Compressor) (inflate : Inflater)
    (order : ByteOrder) (description : String) :
    match encodeFileWith compress arrays { order, compression := .none, description } with
    | .error fault => fault.IsRefusal
    | .ok bytes =>
      ∃ file : MatFile, (MatFile.read inflate bytes fun _ => true).result = .ok file ∧
        file.names = (arrays.map fun array => cutName array.name).eraseDups ∧
        file.arrays = lastOfEach (arrays.map MatArray.kept) ∧
        ((file.names = arrays.map MatArray.name ∧
            file.arrays.map MatArray.nameTree = arrays.map MatArray.nameTree) ↔
          ∀ array ∈ arrays, array.Everywhere MatArray.Nameable) := by
  have valid : ∀ array ∈ arrays, array.Everywhere MatArray.Valid :=
    fun array member => (constructed array member).valid
  cases written : encodeFileWith compress arrays { order, compression := .none, description } with
  | error fault => exact onlyRefuses_encodeFileWith _ _ _ fault written
  | ok bytes =>
    have shaped : ∀ array ∈ arrays, array.Everywhere MatArray.Shaped :=
      fun array member => (valid array member).imp fun _ here => here.shaped
    have read := @MatFile.read_of_written _ inflate _ (absurd rfl) _ shaped _ written fun _ => true
    rw [filterMap_readBack?_all] at read
    have names := MatFile.names_ofArrays (Header.written description order)
      (arrays.map MatArray.kept)
    rw [map_name_kept] at names
    have held := MatFile.arrays_ofArrays (Header.written description order)
      (arrays.map MatArray.kept)
    exact ⟨_, read, names, held, MatFile.names_kept_iff valid distinct names held⟩

theorem constructed_scalar (name : String) (value : NumericClass.int8.Value) :
    (scalar name value).Constructed := by
  have built : NumericArray.ofList name [1, 1] [value] =
      .ok ⟨⟨name, ⟨[1, 1], Nat.le_refl 2, rfl, rfl⟩, {}⟩, [value], none⟩ := rfl
  exact .numbers built

/-- Two arrays whose names agree up to a NUL. -/
def cutScalars : List MatArray := [scalar "a\x00b" 1, scalar "a\x00c" 2]

theorem names_of_writtenFile_cutScalars :
    ∃ (bytes : List UInt8) (file : MatFile),
      encodeFileWith Zlib.deflate cutScalars
        { order := .little, compression := .none, description := "" } = .ok bytes ∧
      (MatFile.read Zlib.inflater bytes fun _ => true).result = .ok file ∧ file.names = ["a"] ∧
      file.arrays = lastOfEach (cutScalars.map MatArray.kept) ∧
      ¬ (file.names = cutScalars.map MatArray.name ∧
        file.arrays.map MatArray.nameTree = cutScalars.map MatArray.nameTree) := by
  have constructed : ∀ array ∈ cutScalars, array.Constructed := by
    intro array member
    simp only [cutScalars, List.mem_cons, List.not_mem_nil, or_false] at member
    rcases member with rfl | rfl
    · exact constructed_scalar _ _
    · exact constructed_scalar _ _
  have outcome := names_of_writtenFile constructed (by decide) Zlib.deflate Zlib.inflater .little ""
  have succeeds : (encodeFileWith Zlib.deflate cutScalars
      { order := .little, compression := .none, description := "" }).isOk = true := by
    decide +kernel
  cases written : encodeFileWith Zlib.deflate cutScalars
      { order := .little, compression := .none, description := "" } with
  | error fault =>
    rw [written] at succeeds
    cases succeeds
  | ok bytes =>
    rw [written] at outcome
    obtain ⟨file, read, names, held, kept⟩ := outcome
    have single : (cutScalars.map fun array => cutName array.name).eraseDups = ["a"] := by decide
    refine ⟨bytes, file, rfl, read, names.trans single, held, fun same => ?_⟩
    have plain := (kept.mp same _ List.mem_cons_self).here.name
    revert plain
    decide

end MatFormat
