/-
This file proves that reading some arrays of a file gives those of all its arrays, in their
order. Entering an array under its name and leaving out names can be exchanged, so this holds
also where a name is used more than once.
-/

import MatFormat.File.Reader
import MatFormat.Proofs.File.Basic
import MatFormat.Proofs.Stream.Compression
import MatFormat.Proofs.Stream.Selection

namespace MatFormat

namespace MatFile

variable (wanted : String → Bool)

theorem filter_enter (key : String) (array : MatArray) (entries : List (String × MatArray)) :
    (enter key array entries).filter (fun entry => wanted entry.1) =
      if wanted key then enter key array (entries.filter fun entry => wanted entry.1)
      else entries.filter fun entry => wanted entry.1 := by
  induction entries with
  | nil =>
    rw [enter, List.filter_singleton]
    cases wanted key <;> rfl
  | cons entry rest inductionHypothesis =>
    rw [enter]
    by_cases found : entry.1 = key
    · rw [if_pos found, List.filter_cons, List.filter_cons, found]
      cases asked : wanted key with
      | true => rw [if_pos rfl, if_pos rfl, if_pos rfl, enter, if_pos found]
      | false => rfl
    · rw [if_neg found, List.filter_cons, List.filter_cons, inductionHypothesis]
      cases wanted entry.1 with
      | true =>
        rw [if_pos rfl, if_pos rfl, enter, if_neg found]
        cases wanted key <;> rfl
      | false => rfl

variable (header : Header)

/-- Arrays that are left out before they are entered are missing, and nothing else is. -/
theorem entries_ofArrays_chosen (arrays : List MatArray) :
    (ofArrays header (chosen wanted arrays)).entries =
      (ofArrays header arrays).entries.filter fun entry => wanted entry.1 := by
  induction arrays using List.reverseRecOn with
  | nil => rfl
  | append_singleton arrays array inductionHypothesis =>
    rw [chosen_append, ofArrays_concat, insert]
    dsimp only
    rw [filter_enter, ← inductionHypothesis, chosen, chosen, List.filter_singleton]
    cases wanted array.name with
    | true => exact congrArg MatFile.entries (ofArrays_concat header _ array)
    | false =>
      rw [cond_false, List.append_nil]
      rfl

theorem mem_enter {key : String} {array : MatArray} {entries : List (String × MatArray)}
    {entry : String × MatArray} (member : entry ∈ enter key array entries) :
    entry = (key, array) ∨ entry ∈ entries := by
  induction entries with
  | nil => exact Or.inl (List.mem_singleton.mp member)
  | cons other rest inductionHypothesis =>
    rw [enter] at member
    split at member
    · rcases List.mem_cons.mp member with same | later
      · exact Or.inl same
      · exact Or.inr (List.mem_cons_of_mem _ later)
    · rcases List.mem_cons.mp member with same | later
      · exact Or.inr (same ▸ List.mem_cons_self)
      · exact (inductionHypothesis later).imp_right (List.mem_cons_of_mem _)

/-- Every array stands under its own name. -/
theorem key_of_mem_ofArrays (arrays : List MatArray) :
    ∀ entry ∈ (ofArrays header arrays).entries, entry.1 = entry.2.name := by
  induction arrays using List.reverseRecOn with
  | nil => nofun
  | append_singleton arrays array inductionHypothesis =>
    intro entry member
    rw [ofArrays_concat] at member
    rcases mem_enter member with rfl | known
    · rfl
    · exact inductionHypothesis entry known

theorem arrays_ofArrays_chosen (arrays : List MatArray) :
    (ofArrays header (chosen wanted arrays)).arrays =
      chosen wanted (ofArrays header arrays).arrays := by
  rw [MatFile.arrays, entries_ofArrays_chosen, MatFile.arrays, chosen, List.filter_map]
  refine congrArg (List.map Prod.snd) (List.filter_congr fun entry member => ?_)
  rw [key_of_mem_ofArrays header arrays entry member, Function.comp_apply]

theorem names_ofArrays_chosen (arrays : List MatArray) :
    (ofArrays header (chosen wanted arrays)).names =
      (ofArrays header arrays).names.filter wanted := by
  rw [MatFile.names, entries_ofArrays_chosen, MatFile.names, List.filter_map]
  rfl

end MatFile

/-- Asking for some of the arrays of a file gives those of all its arrays. The stream of the
wanted arrays yields those that come before an error in the stream of all arrays, and no array
that is not wanted. Where all arrays are yielded without an error, so are the wanted ones, and
nothing else; and reading the file whole gives the wanted ones of all arrays it holds, under
the same header. -/
theorem yields_chosen (inflate : Inflater) (wanted : String → Bool) {bytes : List UInt8}
    {header : Header} {stream : ArrayStream}
    (opened : (openStream bytes).result = .ok (header, stream)) :
    ∃ all asked : Yield,
      stream.Yields inflate (fun _ => true) all ∧ stream.Yields inflate wanted asked ∧
      chosen wanted all.arrays <+: asked.arrays ∧
      (∀ array ∈ asked.arrays, wanted array.name = true) ∧
      (all.failure = none →
        asked.failure = none ∧ asked.arrays = chosen wanted all.arrays ∧
        ∃ whole part : MatFile,
          (MatFile.read inflate bytes fun _ => true).result = .ok whole ∧
          (MatFile.read inflate bytes wanted).result = .ok part ∧
          part.header = whole.header ∧ part.names = whole.names.filter wanted ∧
          part.arrays = chosen wanted whole.arrays) := by
  have nothing (property : MatArray → Prop) : stream.AllReady property :=
    allReady_of_openStream opened
  have selects : (stream.everything inflate fun _ => true).Selects wanted
      (stream.everything inflate wanted) := by
    obtain ⟨_, rfl⟩ := openStream_eq_ok.mp opened
    exact ArrayStream.everything_selects (.reading [] _)
  refine ⟨_, _, stream.yields_everything _ _, stream.yields_everything _ _, selects.before,
    ArrayStream.of_everything (Cursor.gives_wanted wanted) (nothing _), fun fine => ?_⟩
  obtain ⟨noFailure, arrays⟩ := selects.complete fine
  refine ⟨noFailure, arrays, .ofArrays header (stream.everything inflate fun _ => true).arrays,
    .ofArrays header (stream.everything inflate wanted).arrays, ?_, ?_, ?_, ?_, ?_⟩
  · rw [MatFile.result_read opened, Yield.result, fine]
    rfl
  · rw [MatFile.result_read opened, Yield.result, noFailure]
    rfl
  · rw [MatFile.header_ofArrays, MatFile.header_ofArrays]
  · rw [arrays, MatFile.names_ofArrays_chosen]
  · rw [arrays, MatFile.arrays_ofArrays_chosen]

theorem yields_chosen_sharedFile :
    let bytes := Header.encode "" .little ++ sharedRuns.flatMap (ElementRun.bytes .little)
    (openStream bytes).result = .ok (Header.written "" .little, sharedFile) ∧
      sharedFile.Yields Zlib.inflater (fun _ => true)
        ⟨[scalar "a" 1, scalar "b" 2, scalar "c" 3, scalar "a" 4, scalar "b" 5], none⟩ ∧
      sharedFile.Yields Zlib.inflater (fun name => name != "c")
        ⟨[scalar "a" 1, scalar "b" 2, scalar "a" 4, scalar "b" 5], none⟩ ∧
      ∃ whole part : MatFile,
        (MatFile.read Zlib.inflater bytes fun _ => true).result = .ok whole ∧
        (MatFile.read Zlib.inflater bytes fun name => name != "c").result = .ok part ∧
        part.header = whole.header ∧
        whole.names = ["a", "b", "c"] ∧
        whole.arrays = [scalar "a" 4, scalar "b" 5, scalar "c" 3] ∧
        part.names = ["a", "b"] ∧
        part.arrays = [scalar "a" 4, scalar "b" 5] := by
  intro bytes
  have opened : (openStream bytes).result = .ok (Header.written "" .little, sharedFile) :=
    openStream_encode "" _
  obtain ⟨all, asked, yieldsAll, yieldsAsked, _, _, complete⟩ :=
    yields_chosen Zlib.inflater (fun name => name != "c") opened
  obtain rfl := (yieldsAll.unique (ArrayStream.yields_everything _ _ _)).trans
    everything_sharedFile
  obtain ⟨noFailure, arrays, whole, part, wholeRead, partRead, header, names, held⟩ := complete rfl
  have read := @MatFile.result_read Zlib.inflater (fun _ => true) _ _ _ opened
  rw [everything_sharedFile] at read
  obtain rfl := Except.ok.inj (wholeRead.symm.trans read)
  have selected : chosen (fun name => name != "c")
      [scalar "a" 1, scalar "b" 2, scalar "c" 3, scalar "a" 4, scalar "b" 5] =
        [scalar "a" 1, scalar "b" 2, scalar "a" 4, scalar "b" 5] := rfl
  have yielded : asked = ⟨[scalar "a" 1, scalar "b" 2, scalar "a" 4, scalar "b" 5], none⟩ := by
    obtain ⟨found, failure⟩ := asked
    cases noFailure
    cases arrays.trans selected
    rfl
  refine ⟨opened, yieldsAll, yielded ▸ yieldsAsked, _, part, wholeRead, partRead, header, rfl, rfl,
    names, held⟩

end MatFormat
