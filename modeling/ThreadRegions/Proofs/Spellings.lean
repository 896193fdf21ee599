import Mathlib.Data.Finset.Card
import ThreadRegions.Proofs.Resolution

/-!
# Names of one file

The name in an import may end in `.sn` or not, and both lead to the same file.  The resolution
remembers the names that it has merged and not the files.  So a file is merged once for each way to
write its name, which is twice at most.

## Main Definitions

* `Library.ByFile`: names of one file lead to the same text
* `ImportState.mergedFiles`: the files whose statements have been merged, in order

## Main Results

* `count_mergedFiles`: a file is merged twice if it is imported under both of its names, and once
  at most if it is not
* `mergedFiles_not_nodup`: a program with one statement twice
-/

namespace ThreadRegions

/-! ### Names and files -/

theorem endsWith_append (name ending : String) : (name ++ ending).endsWith ending := by
  rw [String.endsWith_eq_endsWith_toSlice, String.Slice.endsWith_string_iff, String.copy_toSlice,
    String.toList_append]
  exact List.suffix_append _ _

/-- The name of a file is its own file name. -/
theorem moduleFileName_idem (module : String) :
    moduleFileName (moduleFileName module) = moduleFileName module := by
  by_cases h : module.endsWith ".sn"
  · simp [moduleFileName, h]
  · have hends := endsWith_append module ".sn"
    simp [moduleFileName, h, hends]

/-- A name that is not that of its file has got an ending. -/
theorem moduleFileName_of_ne {module : String} (h : moduleFileName module ≠ module) :
    moduleFileName module = module ++ ".sn" := by
  unfold moduleFileName at h ⊢
  split at h
  · exact absurd rfl h
  · next hends => exact if_neg hends

/-- Of two different names of one file, one is the name of the file. -/
theorem eq_or_eq_of_moduleFileName {module other file : String} (h : moduleFileName module = file)
    (hother : moduleFileName other = file) : module = other ∨ module = file ∨ other = file := by
  by_cases hm : moduleFileName module = module
  · exact .inr (.inl (hm.symm.trans h))
  · by_cases ho : moduleFileName other = other
    · exact .inr (.inr (ho.symm.trans hother))
    · have hsame := h.trans hother.symm
      rw [moduleFileName_of_ne hm, moduleFileName_of_ne ho] at hsame
      exact .inl ((String.append_left_inj ".sn").1 hsame)

/-- Modules of one file are read alike. -/
theorem readModule_congr {module other : String}
    (h : moduleFileName module = moduleFileName other) (text : String) :
    readModule module text = readModule other text := by
  rw [readModule, h, ← readModule]

/-- Names of one file lead to the same text. -/
def Library.ByFile (lib : Library) : Prop :=
  ∀ module other, moduleFileName module = moduleFileName other →
    lib.source? module = lib.source? other

/-- A file has the same statements under both of its names. -/
theorem Library.ByFile.ownStatements_moduleFileName {lib : Library} (h : lib.ByFile)
    (module : String) : lib.ownStatements (moduleFileName module) = lib.ownStatements module := by
  have hfile := moduleFileName_idem module
  simp only [ownStatements, statements?, h _ _ hfile, readModule_congr hfile]

/-! ### How often a file is merged -/

/-- The files whose statements have been merged, in order. -/
def ImportState.mergedFiles (s : ImportState) : List String := s.merged.reverse.map moduleFileName

/-- A file is counted once for each of its names. -/
theorem count_map_moduleFileName {names : List String} (h : names.Nodup) (file : String) :
    (names.map moduleFileName).count file =
      (names.toFinset.filter fun module => moduleFileName module = file).card := by
  rw [List.count, List.countP_map, List.countP_eq_length_filter,
    ← List.toFinset_card_of_nodup (h.filter _)]
  congr 1
  ext module
  simp

/-- A file has two names at most. -/
theorem card_names_le_two (names : Finset String) (file : String) :
    (names.filter fun module => moduleFileName module = file).card ≤ 2 := by
  by_contra hlt
  obtain ⟨a, b, c, ha, hb, hc, hab, hac, hbc⟩ := Finset.two_lt_card_iff.1 (not_le.1 hlt)
  rw [Finset.mem_filter] at ha hb hc
  have h₁ := eq_or_eq_of_moduleFileName ha.2 hb.2
  have h₂ := eq_or_eq_of_moduleFileName ha.2 hc.2
  have h₃ := eq_or_eq_of_moduleFileName hb.2 hc.2
  grind

/-- If there are two names, one of them is that of the file. -/
theorem card_names_eq_two_iff (names : Finset String) (file : String) :
    (names.filter fun module => moduleFileName module = file).card = 2 ↔
      ∃ module, moduleFileName module = file ∧ module ≠ file ∧ module ∈ names ∧ file ∈ names := by
  constructor
  · intro htwo
    obtain ⟨a, ha, b, hb, hab⟩ := Finset.one_lt_card.1 (htwo ▸ Nat.one_lt_two)
    rw [Finset.mem_filter] at ha hb
    rcases eq_or_eq_of_moduleFileName ha.2 hb.2 with heq | rfl | rfl
    · exact absurd heq hab
    · exact ⟨b, hb.2, Ne.symm hab, hb.1, ha.1⟩
    · exact ⟨a, ha.2, hab, ha.1, hb.1⟩
  · rintro ⟨module, rfl, hne, hmodule, hfile⟩
    refine (card_names_le_two names _).antisymm (Finset.one_lt_card.2 ⟨module, ?_, _, ?_, hne⟩)
    · exact Finset.mem_filter.2 ⟨hmodule, rfl⟩
    · exact Finset.mem_filter.2 ⟨hfile, moduleFileName_idem module⟩

/-- If names of one file lead to the same text, the result has, besides the statements of the
program, those of each file as often as it is merged.  That is once at most, or twice if the file
is imported under both of its names. -/
theorem count_mergedFiles {lib : Library} {program out : List Stmt} {s : ImportState}
    (hlib : lib.ByFile) (h : resolveImports lib program = (s, .ok out)) :
    (ownStatements out).Perm
        (ownStatements program ++ s.mergedFiles.flatMap lib.ownStatements) ∧
      ∀ file, s.mergedFiles.count file ≤ 2 ∧
        (s.mergedFiles.count file = 2 ↔ ∃ module, moduleFileName module = file ∧ module ≠ file ∧
          module ∈ s.merged ∧ file ∈ s.merged) := by
  have hresolves := resolveImports_ok h
  have hnodup := hresolves.nodup_merged List.nodup_nil
  obtain ⟨new, hmerged, hperm⟩ := hresolves.exists_perm_ownStatements
  rw [List.append_nil] at hmerged
  constructor
  · have hown : (fun module => lib.ownStatements (moduleFileName module)) = lib.ownStatements :=
      funext hlib.ownStatements_moduleFileName
    rw [ImportState.mergedFiles, List.flatMap_map, hown, hmerged, List.reverse_reverse]
    exact hperm
  · intro file
    rw [ImportState.mergedFiles, List.map_reverse, List.count_reverse,
      count_map_moduleFileName hnodup]
    simpa using And.intro (card_names_le_two s.merged.toFinset file)
      (card_names_eq_two_iff s.merged.toFinset file)

namespace Sample

/-- One file under both of its names. -/
def bothNames : Library := [("m", "var x = 1;"), ("m.sn", "var x = 1;")]

/-- A program that imports the file under both of its names. -/
def importsBoth : List Stmt := program "import \"m\"; import \"m.sn\";"

/-- Both names lead to the same text, and no other name leads to one. -/
theorem byFile_bothNames : bothNames.ByFile := by
  -- what a name leads to depends on its file only
  have hsource (module : String) : bothNames.source? module =
      if moduleFileName module = "m.sn" then some "var x = 1;" else none := by
    split
    · next hfile =>
      rcases eq_or_eq_of_moduleFileName hfile (by decide +kernel : moduleFileName "m" = "m.sn") with
        rfl | rfl | h
      · rfl
      · rfl
      · exact absurd h (by decide)
    · next hfile =>
      refine List.lookup_eq_none_iff.2 fun entry hentry => bne_iff_ne.2 ?_
      rintro rfl
      rcases List.mem_pair.1 hentry with rfl | rfl
      · exact hfile (by decide +kernel)
      · exact hfile (by decide +kernel)
  intro module other hfile
  rw [hsource, hsource, hfile]

theorem start_importsBoth :
    ((resolveImports bothNames importsBoth).2.toOption.map (List.map Stmt.start)) =
      some [⟨0, "m.sn"⟩, ⟨0, "m.sn"⟩] := by
  decide +kernel

theorem merged_importsBoth : (resolveImports bothNames importsBoth).1.merged = ["m.sn", "m"] := by
  decide +kernel

/-- The program is resolved, and its result has the one statement of the file twice. -/
theorem exists_importsBoth : ∃ s out, resolveImports bothNames importsBoth = (s, .ok out) ∧
    s.merged = ["m.sn", "m"] ∧ out.map Stmt.start = [⟨0, "m.sn"⟩, ⟨0, "m.sn"⟩] := by
  have hstart := start_importsBoth
  have hmerged := merged_importsBoth
  rcases hs : resolveImports bothNames importsBoth with ⟨s, d | out⟩ <;> rw [hs] at hstart hmerged
  · cases hstart
  · exact ⟨s, out, rfl, hmerged, Option.some.inj hstart⟩

end Sample

/-- The file is imported under both of its names, and merged twice. -/
theorem count_mergedFiles_bothNames :
    Sample.bothNames.ByFile ∧ ∃ s out,
      resolveImports Sample.bothNames Sample.importsBoth = (s, .ok out) ∧
        (ownStatements out).Perm (ownStatements Sample.importsBoth ++
          s.mergedFiles.flatMap Sample.bothNames.ownStatements) ∧
        s.mergedFiles.count "m.sn" = 2 := by
  obtain ⟨s, out, hs, hmerged, -⟩ := Sample.exists_importsBoth
  obtain ⟨hperm, hcount⟩ := count_mergedFiles Sample.byFile_bothNames hs
  refine ⟨Sample.byFile_bothNames, s, out, hs, hperm, (hcount "m.sn").2.2 ⟨"m", ?_⟩⟩
  rw [hmerged]
  decide +kernel

/-- One file is merged twice, and its first statement stands in the result twice. -/
theorem mergedFiles_not_nodup :
    Sample.bothNames.ByFile ∧ ∃ s out,
      resolveImports Sample.bothNames Sample.importsBoth = (s, .ok out) ∧
        ¬ s.mergedFiles.Nodup ∧ out.map Stmt.start = [⟨0, "m.sn"⟩, ⟨0, "m.sn"⟩] := by
  obtain ⟨s, out, hs, hmerged, hstart⟩ := Sample.exists_importsBoth
  refine ⟨Sample.byFile_bothNames, s, out, hs, ?_, hstart⟩
  rw [ImportState.mergedFiles, hmerged]
  decide +kernel

end ThreadRegions
