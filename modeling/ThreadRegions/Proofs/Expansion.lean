import Mathlib.Data.List.Nodup
import ThreadRegions.Proofs.Resolution

/-!
# Programs with all modules merged

If no import has a namespace, the resolution of a program is its expansion.  The statements are gone
through from left to right, and into each module where it is imported.  The first import of a module
is replaced by the expansion of the module, and every later one is left out, also inside of a circle
of imports.

## Main Definitions

* `Library.Readable`, `ImportsPlainly`: the modules can be read, and the imports have no namespace
* `Expansion`: the expansion, with the modules whose imports have been met

## Main Results

* `resolveImports_expansion`: the resolution succeeds with the expansion

## Design Notes

The resolution looks at two lists, those of the modules that it is inside of and of the modules that
it has merged.  The expansion has one list, of the imports met so far.  What connects them is that a
module counts as merged before it is entered.
-/

namespace ThreadRegions

/-! ### Programs without namespaces -/

/-- All modules of the library can be read. -/
def Library.Readable (lib : Library) : Prop :=
  ∀ module text, lib.source? module = some text → ∃ body, readModule module text = .ok body

/-- An import has no namespace and names a module of the library. -/
def Stmt.importsPlainly (lib : Library) : Stmt → Bool
  | .importModule _ module space _ => space.isNone && (lib.source? module).isSome
  | _ => true

/-- All imports of the program, and of the modules that it imports, have no namespace and name a
module of the library. -/
def ImportsPlainly (lib : Library) (program : List Stmt) : Prop :=
  ∀ body, Reaches lib program body → ∀ st ∈ body, st.importsPlainly lib

section ImportsPlainly

variable {lib : Library} {program others body old : List Stmt} {module : String} {span : Span}
  {space : Option String}

/-- What holds for a program holds for the modules that it imports. -/
theorem ImportsPlainly.reached (h : ImportsPlainly lib program)
    (hbody : Reaches lib program body) : ImportsPlainly lib body :=
  fun inner hinner => h inner (hbody.trans hinner)

/-- What holds for a program holds for its later statements. -/
theorem ImportsPlainly.tail {st : Stmt} (h : ImportsPlainly lib (st :: others)) :
    ImportsPlainly lib others := by
  rintro body (rfl | ⟨module, himports, hbody⟩) st hst
  · exact h _ (.inl rfl) st (List.mem_cons_of_mem _ hst)
  · exact h body (.inr ⟨module, himports.mono (importedModules_cons_subset _ _), hbody⟩) st hst

/-- An import at the start has no namespace, and its module is there. -/
theorem ImportsPlainly.head
    (h : ImportsPlainly lib (.importModule span module space old :: others)) :
    space = none ∧ (lib.source? module).isSome := by
  have hhead := h _ (.inl rfl) _ List.mem_cons_self
  rwa [Stmt.importsPlainly, Bool.and_eq_true, Option.isNone_iff_eq_none] at hhead

/-- The modules that are imported can be read. -/
theorem ImportsPlainly.statements?_ne_none (h : ImportsPlainly lib program)
    (hreadable : lib.Readable) (himports : Imports lib program module) :
    lib.statements? module ≠ none := by
  obtain ⟨body, hbody, span, space, old, hmem⟩ := himports.exists_import
  have hplain := h body hbody _ hmem
  rw [Stmt.importsPlainly, Bool.and_eq_true] at hplain
  obtain ⟨text, htext⟩ := Option.isSome_iff_exists.1 hplain.2
  obtain ⟨inner, hinner⟩ := hreadable module text htext
  rw [Library.statements?_of_read htext hinner]
  exact Option.some_ne_none inner

end ImportsPlainly

/-! ### The expansion -/

/-- The expansion of statements where the imports in `met` stand before them.  All imports met at
the end come before the statements that it leads to. -/
inductive Expansion (lib : Library) :
    List String → List Stmt → List String → List Stmt → Prop
  | nil {met : List String} : Expansion lib met [] met []
  | keep {met met' : List String} {st : Stmt} {others out : List Stmt} :
      st.isImport = false → Expansion lib met others met' out →
      Expansion lib met (st :: others) met' (st :: out)
  | first {met met₁ met₂ : List String} {span : Span} {module : String}
        {old body inner others out : List Stmt} :
      module ∉ met → lib.statements? module = some body →
      Expansion lib (met ++ [module]) body met₁ inner → Expansion lib met₁ others met₂ out →
      Expansion lib met (.importModule span module none old :: others) met₂ (inner ++ out)
  | later {met met' : List String} {span : Span} {module : String} {old others out : List Stmt} :
      module ∈ met → Expansion lib (met ++ [module]) others met' out →
      Expansion lib met (.importModule span module none old :: others) met' out

namespace Expansion

variable {lib : Library} {met met₁ met₂ : List String} {statements out out₁ out₂ : List Stmt}

/-- There is one expansion at most. -/
theorem unique (h₁ : Expansion lib met statements met₁ out₁)
    (h₂ : Expansion lib met statements met₂ out₂) : met₁ = met₂ ∧ out₁ = out₂ := by
  induction h₁ generalizing met₂ out₂ with
  | nil => cases h₂; exact ⟨rfl, rfl⟩
  | keep hst _ ih =>
    cases h₂ with
    | keep _ h₂ =>
      obtain ⟨rfl, rfl⟩ := ih h₂
      exact ⟨rfl, rfl⟩
    | first | later => cases hst
  | first hnew hbody _ _ ihInner ih =>
    cases h₂ with
    | keep hst => cases hst
    | first _ hbody₂ hinner₂ h₂ =>
      obtain rfl := Option.some.inj (hbody.symm.trans hbody₂)
      obtain ⟨rfl, rfl⟩ := ihInner hinner₂
      obtain ⟨rfl, rfl⟩ := ih h₂
      exact ⟨rfl, rfl⟩
    | later hmet => exact absurd hmet hnew
  | later hmet _ ih =>
    cases h₂ with
    | keep hst => cases hst
    | first hnew => exact absurd hmet hnew
    | later _ h₂ => exact ih h₂

/-- No import is left. -/
theorem not_isImport (h : Expansion lib met statements met₁ out) :
    ∀ st ∈ out, st.isImport = false := by
  induction h with
  | nil => nofun
  | keep hst _ ih => exact List.forall_mem_cons.2 ⟨hst, ih⟩
  | first _ _ _ _ ihInner ih => exact List.forall_mem_append.2 ⟨ihInner, ih⟩
  | later _ _ ih => exact ih

end Expansion

/-! ### The resolution is the expansion -/

/-- An import that has been met before is no first import. -/
theorem eraseDups_append_of_mem {met : List String} {module : String} (h : module ∈ met) :
    (met ++ [module]).eraseDups = met.eraseDups := by
  rw [List.eraseDups_append]
  simp [List.removeAll, h]

/-- A first import comes last among the first imports. -/
theorem eraseDups_append_of_notMem {met : List String} {module : String} (h : module ∉ met) :
    (met ++ [module]).eraseDups = met.eraseDups ++ [module] := by
  rw [List.eraseDups_append]
  simp [List.removeAll, h, List.eraseDups_cons]

/-- The statements have an expansion.  At its end the modules in `merged` have been met, those in
`reads` for the first time and in this order. -/
def Expands (lib : Library) (met : List String) (statements : List Stmt)
    (reads merged : List String) (out : List Stmt) : Prop :=
  ∃ met', Expansion lib met statements met' out ∧ (∀ module, module ∈ met' ↔ module ∈ merged) ∧
    met'.eraseDups = met.eraseDups ++ reads

/-- A later import leaves nothing behind and reads nothing. -/
theorem Expands.later {lib : Library} {met reads merged : List String} {span : Span}
    {module : String} {old others out : List Stmt} (hmem : module ∈ met)
    (h : Expands lib (met ++ [module]) others reads merged out) :
    Expands lib met (.importModule span module none old :: others) reads merged out := by
  obtain ⟨met', hexpansion, hmet', hreads⟩ := h
  rw [eraseDups_append_of_mem hmem] at hreads
  exact ⟨met', .later hmem hexpansion, hmet', hreads⟩

namespace ResolvesTo

variable {lib : Library} {loading merged merged' reads : List String}
  {statements out : List Stmt}

/-- Without namespaces, the modules that are read are those that are merged. -/
theorem merged_eq (h : ResolvesTo lib loading merged statements reads merged' out)
    (hplain : ImportsPlainly lib statements) : merged' = reads.reverse ++ merged := by
  induction h with
  | nil => rfl
  | keep _ _ ih | cyclic _ _ ih | again _ _ _ ih => exact ih hplain.tail
  | named => cases hplain.head.1
  | splice _ _ hbody _ _ ihInner ih =>
    rw [ih hplain.tail, ihInner (hplain.reached (.inr ⟨_, .head .., hbody⟩))]
    simp

/-- Without namespaces, a resolution is an expansion. -/
theorem expands (h : ResolvesTo lib loading merged statements reads merged' out)
    (hplain : ImportsPlainly lib statements) (hloading : loading ⊆ merged) {met : List String}
    (hmet : ∀ module, module ∈ met ↔ module ∈ merged) :
    Expands lib met statements reads merged' out := by
  induction h generalizing met with
  | nil => exact ⟨met, .nil, hmet, (List.append_nil _).symm⟩
  | keep hst _ ih =>
    obtain ⟨met', hexpansion, hmet', hreads⟩ := ih hplain.tail hloading hmet
    exact ⟨met', .keep hst hexpansion, hmet', hreads⟩
  | cyclic hcyclic _ ih =>
    -- a module that is being resolved has been merged, so its import has been met
    obtain rfl := hplain.head.1
    have hmem := (hmet _).2 (hloading hcyclic)
    exact .later hmem (ih hplain.tail hloading (by grind))
  | again _ hmerged _ ih =>
    have hmem := (hmet _).2 hmerged
    exact .later hmem (ih hplain.tail hloading (by grind))
  | named => cases hplain.head.1
  | @splice loading merged merged₁ _ _ _ _ module _ _ _ _ _ _ hunmerged hbody hinner _ ihInner
      ih =>
    have hinside := hplain.reached (.inr ⟨module, .head .., hbody⟩)
    have hnew : module ∉ met := fun hmem => hunmerged ((hmet module).1 hmem)
    -- inside of the module, its own import counts as met
    have hentered : ∀ other, other ∈ met ++ [module] ↔ other ∈ module :: merged := by grind
    obtain ⟨met₁, hexpInner, hmet₁, hreads₁⟩ :=
      ihInner hinside (List.cons_subset_cons module hloading) hentered
    -- the modules around are still merged when the module has been left
    have hloading₁ : loading ⊆ merged₁ := by
      rw [hinner.merged_eq hinside]
      grind
    obtain ⟨met₂, hexp, hmet₂, hreads₂⟩ := ih hplain.tail hloading₁ hmet₁
    refine ⟨met₂, .first hnew hbody hexpInner hexp, hmet₂, ?_⟩
    rw [hreads₂, hreads₁, eraseDups_append_of_notMem hnew]
    simp

end ResolvesTo

/-- Where no import is left, everything stands written as it is. -/
theorem writtenIn_eq_self {statements : List Stmt} (h : ∀ st ∈ statements, st.isImport = false) :
    writtenIn statements = statements := by
  induction statements with
  | nil => rfl
  | cons st others ih =>
    obtain ⟨hst, hothers⟩ := List.forall_mem_cons.1 h
    rw [writtenIn, Stmt.written_of_not_import hst, ih hothers]
    rfl

/-- If all modules can be read and no import has a namespace, the resolution of a program succeeds
with its expansion.  No import is left, each statement of the program and of a module that it
imports is there once, and each of these modules is read once, in the order in which they are met
first. -/
theorem resolveImports_expansion {lib : Library} {program : List Stmt} (hreadable : lib.Readable)
    (hplain : ImportsPlainly lib program) :
    ∃ s out met, resolveImports lib program = (s, .ok out) ∧
      (∀ met' out', Expansion lib [] program met' out' ↔ met' = met ∧ out' = out) ∧
      (∀ st ∈ out, st.isImport = false) ∧
      out.Perm (ownStatements program ++ s.reads.flatMap lib.ownStatements) ∧
      s.reads = met.eraseDups ∧ s.reads.Nodup ∧
      ∀ module, module ∈ s.reads ↔ Imports lib program module := by
  rcases hs : resolveImports lib program with ⟨s, d | out⟩
  · obtain ⟨module, himports, hnone⟩ := resolveImports_error hs
    -- no module is missing, so the resolution does not fail
    exact absurd hnone (hplain.statements?_ne_none hreadable himports)
  · have hresolves := resolveImports_ok hs
    obtain ⟨met, hexpansion, -, hreads⟩ :=
      hresolves.expands hplain (List.Subset.refl _) fun _ => Iff.rfl
    have hnone := hexpansion.not_isImport
    have hnodup := hresolves.nodup_merged List.nodup_nil
    rw [hresolves.merged_eq hplain, List.append_nil, List.nodup_reverse] at hnodup
    refine ⟨s, out, met, rfl, fun met' out' => ⟨fun h => h.unique hexpansion, ?_⟩, hnone, ?_,
      hreads.symm, hnodup, fun module => hresolves.mem_reads_iff⟩
    · rintro ⟨rfl, rfl⟩
      exact hexpansion
    · have hperm := hresolves.perm_writtenIn
      rwa [writtenIn_eq_self hnone] at hperm

namespace Library

variable {lib : Library}

/-- All modules can be read, and their imports have no namespace and name modules of the library. -/
def isPlain (lib : Library) : Bool :=
  lib.all fun entry => (readModule entry.1 entry.2).toOption.any fun body =>
    body.all (Stmt.importsPlainly lib)

/-- A module of such a library can be read, and all its imports are plain. -/
theorem exists_read_of_isPlain (h : lib.isPlain) {module text : String}
    (hsource : lib.source? module = some text) :
    ∃ body, readModule module text = .ok body ∧ ∀ st ∈ body, st.importsPlainly lib := by
  obtain ⟨before, after, hlib, -⟩ := List.lookup_eq_some_iff.1 hsource
  have hmem : (module, text) ∈ lib := hlib ▸ List.mem_append_right before List.mem_cons_self
  obtain ⟨body, hread, hall⟩ := (Option.any_eq_true _ _).1 (List.all_eq_true.1 h _ hmem)
  refine ⟨body, ?_, List.all_eq_true.1 hall⟩
  dsimp only at hread
  cases hresult : readModule module text with
  | error d => rw [hresult] at hread; cases hread
  | ok found => rw [hresult] at hread; cases hread; rfl

theorem readable_of_isPlain (h : lib.isPlain) : lib.Readable := by
  intro module text hsource
  obtain ⟨body, hread, -⟩ := exists_read_of_isPlain h hsource
  exact ⟨body, hread⟩

/-- Through such a library, only plain imports are reached. -/
theorem importsPlainly_of_isPlain (h : lib.isPlain) {program : List Stmt}
    (hprogram : ∀ st ∈ program, st.importsPlainly lib) : ImportsPlainly lib program := by
  rintro body (rfl | ⟨module, -, hbody⟩)
  · exact hprogram
  · obtain ⟨text, hsource, hread⟩ := Option.bind_eq_some_iff.1 hbody
    obtain ⟨inner, hinner, hall⟩ := exists_read_of_isPlain h hsource
    rw [hinner] at hread
    obtain rfl : inner = body := Option.some.inj hread
    exact hall

end Library

namespace Sample

/-- Three modules that import each other in circles, one of them also itself. -/
def tangle : Library :=
  [("a", "import \"b\"; import \"a\"; var y = 2;"), ("b", "import \"a\"; import \"c\"; var z = 3;"),
    ("c", "var w = 4; import \"b\";")]

/-- A program that imports one of the modules twice. -/
def tangled : List Stmt :=
  program "import \"a\"; import \"b\"; var x = 1; import \"a\";"

theorem isPlain_tangle : tangle.isPlain := by decide +kernel

theorem importsPlainly_tangled : ∀ st ∈ tangled, st.importsPlainly tangle := by decide +kernel

theorem reads_tangled : (resolveImports tangle tangled).1.reads = ["a", "b", "c"] := by
  decide +kernel

end Sample

/-- The program is expanded, and each module is read once in spite of the circles. -/
theorem resolveImports_expansion_tangled :
    Sample.tangle.Readable ∧ ImportsPlainly Sample.tangle Sample.tangled ∧
      ∃ s out met, resolveImports Sample.tangle Sample.tangled = (s, .ok out) ∧
        (∀ met' out', Expansion Sample.tangle [] Sample.tangled met' out' ↔
          met' = met ∧ out' = out) ∧
        (∀ st ∈ out, st.isImport = false) ∧
        out.Perm (ownStatements Sample.tangled ++
          ["a", "b", "c"].flatMap Sample.tangle.ownStatements) ∧
        ["a", "b", "c"] = met.eraseDups := by
  have hreadable := Library.readable_of_isPlain Sample.isPlain_tangle
  have hplain := Library.importsPlainly_of_isPlain Sample.isPlain_tangle
    Sample.importsPlainly_tangled
  obtain ⟨s, out, met, hs, hexpansion, hnone, hperm, hreads, -⟩ :=
    resolveImports_expansion hreadable hplain
  have hsample := Sample.reads_tangled
  rw [hs] at hsample
  rw [hsample] at hperm hreads
  exact ⟨hreadable, hplain, s, out, met, hs, hexpansion, hnone, hperm, hreads⟩

end ThreadRegions
