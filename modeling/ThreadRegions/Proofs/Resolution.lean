import Mathlib.Data.List.Perm.Basic
import ThreadRegions.Import

/-!
# What a resolution of imports does

The resolution goes through the statements of a program and of the modules that it imports, and it
keeps two lists on the way: the modules that it is inside of, and those that it has merged.  Here a
resolution that succeeds is taken apart into rules, one for each way to treat a statement.  What is
true of all resolutions is then proved by going through the rules.

## Main Definitions

* `Imports`, `Reaches`: the modules that a program imports, directly or through others, and the
  statements of the program and of these modules
* `ResolvesTo`: a resolution that succeeds, rule by rule
* `writtenIn`: the statements that are no imports, also those that imports hold

## Main Results

* `resolveImports_ok`, `resolveImports_error`: a resolution follows the rules, or a module that the
  program imports cannot be read
* `ResolvesTo.mem_reads_iff`: the modules that are read are those that the program imports
* `ResolvesTo.perm_writtenIn`: no statement is lost, and none is added

## Design Notes

A module may be read more than once if it is imported with a namespace.  So what is said of the
statements of modules is said of the list of all modules that are read, in their order.
-/

namespace ThreadRegions

/-! ### Modules and their imports -/

/-- The statements of a module, if the library has it and it can be read. -/
def Library.statements? (lib : Library) (module : String) : Option (List Stmt) :=
  (lib.source? module).bind fun text => (readModule module text).toOption

theorem Library.statements?_of_read {lib : Library} {module text : String} {body : List Stmt}
    (hsource : lib.source? module = some text) (hread : readModule module text = .ok body) :
    lib.statements? module = some body := by
  rw [statements?, hsource, Option.bind_some, hread]
  rfl

theorem Library.statements?_of_error {lib : Library} {module text : String} {d : Diagnostic}
    (hsource : lib.source? module = some text) (hread : readModule module text = .error d) :
    lib.statements? module = none := by
  rw [statements?, hsource, Option.bind_some, hread]
  rfl

/-- Whether the statement is an import. -/
def Stmt.isImport : Stmt → Bool
  | .importModule .. => true
  | _ => false

theorem importedModules_cons_import (span : Span) (module : String) (space : Option String)
    (old others : List Stmt) :
    importedModules (.importModule span module space old :: others) =
      module :: importedModules others := rfl

theorem importedModules_cons_of_not_import {st : Stmt} (h : st.isImport = false)
    (others : List Stmt) : importedModules (st :: others) = importedModules others := by
  cases st with
  | importModule => cases h
  | _ => rfl

/-- One statement more takes no imports away. -/
theorem importedModules_cons_subset (st : Stmt) (others : List Stmt) :
    importedModules others ⊆ importedModules (st :: others) := by
  intro module hmem
  obtain ⟨found, hfound, hname⟩ := List.mem_filterMap.1 hmem
  exact List.mem_filterMap.2 ⟨found, List.mem_cons_of_mem _ hfound, hname⟩

/-- The modules that are imported directly. -/
theorem mem_importedModules {statements : List Stmt} {module : String} :
    module ∈ importedModules statements ↔
      ∃ span space old, .importModule span module space old ∈ statements := by
  constructor
  · intro hmem
    obtain ⟨st, hst, hname⟩ := List.mem_filterMap.1 hmem
    cases st with
    | importModule span other space old => cases hname; exact ⟨span, space, old, hst⟩
    | _ => cases hname
  · rintro ⟨span, space, old, hst⟩
    exact List.mem_filterMap.2 ⟨_, hst, rfl⟩

/-- The modules that a program imports, directly or through others. -/
inductive Imports (lib : Library) (program : List Stmt) : String → Prop
  | direct {module : String} : module ∈ importedModules program → Imports lib program module
  | through {module other : String} {body : List Stmt} : Imports lib program module →
      lib.statements? module = some body → other ∈ importedModules body → Imports lib program other

/-- The statements are those of the program, or of a module that it imports. -/
def Reaches (lib : Library) (program body : List Stmt) : Prop :=
  body = program ∨ ∃ module, Imports lib program module ∧ lib.statements? module = some body

section Imports

variable {lib : Library} {program others body : List Stmt} {module other : String}

/-- With more imports at the start, more modules are imported. -/
theorem Imports.mono (h : Imports lib others module)
    (hsub : importedModules others ⊆ importedModules program) : Imports lib program module := by
  induction h with
  | direct hmem => exact .direct (hsub hmem)
  | through _ hbody hmem ih => exact ih.through hbody hmem

/-- What a module imports is imported by all that import the module. -/
theorem Imports.enter (h : Imports lib body other) (hmodule : Imports lib program module)
    (hbody : lib.statements? module = some body) : Imports lib program other := by
  induction h with
  | direct hmem => exact hmodule.through hbody hmem
  | through _ hinner hmem ih => exact ih.through hinner hmem

/-- What is reached from the statements of a module is reached by all that reach the module. -/
theorem Reaches.trans {inner : List Stmt} (hbody : Reaches lib program body)
    (hinner : Reaches lib body inner) : Reaches lib program inner := by
  rcases hbody with rfl | ⟨module, hmodule, hbody⟩
  · exact hinner
  · rcases hinner with rfl | ⟨other, hother, hinner⟩
    · exact .inr ⟨module, hmodule, hbody⟩
    · exact .inr ⟨other, hother.enter hmodule hbody, hinner⟩

/-- An imported module is named by an import among the statements that are reached. -/
theorem Imports.exists_import (h : Imports lib program module) :
    ∃ body, Reaches lib program body ∧
      ∃ span space old, .importModule span module space old ∈ body := by
  cases h with
  | direct hmem => exact ⟨program, .inl rfl, mem_importedModules.1 hmem⟩
  | through hother hbody hmem =>
    exact ⟨_, .inr ⟨_, hother, hbody⟩, mem_importedModules.1 hmem⟩

theorem Imports.head (lib : Library) (span : Span) (module : String) (space : Option String)
    (old others : List Stmt) :
    Imports lib (.importModule span module space old :: others) module :=
  .direct List.mem_cons_self

end Imports

/-! ### The rules -/

/-- The resolution of statements, where the modules in `loading` are being resolved and those in
`merged` have been merged.  It succeeds, and leads to the statements `out`.  The modules that it
reads on the way, in order, and those that have been merged at the end come before `out`. -/
inductive ResolvesTo (lib : Library) :
    List String → List String → List Stmt → List String → List String → List Stmt → Prop
  | nil {loading merged : List String} : ResolvesTo lib loading merged [] [] merged []
  | keep {loading merged merged' reads : List String} {st : Stmt} {others out : List Stmt} :
      st.isImport = false → ResolvesTo lib loading merged others reads merged' out →
      ResolvesTo lib loading merged (st :: others) reads merged' (st :: out)
  /-- The import stands inside of its own module. -/
  | cyclic {loading merged merged' reads : List String} {span : Span} {module : String}
        {space : Option String} {old others out : List Stmt} :
      module ∈ loading → ResolvesTo lib loading merged others reads merged' out →
      ResolvesTo lib loading merged (.importModule span module space old :: others) reads merged'
        out
  /-- The module has been merged. -/
  | again {loading merged merged' reads : List String} {span : Span} {module : String}
        {old others out : List Stmt} :
      module ∉ loading → module ∈ merged → ResolvesTo lib loading merged others reads merged' out →
      ResolvesTo lib loading merged (.importModule span module none old :: others) reads merged' out
  /-- The import keeps the statements of its module, which merges modules on its own. -/
  | named {loading merged inside merged' reads₁ reads₂ : List String} {span : Span}
        {module space : String} {old body inner others out : List Stmt} :
      module ∉ loading → lib.statements? module = some body →
      ResolvesTo lib (module :: loading) [] body reads₁ inside inner →
      ResolvesTo lib loading merged others reads₂ merged' out →
      ResolvesTo lib loading merged (.importModule span module (some space) old :: others)
        (module :: reads₁ ++ reads₂) merged' (.importModule span module (some space) inner :: out)
  /-- The statements of the module take the place of the import. -/
  | splice {loading merged merged₁ merged₂ reads₁ reads₂ : List String} {span : Span}
        {module : String} {old body inner others out : List Stmt} :
      module ∉ loading → module ∉ merged → lib.statements? module = some body →
      ResolvesTo lib (module :: loading) (module :: merged) body reads₁ merged₁ inner →
      ResolvesTo lib loading merged₁ others reads₂ merged₂ out →
      ResolvesTo lib loading merged (.importModule span module none old :: others)
        (module :: reads₁ ++ reads₂) merged₂ (inner ++ out)

/-- The resolution follows the rules if it succeeds.  If not, one of the modules that are imported
cannot be read. -/
def Accounts (lib : Library) (loading : List String) (statements : List Stmt) (s : ImportState)
    (answer : Resolution) : Prop :=
  match answer.2 with
  | .ok out => ∃ reads, ResolvesTo lib loading s.merged statements reads answer.1.merged out ∧
      answer.1.reads = s.reads ++ reads
  | .error _ => ∃ module, Imports lib statements module ∧ lib.statements? module = none

namespace Accounts

variable {lib : Library} {loading : List String} {statements others : List Stmt}
  {s s₁ : ImportState} {answer : Resolution}

/-- A module that cannot be read ends the resolution. -/
theorem of_error {d : Diagnostic} {module : String} (himports : Imports lib statements module)
    (hnone : lib.statements? module = none) : Accounts lib loading statements s (s₁, .error d) :=
  ⟨module, himports, hnone⟩

/-- What goes wrong inside of a module goes wrong for all that import the module. -/
theorem error_enter {loading' : List String} {body : List Stmt} {s' s₁' : ImportState}
    {d d' : Diagnostic} {module : String} (h : Accounts lib loading' body s' (s₁', .error d'))
    (himports : Imports lib statements module) (hbody : lib.statements? module = some body) :
    Accounts lib loading statements s (s₁, .error d) := by
  obtain ⟨other, hother, hnone⟩ := h
  exact of_error (hother.enter himports hbody) hnone

theorem cons {st : Stmt} {front : List Stmt} (new : List String)
    (h : Accounts lib loading others s₁ answer) (hreads : s₁.reads = s.reads ++ new)
    (hrule : ∀ {reads merged' out}, ResolvesTo lib loading s₁.merged others reads merged' out →
      ResolvesTo lib loading s.merged (st :: others) (new ++ reads) merged' (front ++ out)) :
    Accounts lib loading (st :: others) s (prepend front answer) := by
  obtain ⟨after, d | out⟩ := answer
  · obtain ⟨module, himports, hnone⟩ := h
    exact ⟨module, himports.mono (importedModules_cons_subset st others), hnone⟩
  · obtain ⟨reads, hresolves, hafter⟩ := h
    refine ⟨new ++ reads, hrule hresolves, ?_⟩
    rw [← List.append_assoc, ← hreads]
    exact hafter

theorem skip {st : Stmt} (h : Accounts lib loading others s₁ answer)
    (hmerged : s₁.merged = s.merged) (hreads : s₁.reads = s.reads)
    (hrule : ∀ {reads merged' out}, ResolvesTo lib loading s.merged others reads merged' out →
      ResolvesTo lib loading s.merged (st :: others) reads merged' out) :
    Accounts lib loading (st :: others) s answer := by
  have hnil : prepend [] answer = answer := by
    obtain ⟨after, d | out⟩ := answer <;> rfl
  rw [← hnil]
  exact h.cons [] (by rw [hreads, List.append_nil]) fun hresolves => hrule (hmerged ▸ hresolves)

end Accounts

/-- The resolution of one list follows the rules if that of the modules inside does. -/
theorem accounts_resolveEach {lib : Library} {loading : List String} {enter : Enter lib loading}
    (henter : ∀ module text found fresh body s,
      Accounts lib (module :: loading) body s (enter module text found fresh body s))
    (statements : List Stmt) (s : ImportState) :
    Accounts lib loading statements s (resolveEach lib loading enter statements s) := by
  induction statements generalizing s with
  | nil => exact ⟨[], .nil, (List.append_nil _).symm⟩
  | cons st others ih =>
    -- the ways to treat an import are gone through in the order in which the resolution asks
    cases st with
    | importModule span module space old =>
      have himports := Imports.head lib span module space old others
      rw [resolveEach]
      split
      · next hcyclic => exact (ih _).skip rfl rfl (.cyclic (List.contains_iff_mem.1 hcyclic))
      · next hfresh =>
        have hnew : module ∉ loading := fun hmem => hfresh (List.contains_iff_mem.2 hmem)
        split
        · next hmerged =>
          obtain ⟨hspace, hmerged⟩ := (Bool.and_eq_true _ _).mp hmerged
          obtain rfl : space = none := Option.isNone_iff_eq_none.1 hspace
          exact (ih _).skip rfl rfl (.again hnew (List.contains_iff_mem.1 hmerged))
        · next hunmerged =>
          dsimp only
          split
          · next hattach =>
            refine .of_error himports ?_
            rw [Library.statements?, Option.attach_eq_none_iff.1 hattach]
            rfl
          · next text found _ =>
            cases hread : readModule module text with
            | error d => exact .of_error himports (Library.statements?_of_error found hread)
            | ok body =>
              have hbody := Library.statements?_of_read found hread
              have hinside := henter module text found (Bool.eq_false_iff.mpr hfresh) body
              dsimp only
              cases space with
              | some space =>
                -- the module starts with nothing merged, and what it merges is forgotten
                have hinner := hinside { s.asked module false with merged := [] }
                dsimp only [Option.isNone_some]
                generalize enter module text _ _ body _ = answer at hinner ⊢
                obtain ⟨inside, d | inner⟩ := answer
                · exact hinner.error_enter himports hbody
                · obtain ⟨reads, hresolves, hreads⟩ := hinner
                  refine (ih _).cons (module :: reads) ?_ (.named hnew hbody hresolves)
                  exact hreads.trans (List.append_assoc ..)
              | none =>
                -- the module counts as merged before it is entered
                have hinner := hinside (s.asked module true)
                dsimp only [Option.isNone_none]
                generalize enter module text _ _ body _ = answer at hinner ⊢
                obtain ⟨inside, d | inner⟩ := answer
                · exact hinner.error_enter himports hbody
                · obtain ⟨reads, hresolves, hreads⟩ := hinner
                  have hunmerged : module ∉ s.merged := fun hmem =>
                    hunmerged (List.contains_iff_mem.2 hmem)
                  refine (ih _).cons (module :: reads) ?_ (.splice hnew hunmerged hbody hresolves)
                  exact hreads.trans (List.append_assoc ..)
    | _ => exact (ih s).cons [] (List.append_nil _).symm (.keep rfl)

/-- The resolution follows the rules, whatever it is inside of. -/
theorem accounts_resolveFrom (lib : Library) (loading : List String) (statements : List Stmt)
    (s : ImportState) :
    Accounts lib loading statements s (resolveFrom lib loading statements s) := by
  rw [resolveFrom]
  refine accounts_resolveEach (fun module text found fresh body s => ?_) statements s
  -- inside of a module there are fewer modules left that could be entered
  have hlt := Library.unloaded_lt found fresh
  exact accounts_resolveFrom lib (module :: loading) body s
termination_by lib.unloaded loading

/-- A resolution that succeeds follows the rules. -/
theorem resolveImports_ok {lib : Library} {program out : List Stmt} {s : ImportState}
    (h : resolveImports lib program = (s, .ok out)) :
    ResolvesTo lib [] [] program s.reads s.merged out := by
  have haccounts := accounts_resolveFrom lib [] program .empty
  rw [show resolveFrom lib [] program .empty = _ from h] at haccounts
  obtain ⟨reads, hresolves, hreads⟩ := haccounts
  obtain rfl : s.reads = reads := hreads
  exact hresolves

/-- A resolution fails only on a module that is imported and cannot be read. -/
theorem resolveImports_error {lib : Library} {program : List Stmt} {s : ImportState}
    {d : Diagnostic} (h : resolveImports lib program = (s, .error d)) :
    ∃ module, Imports lib program module ∧ lib.statements? module = none := by
  have haccounts := accounts_resolveFrom lib [] program .empty
  rwa [show resolveFrom lib [] program .empty = _ from h] at haccounts

/-! ### The modules that are read -/

namespace ResolvesTo

variable {lib : Library} {loading merged merged' reads : List String}
  {statements out : List Stmt}

/-- What has been merged at the end was merged before, or has been read. -/
theorem mem_merged (h : ResolvesTo lib loading merged statements reads merged' out) :
    ∀ module ∈ merged', module ∈ merged ∨ module ∈ reads := by
  intro module hmem
  induction h with
  | nil => exact .inl hmem
  | keep _ _ ih | cyclic _ _ ih | again _ _ _ ih => exact ih hmem
  | named _ _ _ _ _ ih => exact (ih hmem).imp_right (List.mem_append_right _)
  | splice _ _ _ _ _ ihInner ih => grind

/-- A module is merged once. -/
theorem nodup_merged (h : ResolvesTo lib loading merged statements reads merged' out)
    (hmerged : merged.Nodup) : merged'.Nodup := by
  induction h with
  | nil => exact hmerged
  | keep _ _ ih | cyclic _ _ ih | again _ _ _ ih | named _ _ _ _ _ ih => exact ih hmerged
  | splice _ hnew _ _ _ ihInner ih => exact ih (ihInner (List.nodup_cons.2 ⟨hnew, hmerged⟩))

/-- An import among the statements leads to a module that is being resolved, that has been merged
or that is read. -/
theorem mem_of_imported (h : ResolvesTo lib loading merged statements reads merged' out) :
    ∀ module ∈ importedModules statements,
      module ∈ loading ∨ module ∈ merged ∨ module ∈ reads := by
  intro module hmem
  induction h with
  | nil => cases hmem
  | keep hst _ ih => exact ih (importedModules_cons_of_not_import hst _ ▸ hmem)
  | cyclic | again | named => grind [importedModules_cons_import]
  | splice _ _ _ hinner _ _ ih =>
    have hmerged := hinner.mem_merged
    grind [importedModules_cons_import]

/-- The modules that are read can be read, and their imports are followed as well. -/
theorem mem_of_imported_by (h : ResolvesTo lib loading merged statements reads merged' out)
    {module : String} (hmem : module ∈ reads) :
    ∃ body, lib.statements? module = some body ∧ ∀ other ∈ importedModules body,
      other ∈ loading ∨ other ∈ merged ∨ other ∈ reads := by
  induction h with
  | nil => cases hmem
  | keep _ _ ih | cyclic _ _ ih | again _ _ _ ih => exact ih hmem
  | named _ hbody hinner _ ihInner ih =>
    have himported := hinner.mem_of_imported
    grind
  | splice _ _ hbody hinner _ ihInner ih =>
    have himported := hinner.mem_of_imported
    have hmerged := hinner.mem_merged
    grind

/-- Only modules that are imported are read. -/
theorem imports_of_mem_reads (h : ResolvesTo lib loading merged statements reads merged' out)
    {module : String} (hmem : module ∈ reads) : Imports lib statements module := by
  induction h with
  | nil => cases hmem
  | keep _ _ ih | cyclic _ _ ih | again _ _ _ ih =>
    exact (ih hmem).mono (importedModules_cons_subset _ _)
  | named _ hbody _ _ ihInner ih | splice _ _ hbody _ _ ihInner ih =>
    rcases List.mem_append.1 hmem with hmem | hmem
    · rcases List.mem_cons.1 hmem with rfl | hmem
      · exact .head ..
      · exact (ihInner hmem).enter (.head ..) hbody
    · exact (ih hmem).mono (importedModules_cons_subset _ _)

/-- A program reads the modules that it imports, directly or through others, and no more. -/
theorem mem_reads_iff {program : List Stmt} (h : ResolvesTo lib [] [] program reads merged' out)
    {module : String} : module ∈ reads ↔ Imports lib program module := by
  have hstart {other : String} (hmem : other ∈ [] ∨ other ∈ [] ∨ other ∈ reads) :
      other ∈ reads := by simpa using hmem
  refine ⟨h.imports_of_mem_reads, fun himports => ?_⟩
  induction himports with
  | direct hmem => exact hstart (h.mem_of_imported _ hmem)
  | through _ hbody hmem ih =>
    obtain ⟨body, hbody', himported⟩ := h.mem_of_imported_by ih
    obtain rfl := Option.some.inj (hbody.symm.trans hbody')
    exact hstart (himported _ hmem)

end ResolvesTo

/-! ### The statements of the result -/

mutual

/-- The statement itself or, for an import, what stands written in the statements it holds. -/
def Stmt.written : Stmt → List Stmt
  | .importModule _ _ _ statements => writtenIn statements
  | st => [st]

/-- The statements that are no imports, also those that imports hold. -/
def writtenIn : List Stmt → List Stmt
  | [] => []
  | st :: others => st.written ++ writtenIn others

end

/-- The statements of a list that are no imports. -/
def ownStatements (statements : List Stmt) : List Stmt := statements.filter fun st => !st.isImport

theorem ownStatements_cons {st : Stmt} (h : st.isImport = false) (others : List Stmt) :
    ownStatements (st :: others) = st :: ownStatements others :=
  List.filter_cons_of_pos (congrArg not h)

theorem ownStatements_append (front others : List Stmt) :
    ownStatements (front ++ others) = ownStatements front ++ ownStatements others :=
  List.filter_append ..

/-- The statements of a module that are no imports. -/
def Library.ownStatements (lib : Library) (module : String) : List Stmt :=
  (lib.statements? module).elim [] ThreadRegions.ownStatements

theorem Library.ownStatements_eq {lib : Library} {module : String} {body : List Stmt}
    (h : lib.statements? module = some body) :
    lib.ownStatements module = ThreadRegions.ownStatements body := by
  rw [Library.ownStatements, h, Option.elim_some]

theorem Stmt.written_of_not_import {st : Stmt} (h : st.isImport = false) : st.written = [st] := by
  cases st with
  | importModule => cases h
  | _ => rfl

theorem writtenIn_append (front others : List Stmt) :
    writtenIn (front ++ others) = writtenIn front ++ writtenIn others := by
  induction front with
  | nil => rfl
  | cons st front ih => simp only [List.cons_append, writtenIn, ih, List.append_assoc]

namespace ResolvesTo

variable {lib : Library} {loading merged merged' reads : List String}
  {statements out : List Stmt}

/-- What comes from inside of a module stands before what comes after it. -/
theorem perm_append {inside after : List String} {module : String}
    {body inner others : List Stmt} (hbody : lib.statements? module = some body)
    (hinner : inner.Perm (ownStatements body ++ inside.flatMap lib.ownStatements))
    (hout : out.Perm (ownStatements others ++ after.flatMap lib.ownStatements)) :
    (inner ++ out).Perm
      (ownStatements others ++ (module :: inside ++ after).flatMap lib.ownStatements) := by
  rw [List.flatMap_append, List.flatMap_cons, Library.ownStatements_eq hbody]
  exact (hinner.append hout).trans (List.perm_append_comm_assoc _ _ _)

/-- What stands written in the result are the statements of the program and of all modules that
are read, apart from the imports. -/
theorem perm_writtenIn (h : ResolvesTo lib loading merged statements reads merged' out) :
    (writtenIn out).Perm (ownStatements statements ++ reads.flatMap lib.ownStatements) := by
  induction h with
  | nil => exact .refl _
  | keep hst _ ih =>
    rw [writtenIn, Stmt.written_of_not_import hst, ownStatements_cons hst]
    exact ih.cons _
  | cyclic _ _ ih | again _ _ _ ih => exact ih
  | named _ hbody _ _ ihInner ih => exact perm_append hbody ihInner ih
  | splice _ _ hbody _ _ ihInner ih =>
    rw [writtenIn_append]
    exact perm_append hbody ihInner ih

/-- The modules that have been merged at the end, apart from those that were before, are those whose
statements have been put into the list. -/
theorem exists_perm_ownStatements (h : ResolvesTo lib loading merged statements reads merged' out) :
    ∃ new : List String, merged' = new.reverse ++ merged ∧
      (ownStatements out).Perm (ownStatements statements ++ new.flatMap lib.ownStatements) := by
  induction h with
  | nil => exact ⟨[], rfl, .refl _⟩
  | keep hst _ ih =>
    obtain ⟨new, hmerged, hperm⟩ := ih
    rw [ownStatements_cons hst, ownStatements_cons hst]
    exact ⟨new, hmerged, hperm.cons _⟩
  | cyclic _ _ ih | again _ _ _ ih | named _ _ _ _ _ ih => exact ih
  | @splice _ _ _ _ _ _ _ module _ _ _ _ _ _ _ hbody _ _ ihInner ih =>
    obtain ⟨inside, hinside, hinner⟩ := ihInner
    obtain ⟨after, hafter, hout⟩ := ih
    refine ⟨module :: inside ++ after, ?_, ?_⟩
    · rw [hafter, hinside]
      simp
    · rw [ownStatements_append]
      exact perm_append hbody hinner hout

end ResolvesTo

/-- The statements of a program text. -/
def Sample.program (text : String) : List Stmt := (readModule "main" text).toOption.getD []

end ThreadRegions
