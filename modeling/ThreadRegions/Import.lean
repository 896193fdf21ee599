import ThreadRegions.Grammar.Phrase
import ThreadRegions.Journal
import ThreadRegions.Token.Lexer

/-!
# Imports

An import without a namespace is replaced by the statements of its module, and one with a namespace
takes them in.

## Main Definitions

* `Library`: the modules that can be imported
* `resolveEach`: the statements of one list with their imports resolved
* `resolveFrom`, `resolveImports`: the same, with the modules they import

## Design Notes

Modules may import each other in a circle.  A module that is being resolved is not entered again:
its import is left out.  So each step into a module leaves fewer modules that can still be entered,
and the resolution ends for every library (`unloaded_lt`).

Without a namespace a module is merged once for each set of statements it can be seen from: the
program has such a set, and each module with a namespace has one of its own.
-/

namespace ThreadRegions

/-- The name of the file that holds a module. -/
def moduleFileName (module : String) : String :=
  if module.endsWith ".sn" then module else module ++ ".sn"

/-- The modules that can be imported, by the name in the import, with their texts. -/
abbrev Library := List (String × String)

namespace Library

/-- The text of a module. -/
def source? (lib : Library) (module : String) : Option String := lib.lookup module

/-- The text of the module that a file holds. -/
def fileSource? (lib : Library) (file : String) : Option String :=
  (lib.find? fun entry => moduleFileName entry.1 = file).map Prod.snd

/-- The number of modules that are not being resolved. -/
def unloaded (lib : Library) (loading : List String) : Nat :=
  lib.countP fun entry => !loading.contains entry.1

/-- Entering a module leaves fewer that can still be entered. -/
theorem unloaded_lt {lib : Library} {loading : List String} {module text : String}
    (found : lib.source? module = some text) (fresh : loading.contains module = false) :
    lib.unloaded (module :: loading) < lib.unloaded loading := by
  induction lib with
  | nil => simp [source?] at found
  | cons entry lib ih =>
    obtain ⟨name, body⟩ := entry
    have mono : unloaded lib (module :: loading) ≤ unloaded lib loading := by
      apply List.countP_mono_left
      intro entry _ h
      simp only [List.contains_cons, Bool.not_or, Bool.and_eq_true] at h
      exact h.2
    by_cases same : module = name
    · subst same
      have hin : (!(module :: loading).contains module) = false := by simp
      have hout : (!loading.contains module) = true := by rw [fresh]; rfl
      simp only [unloaded, List.countP_cons, hin, hout] at mono ⊢
      simp only [Bool.false_eq_true, if_false, if_true]
      omega
    · have found : source? lib module = some text := by
        simpa [source?, List.lookup_cons, beq_eq_false_iff_ne.mpr same] using found
      have hlt := ih found
      have hsame : (!(module :: loading).contains name) = !loading.contains name := by
        simp [Ne.symm same]
      simp only [unloaded, List.countP_cons, hsame] at hlt ⊢
      omega

end Library

/-- The statements of a module text. -/
def readModule (module text : String) : Except Diagnostic (List Stmt) :=
  let file := moduleFileName module
  match tokenize text file with
  | .error d => .error d
  | .ok tokens => (Grammar.parse tokens file).result.map Module.statements

/-- The names of the modules that a list of statements imports. -/
def importedModules (statements : List Stmt) : List String :=
  statements.filterMap fun
    | .importModule _ module _ _ => some module
    | _ => none

/-- What has happened during the resolution. -/
structure ImportState where
  /-- The modules whose statements have been merged. -/
  merged : List String
  /-- The modules that were asked for, in order. -/
  reads : List String
  /-- Notes on the resolution. -/
  journal : Journal

namespace ImportState

/-- Nothing has happened. -/
def empty : ImportState := ⟨[], [], #[]⟩

/-- Adds a note. -/
def note (s : ImportState) (level : Level) (text : String) : ImportState :=
  { s with journal := s.journal.note level text }

/-- A module is asked for.  One that is to be merged counts as merged from now on. -/
def asked (s : ImportState) (module : String) (merging : Bool) : ImportState :=
  { s with
    reads := s.reads ++ [module]
    merged := if merging then module :: s.merged else s.merged }

end ImportState

/-- What the resolution of some statements leads to. -/
abbrev Resolution := ImportState × Except Diagnostic (List Stmt)

/-- Puts the statements of a list in front of the others, if nothing was wrong with those. -/
def prepend (front : List Stmt) (answer : Resolution) : Resolution :=
  (answer.1, answer.2.map (front ++ ·))

/-- Resolves the imports among the statements of a module that is not being resolved yet. -/
abbrev Enter (lib : Library) (loading : List String) :=
  (module text : String) → lib.source? module = some text → loading.contains module = false →
    List Stmt → ImportState → Resolution

/-- Resolves the imports among the given statements, where the modules in `loading` are being
resolved and `enter` resolves those of another module. -/
def resolveEach (lib : Library) (loading : List String) (enter : Enter lib loading) :
    List Stmt → ImportState → Resolution
  | [], s => (s, .ok [])
  | .importModule span module space _ :: others, s =>
    if cyclic : loading.contains module then
      resolveEach lib loading enter others
        (s.note .debug s!"skipping cyclic import of '{module}'")
    else if space.isNone && s.merged.contains module then
      resolveEach lib loading enter others (s.note .trace s!"module '{module}' already merged")
    else
      let asked := s.asked module space.isNone
      match (lib.source? module).attach with
      | none => (asked, .error ⟨.importNotFound module, span.start⟩)
      | some ⟨text, found⟩ =>
        match readModule module text with
        | .error d => (asked, .error d)
        | .ok body =>
          let entered := enter module text found (Bool.eq_false_iff.mpr cyclic) body
          match space with
          | some _ =>
            let inside := entered { asked with merged := [] }
            let after := { inside.1 with merged := asked.merged }
            match inside.2 with
            | .error d => (after, .error d)
            | .ok body =>
              prepend [.importModule span module space body]
                (resolveEach lib loading enter others after)
          | none =>
            let inside := entered asked
            match inside.2 with
            | .error d => (inside.1, .error d)
            | .ok body =>
              let after := inside.1.note .debug
                s!"merged {body.length} statement(s) from '{module}'"
              prepend body (resolveEach lib loading enter others after)
  | other :: others, s => prepend [other] (resolveEach lib loading enter others s)

/-- Resolves the imports among the given statements, where the modules in `loading` are being
resolved. -/
def resolveFrom (lib : Library) (loading : List String) (statements : List Stmt)
    (s : ImportState) : Resolution :=
  resolveEach lib loading
    (fun module _ _found _fresh body s => resolveFrom lib (module :: loading) body s)
    statements s
termination_by lib.unloaded loading
decreasing_by exact Library.unloaded_lt _found _fresh

/-- Resolves all imports of a program. -/
def resolveImports (lib : Library) (statements : List Stmt) : Resolution :=
  resolveFrom lib [] statements .empty

end ThreadRegions
