import ThreadRegions.Check.Walk
import ThreadRegions.Proofs.Resolution

/-!
# Imports that are left over

An import may stand wherever a statement may, also in a block or in the body of a function or a
lambda.  The resolution goes through lists of statements and not into the statements themselves.  So
an import inside of another statement is left as it is.  Those are all that are left over: among the
statements of the result, and among those that the imports with a namespace hold, every import has a
namespace.

## Main Definitions

* `Expr.imports`, `Body.imports`, `Stmt.imports`: the imports inside of a tree, at any depth
* `plainModules`: the modules of the imports without a namespace

## Main Results

* `plainModules_resolveImports`: which imports without a namespace are left over
* `plainModules_remain`: a program with one that is
-/

namespace ThreadRegions

/-! ### The imports of a tree -/

mutual

/-- The imports inside of an expression, in order, with their modules and namespaces. -/
def Expr.imports : Expr → List (String × Option String)
  | .literal .. | .var .. => []
  | .unary _ _ e | .assign _ _ e | .increment _ e | .decrement _ e | .member _ e _ | .spawn _ e _
  | .sync _ e _ => e.imports
  | .binary _ _ a b | .access _ a b | .range _ a b => a.imports ++ b.imports
  | .indexAssign _ a i v => a.imports ++ i.imports ++ v.imports
  | .call _ callee args => callee.imports ++ exprsImports args
  | .array _ elements => exprsImports elements
  | .lambda _ _ body => body.imports

/-- The imports inside of a list of expressions. -/
def exprsImports : List Expr → List (String × Option String)
  | [] => []
  | e :: es => e.imports ++ exprsImports es

/-- The imports inside of an expression, if there is one. -/
def exprImports? : Option Expr → List (String × Option String)
  | none => []
  | some e => e.imports

/-- The imports inside of the body of a lambda. -/
def Body.imports : Body → List (String × Option String)
  | .expr value => value.imports
  | .block statements => stmtsImports statements

/-- The imports inside of a statement.  An import comes before those of the statements it holds. -/
def Stmt.imports : Stmt → List (String × Option String)
  | .expression _ value => value.imports
  | .declare _ _ init => exprImports? init
  | .function _ _ body | .block _ _ body => stmtsImports body
  | .ret _ value => exprImports? value
  | .cond _ condition yes no => condition.imports ++ yes.imports ++ stmtImports? no
  | .whileLoop _ condition body _ => condition.imports ++ body.imports
  | .forLoop _ init condition step body _ =>
    stmtImports? init ++ exprImports? condition ++ exprImports? step ++ body.imports
  | .forEach _ _ _ iterable body _ => iterable.imports ++ body.imports
  | .leave _ | .next _ => []
  | .importModule _ module space statements => (module, space) :: stmtsImports statements

/-- The imports inside of a statement, if there is one. -/
def stmtImports? : Option Stmt → List (String × Option String)
  | none => []
  | some st => st.imports

/-- The imports inside of a list of statements. -/
def stmtsImports : List Stmt → List (String × Option String)
  | [] => []
  | st :: sts => st.imports ++ stmtsImports sts

end

theorem stmtsImports_append (front others : List Stmt) :
    stmtsImports (front ++ others) = stmtsImports front ++ stmtsImports others := by
  induction front with
  | nil => rfl
  | cons st front ih => rw [List.cons_append, stmtsImports, stmtsImports, ih, List.append_assoc]

/-- The modules of those imports that have no namespace. -/
def plainModules (imports : List (String × Option String)) : List String :=
  imports.filterMap fun (module, space) => if space.isNone then some module else none

theorem plainModules_append (front others : List (String × Option String)) :
    plainModules (front ++ others) = plainModules front ++ plainModules others :=
  List.filterMap_append ..

/-! ### What a resolution leaves over -/

/-- In the result, an import without a namespace stands inside of a statement that is no import. -/
theorem ResolvesTo.plainModules_eq {lib : Library} {loading merged merged' reads : List String}
    {statements out : List Stmt}
    (h : ResolvesTo lib loading merged statements reads merged' out) :
    plainModules (stmtsImports out) =
      (writtenIn out).flatMap fun st => plainModules st.imports := by
  induction h with
  | nil => rfl
  | keep hst _ ih =>
    rw [stmtsImports, plainModules_append, ih, writtenIn, Stmt.written_of_not_import hst]
    rfl
  | cyclic _ _ ih | again _ _ _ ih => exact ih
  | @named _ _ _ _ _ _ span module space _ _ inner _ out _ _ _ _ ihInner ih =>
    have hhead : plainModules (Stmt.importModule span module (some space) inner).imports =
      plainModules (stmtsImports inner) := rfl
    rw [stmtsImports, plainModules_append, hhead, ihInner, ih, writtenIn, Stmt.written,
      List.flatMap_append]
  | splice _ _ _ _ _ ihInner ih =>
    rw [stmtsImports_append, plainModules_append, ihInner, ih, writtenIn_append,
      List.flatMap_append]

/-- The statements that are reached are those of the program and of the modules that are read. -/
theorem ResolvesTo.forall_reaches_iff {lib : Library} {merged' reads : List String}
    {program out : List Stmt} (h : ResolvesTo lib [] [] program reads merged' out)
    (P : Stmt → Prop) :
    (∀ body, Reaches lib program body → ∀ st ∈ ownStatements body, P st) ↔
      ∀ st ∈ ownStatements program ++ reads.flatMap lib.ownStatements, P st := by
  constructor
  · intro hall st hst
    rcases List.mem_append.1 hst with hst | hst
    · exact hall program (.inl rfl) st hst
    · obtain ⟨module, hmodule, hst⟩ := List.mem_flatMap.1 hst
      obtain ⟨body, hbody, -⟩ := h.mem_of_imported_by hmodule
      rw [Library.ownStatements_eq hbody] at hst
      exact hall body (.inr ⟨module, h.mem_reads_iff.1 hmodule, hbody⟩) st hst
  · rintro hall body (rfl | ⟨module, hmodule, hbody⟩) st hst
    · exact hall st (List.mem_append_left _ hst)
    · rw [← Library.ownStatements_eq hbody] at hst
      exact hall st (List.mem_append_right _
        (List.mem_flatMap.2 ⟨module, h.mem_reads_iff.2 hmodule, hst⟩))

/-- After a resolution, each import without a namespace that is left over stands inside of a
statement of the program or of a module that is read, and that statement is no import.  So none is
left over exactly if the program and the modules that it imports have none in such a place. -/
theorem plainModules_resolveImports {lib : Library} {program out : List Stmt} {s : ImportState}
    (h : resolveImports lib program = (s, .ok out)) :
    plainModules (stmtsImports out) =
        ((writtenIn out).flatMap fun st => plainModules st.imports) ∧
      (writtenIn out).Perm (ownStatements program ++ s.reads.flatMap lib.ownStatements) ∧
      (∀ module, module ∈ s.reads ↔ Imports lib program module) ∧
      (plainModules (stmtsImports out) = [] ↔ ∀ body, Reaches lib program body →
        ∀ st ∈ ownStatements body, plainModules st.imports = []) := by
  have hresolves := resolveImports_ok h
  have hperm := hresolves.perm_writtenIn
  refine ⟨hresolves.plainModules_eq, hperm, fun module => hresolves.mem_reads_iff, ?_⟩
  rw [hresolves.plainModules_eq, List.flatMap_eq_nil_iff, hresolves.forall_reaches_iff]
  exact forall_congr' fun st => by rw [hperm.mem_iff]

namespace Sample

/-- A module, and two that import it in a branch and through the other. -/
def shelf : Library :=
  [("m", "var x = 1;"), ("k", "if (true) \x7b import \"m\"; \x7d"),
    ("n", "import \"k\"; var y = 2;")]

/-- A program that imports the module in the body of a function. -/
def shelved : List Stmt :=
  program "import \"k\"; import \"n\" as ns; fn f(): void \x7b import \"m\"; \x7d"

theorem plainModules_shelved : ((resolveImports shelf shelved).2.toOption.map fun out =>
    plainModules (stmtsImports out)) = some ["m", "m", "m"] := by
  decide +kernel

/-- A program with an import in a block. -/
def hidden : List Stmt := program "\x7b import \"m\"; \x7d"

theorem plainModules_hidden : ((resolveImports shelf hidden).2.toOption.map fun out =>
    (plainModules (stmtsImports out), (checkModule 0 ⟨out, "main.sn"⟩).1.accepted)) =
      some (["m"], true) := by
  decide +kernel

theorem reads_hidden : (resolveImports shelf hidden).1.reads = [] := by decide +kernel

end Sample

/-- The module is imported inside of a function and, in another module that is read twice, in a
branch: three imports are left over. -/
theorem plainModules_resolveImports_shelved : ∃ s out,
    resolveImports Sample.shelf Sample.shelved = (s, .ok out) ∧
      ((writtenIn out).flatMap fun st => plainModules st.imports) = ["m", "m", "m"] ∧
      (writtenIn out).Perm
        (ownStatements Sample.shelved ++ s.reads.flatMap Sample.shelf.ownStatements) ∧
      ¬ ∀ body, Reaches Sample.shelf Sample.shelved body →
        ∀ st ∈ ownStatements body, plainModules st.imports = [] := by
  have hplain := Sample.plainModules_shelved
  -- the resolution does not fail, as its evaluation shows
  rcases hs : resolveImports Sample.shelf Sample.shelved with ⟨s, d | out⟩ <;> rw [hs] at hplain
  · cases hplain
  · have hplain : plainModules (stmtsImports out) = ["m", "m", "m"] := Option.some.inj hplain
    obtain ⟨hinside, hperm, -, hnone⟩ := plainModules_resolveImports hs
    rw [hplain] at hinside hnone
    exact ⟨s, out, rfl, hinside.symm, hperm, fun hall => absurd (hnone.2 hall) (by decide)⟩

/-- An import without a namespace is left over in a block.  Its module is never read, and the check
accepts the result. -/
theorem plainModules_remain : ∃ s out,
    resolveImports Sample.shelf Sample.hidden = (s, .ok out) ∧
      plainModules (stmtsImports out) = ["m"] ∧ s.reads = [] ∧
      (checkModule 0 ⟨out, "main.sn"⟩).1.accepted = true := by
  have hplain := Sample.plainModules_hidden
  have hreads := Sample.reads_hidden
  rcases hs : resolveImports Sample.shelf Sample.hidden with ⟨s, d | out⟩ <;>
    rw [hs] at hplain hreads
  · cases hplain
  · obtain ⟨hplain, haccepted⟩ := Prod.mk.inj (Option.some.inj hplain)
    exact ⟨s, out, rfl, hplain, hreads, haccepted⟩

end ThreadRegions
