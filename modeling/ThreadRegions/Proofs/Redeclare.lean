import ThreadRegions.Proofs.Accept
import ThreadRegions.Proofs.Capture

/-!
# Reading a variable that has just been declared

A declaration gives its name the declared type, whatever the current scope knows the name as.  It
makes a new symbol only if the scope does not have the name; otherwise the symbol goes on with its
kind and its part in the threads of the program.  So a variable that takes the name of a namespace
cannot be read, and one that takes the name of a thread handle can be read once the thread has been
waited for.

## Main Definitions

* `Checker.afterInit`: the checker when a variable is about to be declared

## Main Results

* `checkExpr_var_after_declare`: what reading a variable right after its declaration gives
-/

namespace ThreadRegions

open CheckM

/-! ### The symbol of a declaration -/

namespace Table

variable {t : Table} (x : String) (type : Ty) (kind : SymbolKind) (q : Qualifier)

/-- A name of the current scope keeps its symbol. -/
theorem addQualified_of_some {a : SymbolId} (ha : t.lookupCurrent x = some a) :
    t.addQualified x type kind q = ((t.setType a type).setQualifier a q, a) := by
  simp only [addQualified, add, ha]

/-- The symbol keeps its kind, and its part in threads. -/
theorem symbol_addQualified_of_some (hw : t.WellFormed) {a : SymbolId}
    (ha : t.lookupCurrent x = some a) :
    (t.addQualified x type kind q).1.symbol a =
      { t.symbol a with type := type, qualifier := q } := by
  have hlt := hw.lookupCurrent_lt ha
  have hlt' : a < (t.setType a type).symbols.size := by
    rw [setType, size_modifySymbol]
    exact hlt
  rw [addQualified_of_some x type kind q ha]
  show ((t.setType a type).setQualifier a q).symbol a = _
  rw [setQualifier, symbol_modifySymbol_self hlt', setType, symbol_modifySymbol_self hlt]

/-- A name that the current scope does not have gets a new symbol. -/
theorem symbol_addQualified_of_none (hn : t.lookupCurrent x = none) :
    (t.addQualified x type kind q).1.symbol (t.addQualified x type kind q).2 =
      { Symbol.fresh x type kind t.current with
        offset := nextOffset (t.scope t.current) kind
        region := t.region
        qualifier := q } := by
  have hlt : t.symbols.size < (t.addNew x type kind).symbols.size := by
    rw [addNew, symbols_modifyScope, size_pushSymbol]
    exact Nat.lt_succ_self _
  simp only [addQualified, add, hn]
  rw [setQualifier, symbol_modifySymbol_self hlt, symbol_addNew_self]

end Table

/-! ### A declaration that starts no thread -/

/-- The checker when a variable is about to be declared, its initial value having been checked. -/
def Checker.afterInit (s : Checker) (head : VariableHead) : Option Expr → Checker
  | none => s
  | some init => (checkExpr head.type init).after s

/-- The initial value starts a thread exactly if it did so before. -/
theorem VariableHead.any_isSpawn_refine (head : VariableHead) (init : Option Expr) :
    (head.refine init).any Expr.isSpawn = init.any Expr.isSpawn := by
  have hrefine : ∀ (e : Expr) (element : Ty), (e.refineArray element).isSpawn = e.isSpawn := by
    intro e element
    unfold Expr.refineArray
    split
    · exact Expr.isSpawn_withType _ e
    · split
      · exact Expr.isSpawn_withType _ e
      · rfl
    · rfl
  unfold VariableHead.refine
  split
  · cases init with
    | none => rfl
    | some e => exact hrefine e _
  · rfl

theorem table_recordInit_of_not_spawn {init : Option Expr} (hi : init.any Expr.isSpawn = false)
    (s : Checker) (span : Span) (id : SymbolId) :
    ((recordInit span id init).after s).table = s.table := by
  cases init with
  | none => rfl
  | some e =>
    have hne : ∀ n m callee args mode, e ≠ .spawn n (.call m callee args) mode := by
      rintro n m callee args mode rfl
      cases hi
    rw [recordInit, after_bind, table_reportAny, recordSpawn_of_not_spawn hne]

/-- A variable that is bound to no thread is added to the table, and that is all. -/
theorem table_finishDeclare_of_not_spawn {init : Option Expr} (hi : init.any Expr.isSpawn = false)
    (s : Checker) (span : Span) (head : VariableHead) :
    ((finishDeclare span head init).after s).table =
      (s.table.addQualified head.name ((inferType span head (head.refine init)).answer s)
        s.table.declarationKind head.qualifier).1 := by
  have hvoid : ¬ startsVoid init = true := by
    rw [startsVoid, hi]
    exact Bool.false_ne_true
  have hdeclare := congrArg Prod.fst (declareTyped_eq
    ((inferType span head (head.refine init)).after s) span head
    ((inferType span head (head.refine init)).answer s))
  rw [table_inferType] at hdeclare
  rw [finishDeclare, if_neg hvoid]
  simp only [after_bind, after_pure]
  rw [table_recordInit_of_not_spawn ((head.any_isSpawn_refine init).trans hi), table_reportMismatch]
  exact hdeclare

theorem answer_inferType_of_some {head : VariableHead} {type : Ty} (h : head.type = some type)
    (span : Span) (init : Option Expr) (s : Checker) :
    (inferType span head init).answer s = type := by
  simp only [inferType, h, answer_pure]

/-- A declaration that reports nothing adds its variable to the table, with the type that it carries
afterwards.  A type that is written down stays.  If a thread is started, it is noted down
besides. -/
theorem silent_declare {s : Checker} {ret : Ty} {span : Span} {head : VariableHead}
    {init : Option Expr}
    (he : ((checkStmt ret (.declare span head init)).after s).errors = s.errors) :
    let t := (s.afterInit head init).table
    let t' := ((checkStmt ret (.declare span head init)).after s).table
    ∃ head' init' type,
      (checkStmt ret (.declare span head init)).answer s = .declare span head' init' ∧
      head'.name = head.name ∧ head'.type = some type ∧ (∀ t', head.type = some t' → type = t') ∧
      head'.symbol = some (t.addQualified head.name type t.declarationKind head.qualifier).2 ∧
      (t.addQualified head.name type t.declarationKind head.qualifier).1.SameButThreads t' ∧
      (init.any Expr.isSpawn = false →
        t' = (t.addQualified head.name type t.declarationKind head.qualifier).1) := by
  cases init with
  | none =>
    rw [checkStmt] at he ⊢
    obtain ⟨t, rfl, hsame, hans⟩ := silent_finishDeclare he
    exact ⟨_, _, _, hans, rfl, rfl, fun t' ht => answer_inferType_of_some ht span _ s, rfl, hsame,
      fun hi => table_finishDeclare_of_not_spawn hi s span head⟩
  | some e =>
    obtain ⟨⟨a, ho⟩, hafter, he'⟩ := declare_spawn_of_no_error he
    obtain ⟨t, rfl, hsame, hans⟩ := silent_finishDeclare he'
    have hanswer : (checkStmt ret (.declare span head (some e))).answer s =
        (finishDeclare span head (some ((checkExpr head.type e).answer s).expr)).answer
          ((checkExpr head.type e).after s) := by
      rw [checkStmt, answer_bind]
      simp only [ho]
    rw [hafter]
    refine ⟨_, _, _, hanswer.trans hans, rfl, rfl,
      fun t' ht => answer_inferType_of_some ht span _ _, rfl, hsame,
      fun hi => table_finishDeclare_of_not_spawn ?_ _ span head⟩
    exact (isSpawn_checkExpr head.type e s).trans hi

/-! ### Reading it -/

/-- What is wrong with reading a variable of the given name that has the given symbol. -/
def Symbol.readError? (s : Symbol) (name : String) : Option Cause :=
  if s.isNamespace then some (.undefinedVariable name none)
  else if s.isPending then some (.pendingHandleUse name)
  else none

/-- Reading a variable gives the type of its symbol, unless the symbol cannot be read. -/
theorem type_checkExpr_var {s : Checker} {n : Node} (hn : n.type = none) {name : String}
    {a : SymbolId} (ha : s.table.lookup name = some a) (hint : Option Ty) :
    ((checkExpr hint (.var n name)).answer s).type =
      (((s.table.symbol a).readError? name).map fun cause => ⟨cause, n.span.start⟩).elim
        (.ok (s.table.symbol a).type) .error := by
  have hknown : (Expr.var n name).type? = none := hn
  obtain ⟨hafter, hanswer⟩ := after_resolve_some ha
  rw [checkExpr, unlessKnown, hknown]
  simp only [checkVar, answer_bind, hafter, hanswer, answer_table, after_table, toLedger_captured]
  unfold Symbol.readError?
  split
  · rfl
  · split <;> rfl

/-- A declaration goes on with what the current scope knows the name as. -/
theorem readError?_addQualified {t : Table} (hw : t.WellFormed) (x : String) (type : Ty)
    (q : Qualifier) :
    ((t.addQualified x type t.declarationKind q).1.symbol
        (t.addQualified x type t.declarationKind q).2).readError? x =
      (t.lookupCurrent x).bind fun a => (t.symbol a).readError? x := by
  cases ha : t.lookupCurrent x with
  | none =>
    rw [Table.symbol_addQualified_of_none x type _ q ha]
    have hkind : t.declarationKind ≠ .namespace_ := by
      unfold Table.declarationKind
      split <;> nofun
    simp [Symbol.readError?, Symbol.isNamespace, Symbol.isPending, Symbol.fresh, hkind]
  | some a =>
    have hid : (t.addQualified x type t.declarationKind q).2 = a :=
      congrArg Prod.snd (Table.addQualified_of_some x type _ q ha)
    rw [hid, Table.symbol_addQualified_of_some x type _ q hw ha]
    rfl

/-- A variable that has been declared without an error, and not as the handle of a thread, is read
with exactly the type that its declaration carries.  The two exceptions are what the current scope
knew the name as before: the name of a namespace stays one, and a handle stays pending until its
thread is waited for, which the initial value may have done. -/
theorem checkExpr_var_after_declare {roots : List ScopeId} {s : Checker} (h : Reachable roots s)
    (ret : Ty) (span : Span) (head : VariableHead) (init : Option Expr) (hint : Option Ty)
    (n : Node) (hi : init.any Expr.isSpawn = false) (hn : n.type = none)
    (he : ((checkStmt ret (.declare span head init)).after s).errors = s.errors) :
    let t := (s.afterInit head init).table
    let read := ((checkExpr hint (.var n head.name)).answer
      ((checkStmt ret (.declare span head init)).after s)).type
    ∃ head' init' type,
      (checkStmt ret (.declare span head init)).answer s = .declare span head' init' ∧
      head'.name = head.name ∧ head'.type = some type ∧ (∀ t', head.type = some t' → type = t') ∧
      (read = .ok type ↔ ∀ a, t.lookupCurrent head.name = some a →
        (t.symbol a).isNamespace = false ∧ (t.symbol a).isPending = false) ∧
      ∀ a, t.lookupCurrent head.name = some a →
        ((t.symbol a).isNamespace = true →
          read = .error ⟨.undefinedVariable head.name none, n.span.start⟩) ∧
        ((t.symbol a).isNamespace = false → (t.symbol a).isPending = true →
          read = .error ⟨.pendingHandleUse head.name, n.span.start⟩) := by
  intro t read
  have hw : t.WellFormed := by
    cases init with
    | none => exact h.wellFormed
    | some e => exact (Reachable.visit (.expr head.type e) h).wellFormed
  obtain ⟨head', init', type, hans, hname, htype, hwritten, -, -, htable⟩ := silent_declare he
  have htable := htable hi
  have hlookup : ((checkStmt ret (.declare span head init)).after s).table.lookup head.name =
      some (t.addQualified head.name type t.declarationKind head.qualifier).2 := by
    rw [htable, Table.lookup_addQualified hw, Table.seen, if_pos rfl]
  -- reading depends on what the current scope knew the name as
  have hread : read = (((t.lookupCurrent head.name).bind fun a =>
      (t.symbol a).readError? head.name).map fun cause => ⟨cause, n.span.start⟩).elim
        (.ok type) .error := by
    refine (type_checkExpr_var hn hlookup hint).trans ?_
    rw [htable, readError?_addQualified hw, Table.type_addQualified hw, if_pos rfl]
  refine ⟨head', init', type, hans, hname, htype, hwritten, ?_, ?_⟩
  · rw [hread]
    cases ha : t.lookupCurrent head.name with
    | none => simp
    | some a =>
      rw [Option.bind_some, Symbol.readError?]
      by_cases hs : (t.symbol a).isNamespace = true
      · simp [hs]
      · by_cases hp : (t.symbol a).isPending = true <;> simp [hs, hp]
  · intro a ha
    rw [hread, ha, Option.bind_some, Symbol.readError?]
    exact ⟨fun hs => by simp [hs], fun hs hp => by simp [hs, hp]⟩

namespace Sample

/-- `h!;` -/
def await (h : String) : Stmt := .expression span (.sync (.at span) (var h) false)

/-- The variable of `var x: bool = true;` -/
def flagHead (x : String) : VariableHead := ⟨x, some .bool, .default, none⟩

/-- The value of `var x: bool = true;` -/
def flagInit : Expr := .literal (.at span) (.bool true)

/-- `var x: bool = true;` -/
def flag (x : String) : Stmt := .declare span (flagHead x) (some flagInit)

/-- `import "m" as x;`, where the module declares one function. -/
def space (x : String) : Stmt := .importModule span "m" (some x) [sum]

/-- What reading the variable `x` gives right after `var x: bool = true;`. -/
def readFlag (s : Checker) (x : String) : Except Diagnostic Ty :=
  ((checkExpr none (var x)).answer ((checkStmt .void (flag x)).after s)).type

end Sample

/-- The name of a handle whose thread has been waited for is declared again, with another type. -/
theorem checkExpr_var_after_declare_awaited :
    let s := Sample.after [Sample.sum, Sample.data, Sample.start "h", Sample.await "h"]
    Reachable [] s ∧ ((checkStmt .void (Sample.flag "h")).after s).errors = s.errors ∧
      s.table.lookupCurrent "h" = some 4 ∧ (s.table.symbol 4).isSynchronized ∧
      Sample.readFlag s "h" = .ok .bool := by
  intro s
  have hreach : Reachable [] s := Sample.reachable_after _
  have he : ((checkStmt .void (Sample.flag "h")).after s).errors = s.errors := by decide +kernel
  obtain ⟨head', init', type, -, -, -, hwritten, hread, -⟩ := checkExpr_var_after_declare hreach
    .void Sample.span (Sample.flagHead "h") (some Sample.flagInit) none (.at Sample.span) rfl rfl he
  obtain rfl := hwritten .bool rfl
  have hcurrent :
      let t := (s.afterInit (Sample.flagHead "h") (some Sample.flagInit)).table
      t.lookupCurrent "h" = some 4 ∧ (t.symbol 4).isNamespace = false ∧
        (t.symbol 4).isPending = false := by decide +kernel
  refine ⟨hreach, he, by decide +kernel, by decide +kernel, hread.2 fun a ha => ?_⟩
  obtain rfl := Option.some.inj (hcurrent.1.symm.trans ha)
  exact hcurrent.2

/-- The name of a handle whose thread may still run, and the name of a namespace: both declarations
are accepted, and neither variable can be read. -/
theorem declared_unreadable :
    let s := Sample.after [Sample.sum, Sample.data, Sample.start "h"]
    let s' := Sample.after [Sample.space "h"]
    Reachable [] s ∧ ((checkStmt .void (Sample.flag "h")).after s).errors = s.errors ∧
      Sample.readFlag s "h" = .error ⟨.pendingHandleUse "h", Sample.span.start⟩ ∧
      Reachable [] s' ∧ ((checkStmt .void (Sample.flag "h")).after s').errors = s'.errors ∧
      Sample.readFlag s' "h" = .error ⟨.undefinedVariable "h" none, Sample.span.start⟩ := by
  intro s s'
  exact ⟨Sample.reachable_after _, by decide +kernel, by decide +kernel, Sample.reachable_after _,
    by decide +kernel, by decide +kernel⟩

end ThreadRegions
