import ThreadRegions.Check.Walk

/-!
# What an action does to the checker

The walk is written in a state monad.  Here an action is taken apart into the state it leaves behind
and the answer it gives, so that the proofs can speak of states.

## Main Definitions

* `CheckM.after`, `CheckM.answer`: the two halves of a run
* `Checker.onLedger`: a change of the ledger, seen from outside

## Design Notes

Both halves of a bind are equations that hold by definition, and `simp` pushes them through the
actions that all rules share.  The walk itself is never unfolded by `simp`; a proof that needs one
of its equations rewrites with it.
-/

namespace ThreadRegions

/-! ### The table of a ledger -/

namespace Ledger

variable (l : Ledger)

@[simp] theorem table_pushScope : l.pushScope.table = l.table.pushScope := rfl

@[simp] theorem table_pushFrame : l.pushFrame.table = l.table.pushFrame := rfl

@[simp] theorem table_alignLocals : l.alignLocals.table = l.table.alignLocals := rfl

@[simp] theorem table_enterRegion : l.enterRegion.table = l.table.enterRegion := rfl

@[simp] theorem table_exitRegion : l.exitRegion.table = l.table.exitRegion := rfl

/-- The global scope is not left, neither in the table nor in the ledger. -/
@[simp] theorem table_popScope : l.popScope.table = l.table.popScope := by
  unfold popScope Table.isGlobal
  split
  · next h => rw [Table.popScope, List.isEmpty_iff.1 h]
  · rfl

@[simp] theorem table_add (name : String) (t : Ty) (kind : SymbolKind) :
    (l.add name t kind).1.table = (l.table.add name t kind).1 := rfl

@[simp] theorem table_addQualified (name : String) (t : Ty) (kind : SymbolKind) (q : Qualifier) :
    (l.addQualified name t kind q).1.table = (l.table.addQualified name t kind q).1 := rfl

@[simp] theorem id_addQualified (name : String) (t : Ty) (kind : SymbolKind) (q : Qualifier) :
    (l.addQualified name t kind q).2 = (l.table.addQualified name t kind q).2 := rfl

@[simp] theorem table_addFunction (name : String) (t : Ty) (modifier declared : Modifier) :
    (l.addFunction name t modifier declared).1.table =
      (l.table.addFunction name t modifier declared).1 := rfl

/-- If the name is not free, the table stays as it is. -/
theorem table_addNamespace (name : String) :
    (l.addNamespace name).1.table = ((l.table.addNamespace name).map Prod.fst).getD l.table := by
  unfold addNamespace
  split <;> next h => simp [h]

/-- A note has nothing to do with the table. -/
@[simp] theorem table_addingMember (before : Table) (space name : String) :
    (l.addingMember before space name).table = l.table := by
  unfold addingMember
  split <;> rfl

/-- If there is no such namespace, the table stays as it is. -/
theorem table_addFunctionToNamespace (space name : String) (t : Ty) (modifier declared : Modifier) :
    (l.addFunctionToNamespace space name t modifier declared).1.table =
      ((l.table.addFunctionToNamespace space name t modifier declared).map Prod.fst).getD
        l.table := by
  unfold addFunctionToNamespace
  split <;> next h => simp [h]

theorem table_foldl_trace (texts : List String) : (texts.foldl trace l).table = l.table := by
  induction texts generalizing l with
  | nil => rfl
  | cons text others ih => exact ih (l.trace text)

end Ledger

/-- The checker with its ledger changed. -/
def Checker.onLedger (s : Checker) (f : Ledger → Ledger) : Checker :=
  { s with toLedger := f s.toLedger }

@[simp] theorem Checker.table_onLedger (s : Checker) (f : Ledger → Ledger) :
    (s.onLedger f).table = (f s.toLedger).table := rfl

namespace CheckM

variable {α β : Type}

/-- The state that an action leaves behind. -/
def after (m : CheckM α) (s : Checker) : Checker := (m.run s).2

/-- The answer that an action gives. -/
def answer (m : CheckM α) (s : Checker) : α := (m.run s).1

section

variable (m : CheckM α) (a : α) (s : Checker)

@[simp] theorem after_pure : (pure a : CheckM α).after s = s := (rfl)

@[simp] theorem answer_pure : (pure a : CheckM α).answer s = a := (rfl)

/-- The second action begins in the state that the first one leaves behind. -/
@[simp] theorem after_bind (f : α → CheckM β) :
    (m >>= f).after s = (f (m.answer s)).after (m.after s) := (rfl)

/-- Its answer is that of both. -/
@[simp] theorem answer_bind (f : α → CheckM β) :
    (m >>= f).answer s = (f (m.answer s)).answer (m.after s) := (rfl)

@[simp] theorem after_map (f : α → β) : (f <$> m).after s = m.after s := (rfl)

@[simp] theorem answer_map (f : α → β) : (f <$> m).answer s = f (m.answer s) := (rfl)

/-- A choice that does not look at the state. -/
@[simp] theorem after_ite (c : Prop) [Decidable c] (m' : CheckM α) :
    (if c then m else m').after s = if c then m.after s else m'.after s :=
  apply_ite (fun x : CheckM α => x.after s) c m m'

@[simp] theorem after_get : (get : CheckM Checker).after s = s := (rfl)

@[simp] theorem answer_get : (get : CheckM Checker).answer s = s := (rfl)

@[simp] theorem after_modify (f : Checker → Checker) :
    (modify f : CheckM PUnit).after s = f s := (rfl)

@[simp] theorem after_table : table.after s = s := (rfl)

@[simp] theorem answer_table : table.answer s = s.table := (rfl)

@[simp] theorem after_onLedger (f : Ledger → Ledger) :
    (CheckM.onLedger f).after s = s.onLedger f := (rfl)

/-- A question to the ledger that changes it. -/
@[simp] theorem after_askLedger (f : Ledger → Ledger × α) :
    (askLedger f).after s = s.onLedger fun l => (f l).1 := (rfl)

@[simp] theorem answer_askLedger (f : Ledger → Ledger × α) :
    (askLedger f).answer s = (f s.toLedger).2 := (rfl)

end

/-! ### Actions inside something -/

/-- Enters a region, if `enabled`. -/
def enterRegionIf (enabled : Bool) : CheckM Unit :=
  if enabled then onLedger Ledger.enterRegion else pure ()

/-- Leaves a region, if `enabled`. -/
def exitRegionIf (enabled : Bool) : CheckM Unit :=
  if enabled then onLedger Ledger.exitRegion else pure ()

/-- A scope is entered, something is done there, and the scope is left. -/
@[simp] theorem after_withinScope (action : CheckM α) (s : Checker) :
    (withinScope action).after s =
      (action.after (s.onLedger Ledger.pushScope)).onLedger Ledger.popScope := (rfl)

/-- The same with a frame of its own. -/
@[simp] theorem after_withinFrame (action : CheckM α) (s : Checker) :
    (withinFrame action).after s =
      (action.after (s.onLedger Ledger.pushFrame)).onLedger Ledger.popScope := (rfl)

/-- Entering and leaving a region are actions that do nothing where no region is wanted. -/
@[simp] theorem after_withinRegion (enabled : Bool) (action : CheckM α) (s : Checker) :
    (withinRegion enabled action).after s =
      (exitRegionIf enabled).after (action.after ((enterRegionIf enabled).after s)) := by
  cases enabled <;> rfl

@[simp] theorem answer_withinScope (action : CheckM α) (s : Checker) :
    (withinScope action).answer s = action.answer (s.onLedger Ledger.pushScope) := (rfl)

@[simp] theorem answer_withinFrame (action : CheckM α) (s : Checker) :
    (withinFrame action).answer s = action.answer (s.onLedger Ledger.pushFrame) := (rfl)

/-- What is done on the way out has no influence on the answer. -/
@[simp] theorem answer_withinRegion (enabled : Bool) (action : CheckM α) (s : Checker) :
    (withinRegion enabled action).answer s = action.answer ((enterRegionIf enabled).after s) := by
  cases enabled <;> rfl

/-! ### Names -/

/-- Captures are noted down in the lambdas, not in the table. -/
@[simp] theorem toLedger_captured (s : Checker) (id : SymbolId) :
    (s.captured id).toLedger = s.toLedger := by
  simp only [Checker.captured]
  split <;> rfl

/-- A name that is not there changes nothing. -/
theorem after_resolve_none {name : String} {s : Checker} (h : s.table.lookup name = none) :
    (resolve name).after s = s ∧ (resolve name).answer s = none := by
  simp [resolve, h]

/-- A name that is there is noted down in the lambdas that capture it. -/
theorem after_resolve_some {name : String} {s : Checker} {id : SymbolId}
    (h : s.table.lookup name = some id) :
    (resolve name).after s = s.captured id ∧ (resolve name).answer s = some id := by
  simp [resolve, h]

/-! ### The table after an action -/

section

variable (s : Checker)

/-- Notes and errors have nothing to do with the table. -/
@[simp] theorem table_note (level : Level) (text : String) :
    ((note level text).after s).table = s.table := rfl

@[simp] theorem table_report (d : Diagnostic) : ((report d).after s).table = s.table := rfl

/-- The same where there may be no error. -/
@[simp] theorem table_reportAny (d : Option Diagnostic) :
    ((reportAny d).after s).table = s.table := by
  cases d <;> rfl

/-- A qualifier is checked by its type alone. -/
@[simp] theorem table_varQualifier (q : Qualifier) (t : Ty) (position : Position) :
    ((varQualifier q t position).after s).table = s.table := by
  unfold varQualifier
  by_cases hq : isIdleCopy q t <;> simp [hq]

@[simp] theorem table_paramQualifier (q : Qualifier) (t : Ty) (position : Position) :
    ((paramQualifier q t position).after s).table = s.table := by
  unfold paramQualifier
  by_cases hq : isIdleCopy q t <;> simp [hq]

/-- A type that cannot be inferred is an error and nothing else. -/
@[simp] theorem table_inferType (span : Span) (head : VariableHead) (init : Option Expr) :
    ((inferType span head init).after s).table = s.table := by
  unfold inferType
  split <;> simp

@[simp] theorem table_reportMismatch (span : Span) (t : Ty) (init : Option Expr) :
    ((reportMismatch span t init).after s).table = s.table := by
  simp only [reportMismatch, after_ite]
  split <;> simp

/-- Only a thread that may still run is waited for. -/
theorem table_syncPending_of_not_pending {id : SymbolId} (hp : ¬ (s.table.symbol id).isPending)
    (name : String) : ((syncPending id name).after s).table = s.table := by
  simp [syncPending, hp]

/-- What waiting does to the table.  If the name leads to another symbol, which cannot be waited
for, nothing is done. -/
theorem table_syncPending_of_pending {id : SymbolId} (hp : (s.table.symbol id).isPending)
    (name : String) :
    ((syncPending id name).after s).table =
      ((s.table.syncVariable name).toOption.map Prod.fst).getD s.table := by
  simp only [syncPending, after_bind, answer_table, after_table, hp, if_true]
  cases hv : s.table.syncVariable name with
  | error e => simp [Ledger.syncVariable, hv, Except.toOption]
  | ok r => simp [Ledger.syncVariable, hv, Except.toOption, Ledger.table_foldl_trace]

theorem table_syncPending (id : SymbolId) (name : String) :
    ((syncPending id name).after s).table = s.table ∨
      ∃ t' a, s.table.syncVariable name = .ok (t', a) ∧
        ((syncPending id name).after s).table = t' := by
  by_cases hp : (s.table.symbol id).isPending
  · rw [table_syncPending_of_pending s hp]
    cases s.table.syncVariable name with
    | error e => exact .inl rfl
    | ok r => exact .inr ⟨r.1, r.2, rfl, rfl⟩
  · exact .inl (table_syncPending_of_not_pending s hp name)

/-- Declaring a variable is adding it to the table. -/
theorem declareTyped_eq (span : Span) (head : VariableHead) (t : Ty) :
    (((declareTyped span head t).after s).table, (declareTyped span head t).answer s) =
      s.table.addQualified head.name t s.table.declarationKind head.qualifier := by
  simp [declareTyped]

end

end CheckM

end ThreadRegions
