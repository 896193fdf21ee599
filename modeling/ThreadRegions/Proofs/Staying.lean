import ThreadRegions.Proofs.Visit

/-!
# Actions that stay where they are

Most of what the rules do has to do with the symbol table and the errors only.  The lambdas and the
imported modules around are the same before and after.

## Main Definitions

* `CheckM.Stays`: an action has nothing to do with the lambdas and the imported modules around

## Main Results

* one lemma for each action that all rules share
-/

namespace ThreadRegions

open CheckM

/-- The action has nothing to do with the lambdas and the imported modules around. -/
def CheckM.Stays {α : Type} (m : CheckM α) : Prop :=
  ∀ s, (m.after s).frames = s.frames ∧ (m.after s).importDepth = s.importDepth

namespace CheckM.Stays

variable {α β : Type} {m : CheckM α}

theorem frames (h : m.Stays) (s : Checker) : (m.after s).frames = s.frames := (h s).1

theorem importDepth (h : m.Stays) (s : Checker) : (m.after s).importDepth = s.importDepth := (h s).2

theorem pure (a : α) : Stays (Pure.pure a : CheckM α) := fun _ => ⟨rfl, rfl⟩

theorem bind {f : α → CheckM β} (h : Stays m) (hf : ∀ a, Stays (f a)) :
    Stays (m >>= f) := by
  intro s
  obtain ⟨hframes, hdepth⟩ := h s
  obtain ⟨hframes', hdepth'⟩ := hf (m.answer s) (m.after s)
  exact ⟨hframes'.trans hframes, hdepth'.trans hdepth⟩

theorem get : Stays (MonadState.get : CheckM Checker) := fun _ => ⟨rfl, rfl⟩

theorem table : Stays CheckM.table := fun _ => ⟨rfl, rfl⟩

/-- The symbol table is kept apart from the lambdas. -/
theorem onLedger (f : Ledger → Ledger) : Stays (CheckM.onLedger f) := fun _ => ⟨rfl, rfl⟩

theorem askLedger (f : Ledger → Ledger × α) : Stays (CheckM.askLedger f) := fun _ => ⟨rfl, rfl⟩

theorem note (level : Level) (text : String) : Stays (CheckM.note level text) := fun _ => ⟨rfl, rfl⟩

theorem report (d : Diagnostic) : Stays (CheckM.report d) := fun _ => ⟨rfl, rfl⟩

theorem reportAny (d : Option Diagnostic) : Stays (CheckM.reportAny d) := by
  cases d with
  | none => exact pure _
  | some d => exact report d

/-- Regions are counted in the symbol table. -/
theorem enterRegionIf (enabled : Bool) : Stays (CheckM.enterRegionIf enabled) := by
  cases enabled with
  | false => exact pure _
  | true => exact onLedger _

theorem exitRegionIf (enabled : Bool) : Stays (CheckM.exitRegionIf enabled) := by
  cases enabled with
  | false => exact pure _
  | true => exact onLedger _

/-! ### Declarations -/

/-- A warning may be noted along with the answer. -/
theorem varQualifier (q : Qualifier) (t : Ty) (position : Position) :
    Stays (CheckM.varQualifier q t position) := by
  unfold CheckM.varQualifier
  split
  · exact (note _ _).bind fun _ => pure _
  · exact pure _

theorem paramQualifier (q : Qualifier) (t : Ty) (position : Position) :
    Stays (CheckM.paramQualifier q t position) := by
  unfold CheckM.paramQualifier
  split
  · exact (note _ _).bind fun _ => pure _
  · exact pure _

/-- All that is known of a thread when it is started is kept in the symbol table: the state of its
handle and the variables that it has frozen. -/
theorem recordSpawn (handle : SymbolId) (init : Expr) (position : Position) :
    Stays (CheckM.recordSpawn handle init position) := by
  unfold CheckM.recordSpawn
  split
  -- only a started thread leaves a record
  · refine table.bind fun t => ?_
    split
    · exact table.bind fun _ => (onLedger _).bind fun _ => pure _
    · exact (onLedger _).bind fun _ => get.bind fun _ => (onLedger _).bind fun _ =>
        table.bind fun _ => (note _ _).bind fun _ => (onLedger _).bind fun _ => pure _
  · exact pure _

theorem declareTyped (span : Span) (head : VariableHead) (type : Ty) :
    Stays (ThreadRegions.declareTyped span head type) :=
  (varQualifier _ _ _).bind fun d => (reportAny d).bind fun _ => table.bind fun _ =>
    (askLedger _).bind fun _ => (note _ _).bind fun _ => pure _

/-- Without an annotation the type is that of the initial value, and its absence is reported. -/
theorem inferType (span : Span) (head : VariableHead) (init : Option Expr) :
    Stays (ThreadRegions.inferType span head init) := by
  unfold ThreadRegions.inferType
  split
  · exact pure _
  · exact pure _
  · exact (report _).bind fun _ => pure _

/-- An initial value of another type is reported, and the declaration stands. -/
theorem reportMismatch (span : Span) (type : Ty) (init : Option Expr) :
    Stays (ThreadRegions.reportMismatch span type init) := by
  unfold ThreadRegions.reportMismatch
  split
  · exact report _
  · exact pure _

theorem recordInit (span : Span) (id : SymbolId) (init : Option Expr) :
    Stays (ThreadRegions.recordInit span id init) := by
  cases init with
  | none => exact pure _
  | some e => exact (recordSpawn id e span.start).bind reportAny

/-- What remains to be done for a declaration when its initial value has been checked. -/
theorem finishDeclare (span : Span) (head : VariableHead) (init : Option Expr) :
    Stays (ThreadRegions.finishDeclare span head init) := by
  unfold ThreadRegions.finishDeclare
  split
  -- a thread without a result cannot be bound to a variable
  · exact (report _).bind fun _ => pure _
  · exact (inferType _ _ _).bind fun type => (declareTyped span head type).bind fun id =>
      (reportMismatch _ _ _).bind fun _ => (recordInit span id _).bind fun _ => pure _

theorem declareParams (params : List (Param × Ty)) :
    Stays (CheckM.declareParams params) := by
  induction params with
  | nil => exact pure _
  | cons p others ih => exact (askLedger _).bind fun _ => ih.bind fun _ => pure _

/-- The parameters of a function, each with the check of its qualifier. -/
theorem declareCheckedParams (params : List Param) :
    Stays (CheckM.declareCheckedParams params) := by
  induction params with
  | nil => exact pure _
  | cons p others ih =>
    exact (paramQualifier _ _ _).bind fun d => (reportAny d).bind fun _ =>
      (askLedger _).bind fun _ => ih.bind fun _ => pure _

/-- The walk through the parameters of a lambda ends at the first one that has no type or a
qualifier that does not fit. -/
theorem lambdaParamTypes (start : Position) (params : List Param) :
    Stays (ThreadRegions.lambdaParamTypes start params) := by
  induction params with
  | nil => exact pure _
  | cons p others ih =>
    unfold ThreadRegions.lambdaParamTypes
    split
    · exact pure _
    · refine (paramQualifier _ _ _).bind fun d => ?_
      split
      · exact pure _
      · exact ih.bind fun _ => pure _

/-- Parameters without a type, and what else is wrong with the head of a function. -/
theorem reportHead (span : Span) (head : FunctionHead) :
    Stays (ThreadRegions.reportHead span head) := by
  have huntyped : ∀ params, Stays (reportUntyped params) := by
    intro params
    induction params with
    | nil => exact pure _
    | cons p others ih =>
      unfold reportUntyped
      split
      · exact (report _).bind fun _ => ih
      · exact ih
  exact (huntyped head.params).bind fun _ => reportAny _

theorem declareFunction (head : FunctionHead) : Stays (ThreadRegions.declareFunction head) :=
  (askLedger _).bind fun _ => (note _ _).bind fun _ => pure _

/-- The region is entered before the scope, and the parameters are in the scope. -/
theorem enterFunction (head : FunctionHead) : Stays (ThreadRegions.enterFunction head) :=
  (enterRegionIf _).bind fun _ => (onLedger _).bind fun _ => (declareCheckedParams _).bind fun _ =>
    onLedger _

/-- Of the statements of a module with a namespace, the functions are declared in advance. -/
theorem registerFunctions (space : String) (statements : List Stmt) :
    Stays (ThreadRegions.registerFunctions space statements) := by
  induction statements with
  | nil => exact pure _
  | cons st others ih =>
    cases st with
    | function span head body => exact (askLedger _).bind fun _ => ih
    | _ => exact ih

/-! ### Threads -/

/-- Waiting for a thread lets go of the variables that it looks at. -/
theorem syncPending (id : SymbolId) (name : String) :
    Stays (CheckM.syncPending id name) := by
  unfold CheckM.syncPending
  refine table.bind fun t => ?_
  split
  · refine (askLedger _).bind fun r => ?_
    split
    · exact pure _
    · exact onLedger _
  · exact pure _

theorem syncHandles (handles : List (Expr × SymbolId)) :
    Stays (CheckM.syncHandles handles) := by
  induction handles with
  | nil => exact pure _
  | cons first others ih =>
    exact (syncPending first.2 _).bind fun _ => table.bind fun _ => ih.bind fun _ => pure _

end CheckM.Stays

end ThreadRegions
