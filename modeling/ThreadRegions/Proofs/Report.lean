import ThreadRegions.Proofs.Compose

/-!
# What the checker never takes back

An error that has been reported stays reported, and the symbols that are there from the beginning
stay the same ones.  So a visit that leaves the list of errors as it was has reported nothing at any
of its points.

## Main Definitions

* `Checker.Reports`: one checker comes later in a run than another

## Main Results

* `reports_visit`: errors are only added
* `Checker.Reports.silent`: what reports nothing in all reports nothing on the way
-/

namespace ThreadRegions

open CheckM

/-- The errors of the first checker are the first errors of the second, and the builtin symbols are
the same. -/
structure Checker.Reports (s s' : Checker) : Prop where
  errors : s.errors <+: s'.errors
  builtins : s'.builtins = s.builtins

namespace Checker.Reports

variable {s s₁ s₂ : Checker}

/-- Most steps report nothing. -/
theorem of_eq (he : s₁.errors = s.errors) (hb : s₁.builtins = s.builtins) : s.Reports s₁ :=
  ⟨he ▸ List.prefix_rfl, hb⟩

theorem refl (s : Checker) : s.Reports s := .of_eq rfl rfl

theorem trans (h : s.Reports s₁) (h' : s₁.Reports s₂) : s.Reports s₂ :=
  ⟨h.errors.trans h'.errors, h'.builtins.trans h.builtins⟩

/-- Errors are not kept in the ledger. -/
theorem onLedger (f : Ledger → Ledger) : s.Reports (s.onLedger f) := .of_eq rfl rfl

theorem report (d : Diagnostic) : s.Reports ((report d).after s) :=
  ⟨List.prefix_append s.errors [d], rfl⟩

theorem reportAny (d : Option Diagnostic) : s.Reports ((reportAny d).after s) := by
  cases d with
  | none => exact refl s
  | some d => exact report d

/-- Captures are noted at the lambda, if there is one around. -/
theorem captured (id : SymbolId) : s.Reports (s.captured id) := by
  simp only [Checker.captured]
  split
  · exact refl s
  · exact .of_eq rfl rfl

/-- A thread that cannot be recorded is answered with an error, and the error is not reported here.
-/
theorem recordSpawn (id : SymbolId) (e : Expr) (position : Position) :
    s.Reports ((recordSpawn id e position).after s) := by
  unfold CheckM.recordSpawn
  split
  · simp only [after_bind, answer_table, after_table]
    split
    · exact .of_eq rfl rfl
    · exact .of_eq rfl rfl
  · exact refl s

/-- The parameters of a lambda are declared without being looked at. -/
theorem declareParams (params : List (Param × Ty)) :
    s.Reports ((declareParams params).after s) := by
  induction params generalizing s with
  | nil => exact refl s
  | cons p others ih =>
    obtain ⟨p, t⟩ := p
    rw [CheckM.declareParams, after_bind, after_askLedger, after_bind, after_pure]
    exact (onLedger _).trans ih

theorem paramQualifier (q : Qualifier) (t : Ty) (position : Position) :
    s.Reports ((paramQualifier q t position).after s) := by
  unfold CheckM.paramQualifier
  by_cases hq : isIdleCopy q t
  · simp only [hq, if_true]
    exact .of_eq rfl rfl
  · simp only [hq]
    exact .of_eq rfl rfl

/-- The parameters of a function may be reported one by one. -/
theorem declareCheckedParams (params : List Param) :
    s.Reports ((declareCheckedParams params).after s) := by
  induction params generalizing s with
  | nil => exact refl s
  | cons p others ih =>
    have hq := paramQualifier (s := s) p.qualifier (p.type.getD .nil) p.span.start
    simp only [CheckM.declareCheckedParams, after_bind, after_askLedger, after_pure]
    exact (hq.trans (reportAny _)).trans ((onLedger _).trans ih)

theorem pushLambda : s.Reports (pushLambda.after s) := .of_eq rfl rfl

/-- The captures of the lambda are given back, and errors stay where they are. -/
theorem popLambda : s.Reports (popLambda.after s) := by
  cases hf : s.frames with
  | nil => exact .of_eq (by simp [CheckM.popLambda, hf]) (by simp [CheckM.popLambda, hf])
  | cons frame frames =>
    exact .of_eq (by simp [CheckM.popLambda, hf]) (by simp [CheckM.popLambda, hf])

/-- A thread is waited for, or there is none. -/
theorem syncPending (id : SymbolId) (name : String) :
    s.Reports ((syncPending id name).after s) := by
  simp only [CheckM.syncPending, after_bind, answer_table, after_table, after_ite]
  split
  · split
    · exact .of_eq rfl rfl
    · exact .of_eq rfl rfl
  · exact refl s

/-- Nothing that the walk does takes back an error. -/
theorem stable : Stable Reports Reports where
  refl := refl
  trans := trans
  ofExpr h := h
  stmtTrans := trans
  note _ _ _ := .of_eq rfl rfl
  captured _ id := captured id
  report _ d := report d
  declare _ _ _ _ _ := onLedger _
  spawn _ _ id e position _ := recordSpawn id e position
  function _ _ _ _ _ _ := onLedger _
  space _ _ _ _ := onLedger _
  member _ _ _ _ _ _ _ := onLedger _
  scope _ _ _ h := (onLedger _).trans (h.trans (onLedger _))
  round _ _ _ _ _ h := ((onLedger _).trans (onLedger _)).trans (h.trans (onLedger _))
  lambdaFrame _ _ params _ h :=
    (((onLedger _).trans (declareParams params)).trans (onLedger _)).trans (h.trans (onLedger _))
  functionFrame _ _ params _ h :=
    (((onLedger _).trans (declareCheckedParams params)).trans (onLedger _)).trans
      (h.trans (onLedger _))
  region _ _ h := (onLedger _).trans (h.trans (onLedger _))
  stmtRegion _ _ h := (onLedger _).trans (h.trans (onLedger _))
  lambda _ _ h := pushLambda.trans (h.trans popLambda)
  module _ _ h := ⟨h.errors, h.builtins⟩

/-- If nothing has been reported in all, nothing has been reported on the way. -/
theorem silent (h : s.Reports s₁) (h' : s₁.Reports s₂) (hs : s₂.errors = s.errors) :
    s₁.errors = s.errors ∧ s₂.errors = s₁.errors := by
  -- the errors in the middle lie between two lists that are the same
  have heq : s₁.errors = s.errors :=
    (h.errors.eq_of_length (Nat.le_antisymm h.errors.length_le (hs ▸ h'.errors.length_le))).symm
  exact ⟨heq, hs.trans heq.symm⟩

/-- Where something has been reported, the walk is not silent. -/
theorem not_silent {d : Diagnostic} (h : ((CheckM.report d).after s).Reports s₁) :
    s₁.errors ≠ s.errors := by
  intro hs
  have hle : (s.errors ++ [d]).length ≤ s₁.errors.length := h.errors.length_le
  rw [hs, List.length_append] at hle
  exact Nat.not_succ_le_self _ hle

/-- A walk that ends with a report is not silent. -/
theorem report_ne (h : s.Reports s₁) (d : Diagnostic) :
    ((CheckM.report d).after s₁).errors ≠ s.errors := by
  intro hs
  exact (refl _).not_silent (h.silent (report d) hs).2

/-! ### Entering something -/

theorem enterRegionIf (enabled : Bool) : s.Reports ((enterRegionIf enabled).after s) := by
  cases enabled <;> exact .of_eq rfl rfl

theorem exitRegionIf (enabled : Bool) : s.Reports ((exitRegionIf enabled).after s) := by
  cases enabled <;> exact .of_eq rfl rfl

theorem enterLambda (head : LambdaHead) (types : List Ty) :
    s.Reports ((enterLambda head types).after s) :=
  (pushLambda.trans (enterRegionIf _)).trans
    ((onLedger _).trans ((declareParams _).trans (onLedger _)))

theorem enterFunction (head : FunctionHead) : s.Reports ((enterFunction head).after s) :=
  (enterRegionIf _).trans ((onLedger _).trans ((declareCheckedParams _).trans (onLedger _)))

theorem enterBlock (modifier : Modifier) : s.Reports ((enterBlock modifier).after s) :=
  (enterRegionIf _).trans (onLedger _)

theorem enterRound (name : String) (element : Ty) (shared : Bool) :
    s.Reports ((enterRound name element shared).after s) := by
  have hadd : s.Reports ((s.onLedger Ledger.pushScope).onLedger
      fun l => (l.add name element .param).1) := (onLedger _).trans (onLedger _)
  exact hadd.trans (enterRegionIf (!shared))

/-- A module is entered by registering its functions, which reports nothing. -/
theorem enterModule (module space : String) (statements : List Stmt) :
    s.Reports ((enterModule module space statements).after ((addSpace space).after s)) := by
  have hspace : s.Reports ((addSpace space).after s) := onLedger fun l => (l.addNamespace space).1
  exact hspace.trans ((stable.registerFunctions space statements).trans (.of_eq rfl rfl))

end Checker.Reports

/-- Errors are only added. -/
theorem reports_visit (s : Checker) (v : Visit) : s.Reports (v.after s) :=
  Checker.Reports.stable.visitAfter (fun _ id name => .syncPending id name) s v

theorem reports_checkExpr (s : Checker) (hint : Option Ty) (e : Expr) :
    s.Reports ((checkExpr hint e).after s) := reports_visit s (.expr hint e)

theorem reports_checkStmt (s : Checker) (ret : Ty) (st : Stmt) :
    s.Reports ((checkStmt ret st).after s) := reports_visit s (.stmt ret st)

theorem reports_checkStmts (s : Checker) (ret : Ty) (sts : List Stmt) :
    s.Reports ((checkStmts ret sts).after s) := reports_visit s (.stmts ret sts)

namespace Checker.Reports

variable {s : Checker}

/-- A thread in the initial value that cannot be recorded is reported. -/
theorem recordInit (span : Span) (id : SymbolId) (init : Option Expr) :
    s.Reports ((recordInit span id init).after s) := by
  cases init with
  | none => exact refl s
  | some e => exact (recordSpawn id e span.start).trans (reportAny _)

theorem loopInit (ret : Ty) (init : Option Stmt) : s.Reports ((loopInit ret init).after s) := by
  cases init with
  | none => exact refl s
  | some st => exact reports_checkStmt s ret st

theorem loopCondition (condition : Option Expr) :
    s.Reports ((loopCondition condition).after s) := by
  cases condition with
  | none => exact refl s
  | some e => exact (reports_checkExpr s none e).trans (stable.checkCondition "For" _)

theorem loopStep (step : Option Expr) : s.Reports ((loopStep step).after s) := by
  cases step with
  | none => exact refl s
  | some e => exact (reports_checkExpr s none e).trans (stable.reportOutcome _)

end Checker.Reports

/-! ### Inside of a visit -/

/-- Nothing is taken back on the way to a point inside. -/
theorem Leads.reports {s s' : Checker} (h : Leads s s') : s.Reports s' := by
  have steps := Checker.Reports.stable
  induction h with
  | refl => exact .refl s
  | visit v _ ih => exact ih.trans (reports_visit _ v)
  | note level text _ ih => exact ih.trans (steps.note _ level text)
  | captured id _ ih => exact ih.trans (.captured id)
  | report d _ ih => exact ih.trans (.report d)
  | spawn id e position _ _ ih => exact ih.trans (.recordSpawn id e position)
  -- these change the ledger only
  | declare | function | space | member | scope | region =>
    rename_i ih
    exact ih.trans (.onLedger _)
  | round _ _ _ ih => exact ih.trans ((Checker.Reports.onLedger _).trans (.onLedger _))
  | module _ ih => exact ih.trans (.of_eq rfl rfl)

theorem Entry.reports {s : Checker} {q : Part} (h : Entry s q) : s.Reports q.state := by
  cases h with
  | within _ hl => exact hl.reports
  | lambda head types hl => exact hl.reports.trans (.enterLambda head types)
  | function head hl => exact hl.reports.trans (.enterFunction head)

end ThreadRegions
