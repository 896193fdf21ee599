import ThreadRegions.Proofs.AcceptExpr

/-!
# Accepted programs

A statement has no answer that tells of errors: they are reported on the way.  Since nothing that
has been reported is taken back, a program is accepted exactly if none of its parts reports
anything, and then each of them follows one of the rules.  So what is true of accepted programs is
proved by going through the rules, without looking at the walk again.

## Main Definitions

* `Module.start`: the point at which the check of a module begins

## Main Results

* `Gives.rule`: a visit of a fresh tree without an error follows one of the rules
* `Gives.induct`: induction over accepted programs
* `gives_of_accepted`: a module that is accepted is checked without an error
-/

namespace ThreadRegions

open CheckM

/-! ### Statements -/

theorem Gives.body {s s' : Checker} {start : Position} {ret : Ty} {b : Body} {r : Reply}
    (h : Gives s (.body start ret b) r s') :
    ∃ b', r = .body b' ∧ (checkBody start ret b).answer s = (b', none) := by
  have hr := h.reply
  simp only [Visit.reply?] at hr
  split at hr
  · next hnone =>
    cases hr
    exact ⟨_, rfl, Prod.ext rfl (by simpa using hnone)⟩
  · cases hr

/-- Statements always have an answer, so silence is all that is needed. -/
theorem gives_stmts {s s' : Checker} {ret : Ty} {sts : List Stmt}
    (h : (checkStmts ret sts).after s = s') (hs : s'.errors = s.errors) :
    Gives s (.stmts ret sts) (.stmts ((checkStmts ret sts).answer s)) s' := ⟨rfl, h, hs⟩

/-- The same for one statement. -/
theorem gives_stmt {s s' : Checker} {ret : Ty} {st : Stmt}
    (h : (checkStmt ret st).after s = s') (hs : s'.errors = s.errors) :
    Gives s (.stmt ret st) (.stmt ((checkStmt ret st).answer s)) s' := ⟨rfl, h, hs⟩

/-- The body of a lambda without an error follows its rule.  An expression has the type that is
returned, and a block has no type. -/
theorem follows_body {s s' : Checker} {start : Position} {ret : Ty} {b : Body} {r : Reply}
    (hf : b.Fresh) (h : Gives s (.body start ret b) r s') : Follows s (.body start ret b) r s' := by
  obtain ⟨b', rfl, hans⟩ := h.body
  obtain ⟨-, hafter, hs⟩ := h
  simp only [Visit.after] at hafter
  cases b with
  | expr value =>
    rw [checkBody] at hans hafter
    simp only [answer_bind, answer_pure, after_bind, after_pure, checkBodyType] at hans hafter
    -- an error in the value would be answered by the body
    cases ho : ((checkExpr none value).answer s).type with
    | error d =>
      rw [ho] at hans
      cases hans
    | ok t =>
      simp only [ho, Prod.mk.injEq] at hans
      obtain ⟨rfl, hagrees⟩ := hans
      have hsucc : Succeeds (checkExpr none value) s ((checkExpr none value).answer s).expr t s' :=
        ⟨by rw [← ho], hafter⟩
      refine .of_children (Point.children_eq _) fun Q hQ => ?_
      exact .exprBody (hQ (by simp [Point.parts]) hf (hsucc.gives hs)) (by simpa using hagrees)
  | block statements =>
    rw [checkBody] at hans hafter
    cases hans
    refine .of_children (Point.children_eq _) fun Q hQ => ?_
    exact .blockBody (hQ (by simp [Point.parts]) hf (gives_stmts hafter hs))

/-- What is wrong with a value is reported, and the value is kept. -/
@[simp] theorem answer_reportOutcome (o : Outcome) (s : Checker) :
    (reportOutcome o).answer s = o.expr := by
  unfold reportOutcome
  split <;> rfl

/-- What is wrong with a condition is reported, and the condition is kept. -/
@[simp] theorem answer_checkCondition (construct : String) (o : Outcome) (s : Checker) :
    (checkCondition construct o).answer s = o.expr := by
  unfold checkCondition
  split
  · rfl
  · dsimp only
    split <;> rfl

/-- The type of a value whose error would have been reported. -/
theorem silent_reportOutcome {o : Outcome} {s : Checker}
    (hs : ((reportOutcome o).after s).errors = s.errors) :
    ∃ t, o = ⟨o.expr, .ok t⟩ ∧ (reportOutcome o).after s = s := by
  unfold reportOutcome at hs ⊢
  split at hs
  · exact absurd hs (Checker.Reports.refl _).not_silent
  · next t ht => exact ⟨t, by rw [← ht], rfl⟩

/-- The type of a condition whose error would have been reported. -/
theorem silent_checkCondition {construct : String} {o : Outcome} {s : Checker}
    (hs : ((checkCondition construct o).after s).errors = s.errors) :
    ∃ t, o = ⟨o.expr, .ok t⟩ ∧ t.agrees .bool = true ∧
      (checkCondition construct o).after s = s := by
  unfold checkCondition at hs ⊢
  split at hs
  · exact absurd hs (Checker.Reports.refl _).not_silent
  · next t ht =>
    simp only [after_bind, after_ite, after_pure] at hs ⊢
    split at hs
    · exact absurd hs (Checker.Reports.refl _).not_silent
    · next hbool => exact ⟨t, by rw [← ht], by simpa using hbool, if_neg hbool⟩

/-- An expression for which only the errors count. -/
theorem gives_reportOutcome {e : Expr} {s : Checker}
    (hs : ((reportOutcome ((checkExpr none e).answer s)).after
      ((checkExpr none e).after s)).errors = s.errors) :
    ∃ t, Gives s (.expr none e) (.expr ((checkExpr none e).answer s).expr t)
      ((reportOutcome ((checkExpr none e).answer s)).after ((checkExpr none e).after s)) := by
  have hvisit := reports_checkExpr s none e
  obtain ⟨h₁, h₂⟩ := hvisit.silent (Checker.Reports.stable.reportOutcome _) hs
  obtain ⟨t, ho, ha⟩ := silent_reportOutcome h₂
  rw [ha]
  exact ⟨t, Succeeds.gives ⟨ho, rfl⟩ h₁⟩

theorem gives_checkCondition {construct : String} {e : Expr} {s : Checker}
    (hs : ((checkCondition construct ((checkExpr none e).answer s)).after
      ((checkExpr none e).after s)).errors = s.errors) :
    ∃ t, Gives s (.expr none e) (.expr ((checkExpr none e).answer s).expr t)
        ((checkCondition construct ((checkExpr none e).answer s)).after
          ((checkExpr none e).after s)) ∧
      t.agrees .bool = true := by
  have hvisit := reports_checkExpr s none e
  obtain ⟨h₁, h₂⟩ := hvisit.silent (Checker.Reports.stable.checkCondition construct _) hs
  obtain ⟨t, ho, hbool, ha⟩ := silent_checkCondition h₂
  rw [ha]
  exact ⟨t, Succeeds.gives ⟨ho, rfl⟩ h₁, hbool⟩

/-! ### Declarations -/

/-- A value with the declared element type is the same expression at another type. -/
theorem VariableHead.refine_some (head : VariableHead) {e : Expr} {a : Ty} (he : e.type? = some a) :
    ∃ b, head.refine (some e) = some (e.withType b) := by
  have hsame : e.withType a = e := Expr.withType_of_type? he
  unfold VariableHead.refine
  split
  · rw [Option.map_some, Expr.refineArray]
    split
    · exact ⟨_, rfl⟩
    · split
      · exact ⟨_, rfl⟩
      · exact ⟨a, by rw [hsame]⟩
    · exact ⟨a, by rw [hsame]⟩
  · exact ⟨a, by rw [hsame]⟩

/-- Looking at the value of a variable changes nothing but what is known about threads. -/
theorem sameButThreads_recordInit (s : Checker) (span : Span) (t : Ty) (id : SymbolId)
    (init : Option Expr) :
    s.table.SameButThreads
      ((recordInit span id init).after ((reportMismatch span t init).after s)).table := by
  rw [← table_reportMismatch s span t init]
  generalize (reportMismatch span t init).after s = s₁
  cases init with
  | none => exact .refl _
  | some e =>
    rw [recordInit, after_bind, table_reportAny]
    rcases table_recordSpawn s₁ id e span.start with ht | ⟨bound, frozen, hb, -, -, ht⟩
    · rw [ht]
      exact .refl _
    · rw [ht]
      exact (Table.SameButThreads.bind hb).trans (bound.sameButThreads_looksAt id frozen)

/-- The type of a variable that is either declared or that of its value. -/
theorem silent_inferType {span : Span} {head : VariableHead} {init : Option Expr} {s s' : Checker}
    (h : ((inferType span head init).after s).Reports s') (hs : s'.errors = s.errors) :
    (if (init.bind Expr.type?).isSome && head.type.isNone then
        some ((inferType span head init).answer s)
      else head.type) = some ((inferType span head init).answer s) := by
  unfold inferType at h ⊢
  split at h
  · next t hdeclared => simp [hdeclared]
  · next t hdeclared hinit => simp [hdeclared, hinit]
  · exact absurd hs h.not_silent

/-- A variable whose declaration reports nothing has a type and a symbol. -/
theorem silent_finishDeclare {span : Span} {head : VariableHead} {init : Option Expr} {s : Checker}
    (hs : ((finishDeclare span head init).after s).errors = s.errors) :
    ∃ t, (inferType span head (head.refine init)).answer s = t ∧
      (s.table.addQualified head.name t s.table.declarationKind head.qualifier).1.SameButThreads
        ((finishDeclare span head init).after s).table ∧
      (finishDeclare span head init).answer s = .declare span
        { head with
          type := some t
          symbol := some
            (s.table.addQualified head.name t s.table.declarationKind head.qualifier).2 }
        (head.refine init) := by
  unfold finishDeclare at hs ⊢
  split at hs
  · exact absurd hs (Checker.Reports.refl _).not_silent
  · next hvoid =>
    rw [if_neg hvoid]
    -- what comes after the type has been found takes no report back
    have hreports : ((inferType span head (head.refine init)).after s).Reports
        ((finishDeclare span head init).after s) := by
      rw [finishDeclare, if_neg hvoid]
      exact (Checker.Reports.stable.declareTyped _ _ _).trans
        ((Checker.Reports.stable.reportMismatch _ _ _).trans (.recordInit _ _ _))
    have htype := silent_inferType hreports (by rw [finishDeclare, if_neg hvoid]; exact hs)
    have hdeclare := declareTyped_eq ((inferType span head (head.refine init)).after s) span head
      ((inferType span head (head.refine init)).answer s)
    rw [table_inferType] at hdeclare
    refine ⟨_, rfl, ?_, ?_⟩
    · rw [← hdeclare]
      exact sameButThreads_recordInit _ span _ _ (head.refine init)
    · rw [← hdeclare]
      simp only [answer_bind, answer_pure, htype]

/-- A function whose name does not clash has a symbol, and its parameters have theirs. -/
theorem answer_checkFunction {s : Checker} {span : Span} {head : FunctionHead}
    (hclash : ((reportHead span head).after s).clashes head.name = false) (body : List Stmt)
    (checkBody : CheckM (List Stmt)) :
    (checkFunction span head body checkBody).answer s =
      let s₁ := (declareFunction head).after ((reportHead span head).after s)
      .function span
        { head with
          effective := some (effectiveModifier head.modifier head.ret)
          params := (declareCheckedParams head.params).answer
            (((enterRegionIf (head.modifier = .isolated)).after s₁).onLedger Ledger.pushFrame)
          symbol := some ((declareFunction head).answer ((reportHead span head).after s)) }
        (checkBody.answer ((enterFunction head).after s₁)) := by
  have hclash' : ((((reportHead span head).after s).existing? head.name).any fun id =>
      (((reportHead span head).after s).table.symbol id).isFunction) = false := hclash
  simp only [reportHead, after_bind] at hclash' ⊢
  simp only [checkFunction, answer_bind, answer_get, after_get]
  rw [if_neg (by rw [hclash']; exact Bool.false_ne_true)]
  simp only [answer_bind, answer_pure, answer_withinRegion, answer_withinFrame, declareFunction,
    enterFunction, after_bind, after_pure]
  rfl

namespace Checker.Reports

variable {s : Checker}

/-- Leaving a block adds no error. -/
theorem leaveBlock (modifier : Modifier) : s.Reports ((leaveBlock modifier).after s) :=
  (onLedger _).trans (exitRegionIf _)

/-- Leaving the round of a loop adds no error. -/
theorem leaveRound (shared : Bool) : s.Reports ((leaveRound shared).after s) :=
  (exitRegionIf _).trans (onLedger _)

theorem leaveModule : s.Reports (leaveModule.after s) := .of_eq rfl rfl

end Checker.Reports

/-- Inside of a function its parameters are found. -/
theorem hasParams_enterFunction {s : Checker} (hw : s.table.WellFormed) (head : FunctionHead) :
    ((enterFunction head).after s).table.HasParams head.params
      ((declareCheckedParams head.params).answer
        (((enterRegionIf (head.modifier = .isolated)).after s).onLedger Ledger.pushFrame)) := by
  have hparams := hasParams_declareCheckedParams
    (s := ((enterRegionIf (head.modifier = .isolated)).after s).onLedger Ledger.pushFrame)
    (hw.enterRegionIf _).pushFrame head.params
  exact hparams.alignLocals

/-- A function without an error follows its rule.  The state has to be well-formed for the
parameters to be found in the frame. -/
theorem follows_function {s : Checker} {ret : Ty} {span : Span} {head : FunctionHead}
    {body : List Stmt} (hf : stmtsFresh body) (hw : s.table.WellFormed)
    (hs : ((checkStmt ret (.function span head body)).after s).errors = s.errors) :
    Follows s (.stmt ret (.function span head body))
      (.stmt ((checkStmt ret (.function span head body)).answer s))
      ((checkStmt ret (.function span head body)).after s) := by
  have hc := Point.children_eq ⟨s, .stmt ret (.function span head body)⟩
  have hhead : s.Reports ((reportHead span head).after s) :=
    Checker.Reports.stable.reportHead span head
  have hw₀ := (Table.Lasts.stable.toStable.reportHead span head hw).1
  rw [checkStmt] at hs ⊢
  rw [after_checkFunction] at hs ⊢
  dsimp only at hs ⊢
  simp only [Point.parts, stmtParts] at hc
  -- a name that clashes would be reported
  cases hclash : ((reportHead span head).after s).clashes head.name with
  | true =>
    rw [hclash, if_pos rfl] at hs
    exact absurd hs (hhead.report_ne _)
  | false =>
    rw [answer_checkFunction hclash]
    simp only [hclash, Bool.false_eq_true, if_false] at hs hc ⊢
    have hw₁ := (Table.Lasts.stable.toStable.declareFunction head trivial hw₀).1
    refine .of_children hc fun Q hQ => ?_
    refine .function rfl rfl (hasParams_enterFunction hw₁ head) (hQ (by simp) hf ?_)
    -- the body is silent, since nothing before and after it takes a report back
    have henter := (hhead.trans (Checker.Reports.stable.declareFunction head)).trans
      (.enterFunction head)
    have hbody := reports_visit ((enterFunction head).after ((declareFunction head).after
      ((reportHead span head).after s))) (.stmts head.ret body)
    obtain ⟨-, hs⟩ := henter.silent (hbody.trans (.leaveBlock head.modifier)) hs
    exact gives_stmts rfl (hbody.silent (.leaveBlock head.modifier) hs).1

/-- A name that is not visible is free in the global scope, so the namespace is added. -/
theorem answer_addSpace {s : Checker} {space : String} (h : s.table.lookup space = none) :
    ∃ id, (addSpace space).answer s = some id := by
  have hglobal : s.table.findIn Table.globalId space = none := by
    rw [Table.lookup, List.findSome?_eq_none_iff] at h
    exact h Table.globalId (by simp [Table.open_])
  exact ⟨s.table.symbols.size, by simp [addSpace, Ledger.addNamespace, Table.addNamespace, hglobal]⟩

/-- A module that is brought in under a free name keeps its checked statements. -/
theorem answer_checkImport {s : Checker} {span : Span} {module name : String}
    {statements : List Stmt} {id : SymbolId} (he : namespaceError? s.table name = none)
    (ha : (addSpace name).answer s = some id) (checkBody : CheckM (List Stmt)) :
    (checkImport span module (some name) statements checkBody).answer s =
      .importModule span module (some name)
        (checkBody.answer
          ((enterModule module name statements).after ((addSpace name).after s))) := by
  have ha' : (askLedger fun l => l.addNamespace name).answer s = some id := ha
  simp only [checkImport, answer_bind, answer_table, after_table, he, ha']
  rfl

/-- A module with a namespace that is brought in without an error follows its rule. -/
theorem follows_import {s : Checker} {ret : Ty} {span : Span} {module space : String}
    {statements : List Stmt} (hf : stmtsFresh statements)
    (hs : ((checkStmt ret (.importModule span module (some space) statements)).after s).errors =
      s.errors) :
    Follows s (.stmt ret (.importModule span module (some space) statements))
      (.stmt ((checkStmt ret (.importModule span module (some space) statements)).answer s))
      ((checkStmt ret (.importModule span module (some space) statements)).after s) := by
  have hc := Point.children_eq ⟨s, .stmt ret (.importModule span module (some space) statements)⟩
  rw [checkStmt] at hs ⊢
  rw [after_checkImport] at hs ⊢
  simp only [Point.parts, stmtParts] at hc
  -- a namespace that cannot be added would be reported
  cases he : namespaceError? s.table space with
  | some cause =>
    rw [he] at hs
    exact absurd hs (Checker.Reports.refl _).not_silent
  | none =>
    obtain ⟨id, ha⟩ := answer_addSpace (lookup_eq_none he)
    rw [answer_checkImport he ha]
    simp only [he, ha] at hs hc ⊢
    refine .of_children hc fun Q hQ => .importSpace he ha (hQ (by simp) hf ?_)
    have henter := Checker.Reports.enterModule (s := s) module space statements
    have hbody := reports_visit ((enterModule module space statements).after
      ((addSpace space).after s)) (.stmts .void statements)
    obtain ⟨-, hs⟩ := henter.silent (hbody.trans .leaveModule) hs
    exact gives_stmts rfl (hbody.silent .leaveModule hs).1

/-! ### Loops -/

/-- What a loop answers, part by part, each with the state in which it is visited. -/
theorem answer_forLoop (s : Checker) (ret : Ty) (span : Span) (init : Option Stmt)
    (condition step : Option Expr) (body : Stmt) (shared : Bool) :
    (checkStmt ret (.forLoop span init condition step body shared)).answer s =
      let s₀ := s.onLedger Ledger.pushScope
      let s₁ := (loopInit ret init).after s₀
      let s₂ := (loopCondition condition).after s₁
      let s₃ := (loopStep step).after s₂
      .forLoop span (init.map fun st => (checkStmt ret st).answer s₀)
        (condition.map fun e => ((checkExpr none e).answer s₁).expr)
        (step.map fun e => ((checkExpr none e).answer s₂).expr)
        ((checkStmt ret body).answer ((enterRegionIf (!shared)).after s₃)) shared := by
  rw [checkStmt, answer_withinScope]
  cases init <;> cases condition <;> cases step <;>
    simp only [answer_bind, answer_pure, answer_map, answer_withinRegion, answer_checkCondition,
      answer_reportOutcome, Option.map_none, Option.map_some] <;> rfl

/-- The first part of a loop, which may be missing, is silent and so follows a rule. -/
theorem maybeStmt_loopInit {Q : Checker → Visit → Reply → Checker → Prop} {s : Checker} {ret : Ty}
    {init : Option Stmt} (hf : stmtFresh? init)
    (hs : ((loopInit ret init).after s).errors = s.errors)
    (hQ : Covers Q (init.map fun st => (⟨s, .stmt ret st⟩ : Point)).toList) :
    MaybeStmt Q s ret init (init.map fun st => (checkStmt ret st).answer s)
      ((loopInit ret init).after s) (init.map fun st => (⟨s, .stmt ret st⟩ : Point)).toList := by
  cases init with
  | none => exact .none
  | some st => exact .some (hQ (by simp) hf (gives_stmt rfl hs))

theorem maybeExpr_loopCondition {Q : Checker → Visit → Reply → Checker → Prop} {s : Checker}
    {condition : Option Expr} (hf : exprFresh? condition)
    (hs : ((loopCondition condition).after s).errors = s.errors)
    (hQ : Covers Q (condition.map fun e => (⟨s, .expr none e⟩ : Point)).toList) :
    MaybeExpr Q s condition (condition.map fun e => ((checkExpr none e).answer s).expr)
      ((loopCondition condition).after s)
      (condition.map fun e => (⟨s, .expr none e⟩ : Point)).toList := by
  cases condition with
  | none => exact .none
  | some e =>
    obtain ⟨t, hgives, -⟩ := gives_checkCondition hs
    exact .some (hQ (by simp) hf hgives)

theorem maybeExpr_loopStep {Q : Checker → Visit → Reply → Checker → Prop} {s : Checker}
    {step : Option Expr} (hf : exprFresh? step)
    (hs : ((loopStep step).after s).errors = s.errors)
    (hQ : Covers Q (step.map fun e => (⟨s, .expr none e⟩ : Point)).toList) :
    MaybeExpr Q s step (step.map fun e => ((checkExpr none e).answer s).expr)
      ((loopStep step).after s) (step.map fun e => (⟨s, .expr none e⟩ : Point)).toList := by
  cases step with
  | none => exact .none
  | some e =>
    obtain ⟨t, hgives⟩ := gives_reportOutcome hs
    exact .some (hQ (by simp) hf hgives)

/-- What is known about some points is known about fewer. -/
theorem Covers.mono {Q : Checker → Visit → Reply → Checker → Prop} {ps qs : List Point}
    (h : Covers Q qs) (hsub : ∀ p ∈ ps, p ∈ qs) : Covers Q ps :=
  fun hp hf hg => h (hsub _ hp) hf hg

/-- A part that may be missing is a point that may be missing. -/
theorem map_toPoint_toList {α : Type} (o : Option α) (f : α → Part) :
    (o.map f).toList.map Part.toPoint = (o.map fun a => (f a).toPoint).toList := by
  cases o <;> rfl

/-- A loop with a head of three parts that is checked without an error follows its rule. -/
theorem follows_forLoop {s : Checker} {ret : Ty} {span : Span} {init : Option Stmt}
    {condition step : Option Expr} {body : Stmt} {shared : Bool}
    (hf : (Stmt.forLoop span init condition step body shared).Fresh)
    (hs : ((checkStmt ret (.forLoop span init condition step body shared)).after s).errors =
      s.errors) :
    Follows s (.stmt ret (.forLoop span init condition step body shared))
      (.stmt ((checkStmt ret (.forLoop span init condition step body shared)).answer s))
      ((checkStmt ret (.forLoop span init condition step body shared)).after s) := by
  obtain ⟨hinit, hcondition, hstep, hbody, hblock⟩ := hf
  have hc := Point.children_eq ⟨s, .stmt ret (.forLoop span init condition step body shared)⟩
  simp only [Point.parts, stmtParts, List.map_append, List.map_cons, List.map_nil,
    map_toPoint_toList, Part.toPoint_always] at hc
  rw [answer_forLoop]
  rw [after_forLoop] at hs ⊢
  have h₀ : s.Reports (s.onLedger Ledger.pushScope) := .onLedger _
  have h₁ := Checker.Reports.loopInit (s := s.onLedger Ledger.pushScope) ret init
  -- the states before the condition, before the step and before the body
  obtain ⟨s₁, hs₁⟩ : ∃ s₁, s₁ = (loopInit ret init).after (s.onLedger Ledger.pushScope) := ⟨_, rfl⟩
  rw [← hs₁] at hs hc h₁ ⊢
  have h₂ := Checker.Reports.loopCondition (s := s₁) condition
  obtain ⟨s₂, hs₂⟩ : ∃ s₂, s₂ = (loopCondition condition).after s₁ := ⟨_, rfl⟩
  rw [← hs₂] at hs hc h₂ ⊢
  have h₃ := Checker.Reports.loopStep (s := s₂) step
  obtain ⟨s₃, hs₃⟩ : ∃ s₃, s₃ = (loopStep step).after s₂ := ⟨_, rfl⟩
  rw [← hs₃] at hs hc h₃ ⊢
  have h₄ := Checker.Reports.enterRegionIf (s := s₃) (!shared)
  have h₅ := reports_checkStmt ((enterRegionIf (!shared)).after s₃) ret body
  -- the whole loop is silent, so each of its parts is, from the first on
  obtain ⟨-, hs⟩ := h₀.silent (h₁.trans (h₂.trans (h₃.trans (h₄.trans
    (h₅.trans (.leaveRound shared)))))) hs
  obtain ⟨e₁, hs⟩ := h₁.silent (h₂.trans (h₃.trans (h₄.trans (h₅.trans (.leaveRound shared))))) hs
  obtain ⟨e₂, hs⟩ := h₂.silent (h₃.trans (h₄.trans (h₅.trans (.leaveRound shared)))) hs
  obtain ⟨e₃, hs⟩ := h₃.silent (h₄.trans (h₅.trans (.leaveRound shared))) hs
  obtain ⟨-, hs⟩ := h₄.silent (h₅.trans (.leaveRound shared)) hs
  obtain ⟨e₅, -⟩ := h₅.silent (.leaveRound shared) hs
  refine .of_children hc fun Q hQ => ?_
  subst hs₁ hs₂ hs₃
  refine .forLoop (maybeStmt_loopInit hinit e₁ (hQ.mono fun p hp => ?_))
    (maybeExpr_loopCondition hcondition e₂ (hQ.mono fun p hp => ?_))
    (maybeExpr_loopStep hstep e₃ (hQ.mono fun p hp => ?_))
    (hQ (by simp) hbody (gives_stmt rfl e₅)) hblock
  · simp only [List.mem_append, hp, true_or]
  · simp only [List.mem_append, hp, true_or, or_true]
  · simp only [List.mem_append, hp, true_or, or_true]

/-- The type of a returned value whose mismatch would have been reported. -/
theorem silent_checkReturnType {span : Span} {ret received : Ty} {s : Checker}
    (hs : ((checkReturnType span ret received).after s).errors = s.errors) :
    (checkReturnType span ret received).after s = s := by
  unfold checkReturnType at hs ⊢
  split at hs
  · next h => rw [if_pos h]; rfl
  · exact absurd hs (Checker.Reports.refl _).not_silent

/-- A variable without an error, with or without a value, follows its rule. -/
theorem follows_declare {s : Checker} {ret : Ty} {span : Span} {head : VariableHead}
    {init : Option Expr} (hf : (Stmt.declare span head init).Fresh)
    (hs : ((checkStmt ret (.declare span head init)).after s).errors = s.errors) :
    Follows s (.stmt ret (.declare span head init))
      (.stmt ((checkStmt ret (.declare span head init)).answer s))
      ((checkStmt ret (.declare span head init)).after s) := by
  have hc := Point.children_eq ⟨s, .stmt ret (.declare span head init)⟩
  simp only [Point.parts] at hc
  cases init with
  | none =>
    rw [checkStmt] at hs ⊢
    obtain ⟨t, -, hsame, hans⟩ := silent_finishDeclare hs
    rw [hans]
    have hnone : head.refine none = none := by unfold VariableHead.refine; split <;> rfl
    rw [hnone]
    exact .of_children hc fun Q _ => .declare hsame
  | some init =>
    rw [checkStmt] at hs ⊢
    simp only [answer_bind, after_bind] at hs ⊢
    have hvisit := reports_checkExpr s head.type init
    cases ho : ((checkExpr head.type init).answer s).type with
    | error d =>
      simp only [ho] at hs
      -- the variable is declared all the same, but the error has been reported
      have hdeclare : ((report d).after ((checkExpr head.type init).after s)).Reports
          ((declareAnyway span head ((checkExpr head.type init).answer s).expr d).after
            ((checkExpr head.type init).after s)) := .of_eq rfl rfl
      obtain ⟨-, h₂⟩ := hvisit.silent ((Checker.Reports.report d).trans hdeclare) hs
      exact absurd h₂ hdeclare.not_silent
    | ok a =>
      simp only [ho] at hs ⊢
      have hsucc : Succeeds (checkExpr head.type init) s
          ((checkExpr head.type init).answer s).expr a ((checkExpr head.type init).after s) :=
        ⟨by rw [← ho], rfl⟩
      obtain ⟨h₁, h₂⟩ := hvisit.silent (Checker.Reports.stable.finishDeclare span head _) hs
      obtain ⟨t, -, hsame, hans⟩ := silent_finishDeclare h₂
      obtain ⟨b, hb⟩ := head.refine_some (type?_checkExpr ho)
      rw [hans, hb]
      refine .of_children hc fun Q hQ => ?_
      exact .declareInit (hQ (by simp [stmtParts]) hf (hsucc.gives h₁)) hsame

/-- A return without an error, with or without a value, follows its rule. -/
theorem follows_ret {s : Checker} {ret : Ty} {span : Span} {value : Option Expr}
    (hf : (Stmt.ret span value).Fresh)
    (hs : ((checkStmt ret (.ret span value)).after s).errors = s.errors) :
    Follows s (.stmt ret (.ret span value))
      (.stmt ((checkStmt ret (.ret span value)).answer s))
      ((checkStmt ret (.ret span value)).after s) := by
  have hc := Point.children_eq ⟨s, .stmt ret (.ret span value)⟩
  simp only [Point.parts] at hc
  cases value with
  | none =>
    rw [checkStmt] at hs ⊢
    simp only [answer_bind, after_bind, answer_pure, after_pure] at hs ⊢
    rw [silent_checkReturnType hs]
    exact .of_children hc fun Q _ => .ret .none
  | some value =>
    rw [checkStmt] at hs ⊢
    simp only [answer_bind, after_bind] at hs ⊢
    have hvisit := reports_checkExpr s none value
    -- an error in the value would be reported
    cases ho : ((checkExpr none value).answer s).type with
    | error d =>
      simp only [ho, after_bind, after_pure] at hs
      exact absurd hs (hvisit.report_ne d)
    | ok t =>
      simp only [ho, after_bind, answer_bind, after_pure, answer_pure] at hs ⊢
      obtain ⟨h₁, h₂⟩ := hvisit.silent (Checker.Reports.stable.checkReturnType span ret t) hs
      have hsucc : Succeeds (checkExpr none value) s ((checkExpr none value).answer s).expr t
          ((checkExpr none value).after s) := ⟨by rw [← ho], rfl⟩
      rw [silent_checkReturnType (s := (checkExpr none value).after s) h₂]
      refine .of_children hc fun Q hQ => ?_
      exact .ret (.some (hQ (by simp [stmtParts]) hf (hsucc.gives h₁)))

theorem follows_cond {s : Checker} {ret : Ty} {span : Span} {condition : Expr} {yes : Stmt}
    {no : Option Stmt} (hf : (Stmt.cond span condition yes no).Fresh)
    (hs : ((checkStmt ret (.cond span condition yes no)).after s).errors = s.errors) :
    Follows s (.stmt ret (.cond span condition yes no))
      (.stmt ((checkStmt ret (.cond span condition yes no)).answer s))
      ((checkStmt ret (.cond span condition yes no)).after s) := by
  have hc := Point.children_eq ⟨s, .stmt ret (.cond span condition yes no)⟩
  simp only [Point.parts] at hc
  obtain ⟨hcondition, hyes, hno⟩ := hf
  rw [checkStmt] at hs ⊢
  simp only [stmtParts] at hc
  simp only [answer_bind, after_bind, answer_checkCondition] at hs ⊢
  have hfirst := (reports_checkExpr s none condition).trans
    (Checker.Reports.stable.checkCondition "If" ((checkExpr none condition).answer s))
  have hgives := @gives_checkCondition "If" condition s
  -- the state after the condition, whatever it is
  generalize (checkCondition "If" ((checkExpr none condition).answer s)).after
    ((checkExpr none condition).after s) = s₁ at *
  have hsecond := reports_checkStmt s₁ ret yes
  cases no with
  | none =>
    obtain ⟨h₁, h₂⟩ := hfirst.silent hsecond hs
    obtain ⟨t, hgives, hbool⟩ := hgives h₁
    refine .of_children hc fun Q hQ => ?_
    exact .cond (hQ (by simp) hcondition hgives) hbool (hQ (by simp) hyes (gives_stmt rfl h₂)) .none
  | some branch =>
    -- the second branch starts from what the first one leaves
    have hthird := reports_checkStmt ((checkStmt ret yes).after s₁) ret branch
    obtain ⟨h₁, h₂⟩ := hfirst.silent (hsecond.trans hthird) hs
    obtain ⟨h₂, h₃⟩ := hsecond.silent hthird h₂
    obtain ⟨t, hgives, hbool⟩ := hgives h₁
    refine .of_children hc fun Q hQ => ?_
    exact .cond (hQ (by simp) hcondition hgives) hbool (hQ (by simp) hyes (gives_stmt rfl h₂))
      (.some (hQ (by simp) hno (gives_stmt rfl h₃)))

theorem follows_whileLoop {s : Checker} {ret : Ty} {span : Span} {condition : Expr} {body : Stmt}
    {shared : Bool} (hf : (Stmt.whileLoop span condition body shared).Fresh)
    (hs : ((checkStmt ret (.whileLoop span condition body shared)).after s).errors = s.errors) :
    Follows s (.stmt ret (.whileLoop span condition body shared))
      (.stmt ((checkStmt ret (.whileLoop span condition body shared)).answer s))
      ((checkStmt ret (.whileLoop span condition body shared)).after s) := by
  have hc := Point.children_eq ⟨s, .stmt ret (.whileLoop span condition body shared)⟩
  simp only [Point.parts] at hc
  obtain ⟨hcondition, hbody, hblock⟩ := hf
  rw [checkStmt] at hs ⊢
  simp only [stmtParts] at hc
  simp only [answer_bind, after_bind, answer_pure, after_pure, answer_checkCondition,
    after_withinRegion, answer_withinRegion] at hs ⊢
  have hfirst := (reports_checkExpr s none condition).trans
    (Checker.Reports.stable.checkCondition "While" ((checkExpr none condition).answer s))
  have hgives := @gives_checkCondition "While" condition s
  generalize (checkCondition "While" ((checkExpr none condition).answer s)).after
    ((checkExpr none condition).after s) = s₁ at *
  have henter := Checker.Reports.enterRegionIf (s := s₁) (!shared)
  have hsecond := reports_checkStmt ((enterRegionIf (!shared)).after s₁) ret body
  obtain ⟨h₁, h₂⟩ := hfirst.silent (henter.trans (hsecond.trans (.exitRegionIf _))) hs
  obtain ⟨-, h₂⟩ := henter.silent (hsecond.trans (.exitRegionIf _)) h₂
  obtain ⟨h₂, -⟩ := hsecond.silent (.exitRegionIf _) h₂
  obtain ⟨t, hgives, hbool⟩ := hgives h₁
  refine .of_children hc fun Q hQ => ?_
  exact .whileLoop (hQ (by simp) hcondition hgives) hbool
    (hQ (by simp) hbody (gives_stmt rfl h₂)) hblock

/-- A loop over elements, without an error, follows its rule: what it goes through has elements. -/
theorem follows_forEach {s : Checker} {ret : Ty} {span : Span} {name : String}
    {symbol : Option SymbolId} {iterable : Expr} {body : Stmt} {shared : Bool}
    (hf : (Stmt.forEach span name symbol iterable body shared).Fresh)
    (hs : ((checkStmt ret (.forEach span name symbol iterable body shared)).after s).errors =
      s.errors) :
    Follows s (.stmt ret (.forEach span name symbol iterable body shared))
      (.stmt ((checkStmt ret (.forEach span name symbol iterable body shared)).answer s))
      ((checkStmt ret (.forEach span name symbol iterable body shared)).after s) := by
  have hc := Point.children_eq ⟨s, .stmt ret (.forEach span name symbol iterable body shared)⟩
  simp only [Point.parts] at hc
  obtain ⟨hiterable, hbody, hblock⟩ := hf
  rw [checkStmt] at hs ⊢
  simp only [stmtParts] at hc
  simp only [answer_bind, after_bind] at hs ⊢
  have hvisit := reports_checkExpr s none iterable
  cases ho : ((checkExpr none iterable).answer s).type with
  | error d =>
    simp only [ho, after_bind, after_pure] at hs
    exact absurd hs (hvisit.report_ne d)
  | ok t =>
    have hsucc : Succeeds (checkExpr none iterable) s ((checkExpr none iterable).answer s).expr t
        ((checkExpr none iterable).after s) := ⟨by rw [← ho], rfl⟩
    simp only [ho] at hs ⊢
    -- what has no elements would be reported
    cases helement : t.element? with
    | none =>
      simp only [helement, after_bind, after_pure] at hs
      exact absurd hs (hvisit.report_ne _)
    | some element =>
      simp only [helement] at hs ⊢
      simp only [hsucc.thenParts, helement] at hc
      generalize (checkExpr none iterable).after s = s₁ at *
      have henter := Checker.Reports.enterRound (s := s₁) name element shared
      have hround := reports_checkStmt ((enterRound name element shared).after s₁) ret body
      simp only [after_withinScope, after_bind, after_withinRegion, after_pure, answer_withinScope,
        answer_bind, answer_withinRegion, answer_pure] at hs ⊢
      obtain ⟨h₁, h₂⟩ := hvisit.silent (henter.trans (hround.trans (.leaveRound shared))) hs
      obtain ⟨-, h₂⟩ := henter.silent (hround.trans (.leaveRound shared)) h₂
      obtain ⟨h₂, -⟩ := hround.silent (.leaveRound shared) h₂
      refine .of_children hc fun Q hQ => ?_
      exact .forEach (hQ (by simp) hiterable (hsucc.gives h₁)) helement
        (hQ (by simp) hbody (gives_stmt rfl h₂)) hblock

/-- A statement that is checked without an error follows one of the rules. -/
theorem follows_stmt {s : Checker} {ret : Ty} {st : Stmt} (hf : st.Fresh) (hw : s.table.WellFormed)
    (hs : ((checkStmt ret st).after s).errors = s.errors) :
    Follows s (.stmt ret st) (.stmt ((checkStmt ret st).answer s))
      ((checkStmt ret st).after s) := by
  have hc := Point.children_eq ⟨s, .stmt ret st⟩
  simp only [Point.parts] at hc
  cases st with
  | expression span value =>
    rw [checkStmt] at hs ⊢
    simp only [answer_bind, after_bind, answer_pure, after_pure, answer_reportOutcome] at hs ⊢
    obtain ⟨t, hgives⟩ := gives_reportOutcome hs
    exact .of_children hc fun Q hQ => .expression (hQ (by simp [stmtParts]) hf hgives)
  | declare span head init => exact follows_declare hf hs
  | function span head body => exact follows_function hf hw hs
  | ret span value => exact follows_ret hf hs
  | block span modifier body =>
    rw [checkStmt] at hs ⊢
    simp only [answer_bind, after_bind, answer_pure, after_pure, after_withinRegion,
      after_withinScope, answer_withinRegion, answer_withinScope] at hs ⊢
    refine .of_children hc fun Q hQ => .block (hQ (by simp [stmtParts]) hf ?_)
    have hbody := reports_visit ((enterBlock modifier).after s) (.stmts ret body)
    obtain ⟨-, hs⟩ := (Checker.Reports.enterBlock modifier).silent
      (hbody.trans (.leaveBlock modifier)) hs
    exact gives_stmts rfl (hbody.silent (.leaveBlock modifier) hs).1
  | cond span condition yes no => exact follows_cond hf hs
  | whileLoop span condition body shared => exact follows_whileLoop hf hs
  | forLoop span init condition step body shared => exact follows_forLoop hf hs
  | forEach span name symbol iterable body shared => exact follows_forEach hf hs
  | leave span => exact .of_children hc fun Q _ => .leave
  | next span => exact .of_children hc fun Q _ => .next
  | importModule span module space statements =>
    cases space with
    | none =>
      -- the statements of such a module have been merged, so there are none left here
      have hempty : statements = [] := hf
      subst hempty
      rw [checkStmt]
      exact .of_children hc fun Q _ => .importMerged
    | some space => exact follows_import hf hs

/-- Statements without an error follow their rules, one after the other. -/
theorem follows_stmts {s : Checker} {ret : Ty} {sts : List Stmt} (hf : stmtsFresh sts)
    (hs : ((checkStmts ret sts).after s).errors = s.errors) :
    Follows s (.stmts ret sts) (.stmts ((checkStmts ret sts).answer s))
      ((checkStmts ret sts).after s) := by
  cases sts with
  | nil => exact .of_children rfl fun Q _ => .noStmts
  | cons st others =>
    obtain ⟨hst, hothers⟩ := hf
    have hc := Point.children_eq ⟨s, .stmts ret (st :: others)⟩
    rw [checkStmts] at hs ⊢
    simp only [answer_bind, after_bind, answer_pure, after_pure] at hs ⊢
    obtain ⟨h₁, h₂⟩ := (reports_checkStmt s ret st).silent (reports_checkStmts _ ret others) hs
    refine .of_children hc fun Q hQ => ?_
    exact .stmt (hQ (by simp [Point.parts]) hst (gives_stmt rfl h₁))
      (hQ (by simp [Point.parts]) hothers (gives_stmts rfl h₂))

/-! ### Induction over accepted programs -/

/-- A visit of a fresh tree without an error follows one of the rules. -/
theorem Gives.rule {s s' : Checker} {v : Visit} {r : Reply} (h : Gives s v r s') (hf : v.Fresh)
    (hw : s.table.WellFormed) : Follows s v r s' := by
  cases v with
  | expr hint e =>
    obtain ⟨e', t, rfl, hsucc⟩ := h.expr
    exact follows_expr hf hw hsucc h.silent
  | args function index params es =>
    obtain ⟨es', ts, rfl, hsucc⟩ := h.args
    exact follows_args hf hsucc h.silent
  | elements start first es =>
    obtain ⟨es', ts, rfl, hsucc⟩ := h.elements
    exact follows_elements hf hsucc h.silent
  | body start ret b => exact follows_body hf h
  | stmt ret st =>
    obtain ⟨hr, rfl, hs⟩ := h
    cases hr
    exact follows_stmt hf hw hs
  | stmts ret sts =>
    obtain ⟨hr, rfl, hs⟩ := h
    cases hr
    exact follows_stmts hf hs
  | wait id name =>
    obtain ⟨hr, rfl, -⟩ := h
    cases hr
    exact .of_children rfl fun Q _ => .wait

theorem Table.WellFormed.of_mem_parts {p : Point} {q : Part} (hw : p.state.table.WellFormed)
    (hq : q ∈ p.parts) : q.state.table.WellFormed := by
  have htrivial : Table.Invariant fun _ _ => True := by constructor <;> intros <;> trivial
  exact (htrivial.entry (r := []) ⟨hw, by simp, trivial⟩ (mem_parts hq).entry).wellFormed

/-- What follows by every rule from the same for the parts holds of every visit without an error. -/
theorem Gives.induct {motive : Checker → Visit → Reply → Checker → Prop}
    (step : ∀ {s v r s'}, v.Fresh → s.table.WellFormed → Gives s v r s' →
      Rule (fun s v r s' => s.table.WellFormed ∧ Gives s v r s' ∧ motive s v r s') s v r s'
        (Point.mk s v).children → motive s v r s')
    {s s' : Checker} {v : Visit} {r : Reply} (h : Gives s v r s') (hf : v.Fresh)
    (hw : s.table.WellFormed) : motive s v r s' := by
  -- the parts of a visit walk over smaller trees
  induction hn : v.size using Nat.strongRecOn generalizing s v r s' with
  | ind n ih =>
    refine step hf hw h (h.rule hf hw _ fun {s₁ v₁ r₁ s₁'} hp hf₁ h₁ => ?_)
    obtain ⟨q, hq, heq⟩ := List.mem_map.1 hp
    have hw₁ : s₁.table.WellFormed := by
      have := hw.of_mem_parts hq
      rwa [show q.state = s₁ from congrArg Point.state heq] at this
    have hlt : v₁.size < n := by
      have := (mem_parts hq).size_lt
      rwa [show q.visit = v₁ from congrArg Point.visit heq, hn] at this
    exact ⟨hw₁, h₁, ih v₁.size hlt h₁ hf₁ hw₁ rfl⟩

/-- The point at which the check of a module begins. -/
def Module.start (d : Nat) (m : Module) : Point :=
  ⟨(note .debug s!"type checking {m.file} ({m.statements.length} statements)").after (.initial d),
    .stmts .void m.statements⟩

/-- A module that is accepted is checked without an error. -/
theorem gives_of_accepted {d : Nat} {m : Module} (h : (checkModule d m).1.accepted) :
    Gives (m.start d).state (m.start d).visit (.stmts (checkModule d m).2.statements)
      (m.start d).after := by
  refine ⟨rfl, rfl, ?_⟩
  have hnil : (checkModule d m).1.errors = [] := by simpa [Checker.accepted] using h
  exact hnil

end ThreadRegions
