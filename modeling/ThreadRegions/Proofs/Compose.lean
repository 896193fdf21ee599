import ThreadRegions.Proofs.Steps

/-!
# From the parts of a point to the whole

What a visit does to the state is made up of what its parts do and of a few steps in between.  This
module says so once, for all pairs of relations that hold across the steps in between, and every
later induction over the walk goes through it.

## Main Definitions

* `StableIn`: a relation for expressions and one for statements that hold across single steps, where
  frames are entered only in given scopes
* `Stable`: the same, whatever the scopes
* `Part.Holds`: the relation holds across a part
* `Point.OpensFrame`: the scopes in which the walk begins a function or a lambda

## Main Results

* `StableIn.point`: if the relations hold across the parts of a point, they hold across the point
* `StableIn.visit`: if they hold across waiting for one thread too, they hold across every visit
* `StableIn.visitTree`: the same for trees that are without some constructs

## Design Notes

There are two relations because an expression leaves the current scope alone and a statement does
not.  A scope that is opened by an expression is closed again, so what the statements in it do is
seen through `StableIn.scope` and its like, which lead from the relation for statements back to the
one for expressions.

The table does not say which scopes were opened with a frame of their own, but the points of a run
do.  A relation that depends on it takes these scopes as a parameter.
-/

namespace ThreadRegions

open CheckM

/-- Relations that hold across single steps, and across what is entered and left again, where only
effects that satisfy `A` count. -/
structure StableIn (A : Effect → Prop) (E R : Checker → Checker → Prop) : Prop
    extends Steps A E R where
  /-- A scope is entered and left. -/
  scope : A .scope → ∀ s s', R (s.onLedger Ledger.pushScope) s' → E s (s'.onLedger Ledger.popScope)
  /-- A scope with the variable of a loop is entered and left. -/
  round : A .scope → ∀ s s' name t,
    R ((s.onLedger Ledger.pushScope).onLedger fun l => (l.add name t .param).1) s' →
      E s (s'.onLedger Ledger.popScope)
  /-- The frame of a lambda is entered and left. -/
  lambdaFrame : ∀ s s' params,
    A (.frame (((declareParams params).after (s.onLedger Ledger.pushFrame)).onLedger
        Ledger.alignLocals).table.current) →
    R (((declareParams params).after (s.onLedger Ledger.pushFrame)).onLedger
        Ledger.alignLocals) s' →
      E s (s'.onLedger Ledger.popScope)
  /-- The frame of a function is entered and left. -/
  functionFrame : ∀ s s' params,
    A (.frame (((declareCheckedParams params).after (s.onLedger Ledger.pushFrame)).onLedger
        Ledger.alignLocals).table.current) →
    R (((declareCheckedParams params).after (s.onLedger Ledger.pushFrame)).onLedger
        Ledger.alignLocals) s' →
      E s (s'.onLedger Ledger.popScope)
  /-- A region is entered and left by an expression. -/
  region : ∀ s s', E (s.onLedger Ledger.enterRegion) s' → E s (s'.onLedger Ledger.exitRegion)
  /-- A region is entered and left by a statement. -/
  stmtRegion : ∀ s s', R (s.onLedger Ledger.enterRegion) s' → R s (s'.onLedger Ledger.exitRegion)
  /-- A lambda is entered and left. -/
  lambda : ∀ s s', E (pushLambda.after s) s' → E s (popLambda.after s')
  /-- An imported module is entered and left. -/
  module : ∀ s s', E { s with importDepth := s.importDepth + 1 } s' →
    E s { s' with importDepth := s'.importDepth - 1 }

/-- Relations that hold across single steps, and across what is entered and left again. -/
abbrev Stable (E R : Checker → Checker → Prop) : Prop := StableIn (fun _ => True) E R

/-- The effects of a statement itself, apart from the frame of a function, are among the given
ones. -/
def Stmt.Allowed (A : Effect → Prop) : Stmt → Prop
  | .declare .. | .function .. => A .declare
  | .block .. | .forLoop .. | .forEach .. => A .scope
  | .importModule _ _ (some _) _ => A .space ∧ A .scope
  | _ => True

/-- The effects of a visit itself, apart from its parts and the frame of a function, are among the
given ones. -/
def Visit.Allowed (A : Effect → Prop) : Visit → Prop
  | .stmt _ st => st.Allowed A
  | _ => True

/-- If all effects but some frames are among the given ones, those of every visit are. -/
theorem Visit.allowed {A : Effect → Prop} (hA : ∀ e, (∀ c, e ≠ .frame c) → A e) (v : Visit) :
    v.Allowed A := by
  have hdeclare : A .declare := hA _ nofun
  have hscope : A .scope := hA _ nofun
  have hspace : A .space := hA _ nofun
  cases v with
  | stmt ret st =>
    cases st with
    | declare => exact hdeclare
    | function => exact hdeclare
    | block => exact hscope
    | forLoop => exact hscope
    | forEach => exact hscope
    | importModule _ _ space _ =>
      cases space with
      | none => trivial
      | some _ => exact ⟨hspace, hscope⟩
    | _ => trivial
  | _ => trivial

/-- The relation for a visit holds across a point. -/
def Point.Holds (E R : Checker → Checker → Prop) (p : Point) : Prop :=
  match p.visit with
  | .expr .. | .args .. | .elements .. | .wait .. => E p.state p.after
  | .body .. | .stmt .. | .stmts .. => R p.state p.after

/-- The relation for a visit holds across a part. -/
def Part.Holds (E R : Checker → Checker → Prop) (p : Part) : Prop := p.toPoint.Holds E R

namespace StableIn

variable {A : Effect → Prop} {E R : Checker → Checker → Prop} (h : StableIn A E R)
  {s s₁ : Checker}

include h

/-! ### Steps between the parts of an expression -/

/-- An expression that carries its type already is not checked again. -/
theorem unlessKnown {e : Expr} {check : CheckM Outcome}
    (hc : e.type? = none → E s (check.after s)) : E s ((unlessKnown e check).after s) := by
  unfold ThreadRegions.unlessKnown
  split
  · exact h.note s _ _
  · next ht => exact hc ht

omit h in
/-- Going on after a part with further parts, unless the part has no type. -/
theorem andThen {o : Outcome} {wrap : Expr → Expr} {next : Ty → Expr → CheckM Outcome}
    {parts : Ty → Expr → List Part} (hs : E s s₁)
    (hp : ∀ p ∈ o.thenParts parts, p.Holds E R)
    (hnext : ∀ t, (∀ p ∈ parts t o.expr, p.Holds E R) → E s ((next t o.expr).after s₁)) :
    E s ((o.andThen wrap next).after s₁) := by
  unfold Outcome.andThen
  unfold Outcome.thenParts at hp
  split
  · next t ht => exact hnext t (by simpa [ht] using hp)
  · exact hs

omit h in
theorem andThenLast {o : Outcome} {wrap : Expr → Expr} {next : Ty → Expr → CheckM Outcome}
    (hs : E s s₁) (hnext : ∀ t e, E s ((next t e).after s₁)) :
    E s ((o.andThen wrap next).after s₁) := by
  unfold Outcome.andThen
  split
  · exact hnext _ _
  · exact hs

omit h in
theorem listAndThen {o : ListOutcome} {wrap : List Expr → Expr}
    {next : List Ty → List Expr → CheckM Outcome} (hs : E s s₁)
    (hnext : ∀ ts es, E s ((next ts es).after s₁)) : E s ((o.andThen wrap next).after s₁) := by
  unfold ListOutcome.andThen
  split
  · exact hnext _ _
  · exact hs

omit h in
/-- An outcome by a rule does not touch the state. -/
theorem settle (e : Expr) (r : Except Cause Ty) (hs : E s s₁) :
    E s ((Outcome.settle e r).after s₁) := by
  cases r <;> exact hs

end StableIn

/-! ### The larger constructs, as far as the state is concerned -/

/-- What a lambda does to the state if nothing is wrong with its head. -/
theorem after_checkLambda {s : Checker} {node : Node} {head : LambdaHead} {ret : Ty}
    {types : List Ty} (hret : head.ret = some ret)
    (ht : (lambdaParamTypes node.span.start head.params).answer s = .ok types)
    (hm : isolatedReturnError? head.modifier ret true = none) (body : Body) :
    ∃ text, (checkLambda node head body fun ret => checkBody node.span.start ret body).after s =
      (note .debug text).after (popLambda.after ((exitRegionIf (head.modifier = .isolated)).after
        (((checkBody node.span.start ret body).after ((enterLambda head types).after
          ((lambdaParamTypes node.span.start head.params).after s))).onLedger
            Ledger.popScope))) := by
  have hstart : (Expr.lambda node head body).start = node.span.start := rfl
  simp only [checkLambda, hret, after_bind, hstart, ht, hm]
  split <;>
    simp only [after_pure, Outcome.succeed, after_withinRegion, after_withinFrame, enterLambda,
      after_bind, after_onLedger] <;>
    exact ⟨_, rfl⟩

/-- A lambda with something wrong in its head is not entered. -/
theorem after_checkLambda_error {s : Checker} {node : Node} {head : LambdaHead} {body : Body}
    {ret : Ty} {d : Diagnostic} (hret : head.ret = some ret)
    (ht : (lambdaParamTypes node.span.start head.params).answer s = .error d) :
    (checkLambda node head body fun ret => checkBody node.span.start ret body).after s =
      (lambdaParamTypes node.span.start head.params).after s := by
  have hstart : (Expr.lambda node head body).start = node.span.start := rfl
  simp [checkLambda, hret, hstart, ht]

theorem after_checkFunction (s : Checker) (span : Span) (head : FunctionHead) (body : List Stmt)
    (checkBody : CheckM (List Stmt)) :
    (checkFunction span head body checkBody).after s =
      let s₀ := (reportHead span head).after s
      if s₀.clashes head.name then
        (report ⟨.functionAlreadyDefined head.name, span.start⟩).after s₀
      else
        (exitRegionIf (head.modifier = .isolated)).after
          ((checkBody.after ((enterFunction head).after ((declareFunction head).after s₀))).onLedger
            Ledger.popScope) := by
  simp only [checkFunction, reportHead, after_bind, answer_get, after_get, after_ite,
    Checker.clashes, declareFunction, enterFunction, after_withinRegion, after_withinFrame,
    after_onLedger, after_pure]
  rfl

theorem after_checkImport (s : Checker) (span : Span) (module name : String)
    (statements : List Stmt) (checkBody : CheckM (List Stmt)) :
    (checkImport span module (some name) statements checkBody).after s =
      match namespaceError? s.table name with
      | some cause => (report ⟨cause, span.start⟩).after s
      | none =>
        match (addSpace name).answer s with
        | none => (addSpace name).after s
        | some _ =>
          let s' := (checkBody.after ((enterModule module name statements).after
            ((addSpace name).after s))).onLedger Ledger.popScope
          { s' with importDepth := s'.importDepth - 1 } := by
  simp only [checkImport, after_bind, answer_table, after_table]
  cases he : namespaceError? s.table name with
  | some cause => rfl
  | none =>
    have ha : (askLedger fun l => l.addNamespace name).answer s = (addSpace name).answer s := rfl
    simp only [after_bind, ha]
    cases (addSpace name).answer s <;> rfl

theorem after_forLoop (s : Checker) (ret : Ty) (span : Span) (init : Option Stmt)
    (condition step : Option Expr) (body : Stmt) (shared : Bool) :
    (checkStmt ret (.forLoop span init condition step body shared)).after s =
      ((exitRegionIf (!shared)).after ((checkStmt ret body).after ((enterRegionIf (!shared)).after
        ((loopStep step).after ((loopCondition condition).after ((loopInit ret init).after
          (s.onLedger Ledger.pushScope))))))).onLedger Ledger.popScope := by
  rw [checkStmt, after_withinScope]
  cases init <;> cases condition <;> cases step <;> cases shared <;> rfl

/-- Waiting for a thread that may still run does not fail. -/
theorem Table.syncVariable_of_pending {t : Table} {name : String} {id : SymbolId}
    (hl : t.lookup name = some id) (hp : (t.symbol id).isPending) :
    ∃ t', t.syncVariable name = .ok (t', id) := by
  have hs : (t.symbol id).state = .pending := by simpa [Symbol.isPending] using hp
  simp only [Table.syncVariable, hl, Table.syncSymbol, Table.transition,
    Symbol.markSynchronized, hs]
  exact ⟨_, rfl⟩

/-- The same in the ledger, which only notes it down. -/
theorem Ledger.syncVariable_of_pending {l : Ledger} {name : String} {id : SymbolId}
    (hl : l.table.lookup name = some id) (hp : (l.table.symbol id).isPending) :
    (l.syncVariable name).2 = .ok id := by
  obtain ⟨t', ht⟩ := Table.syncVariable_of_pending hl hp
  simp only [Ledger.syncVariable, ht]

theorem CheckM.after_syncOne {s : Checker} {node : Node} {handle : Expr} {name : String}
    {id : SymbolId} (hn : handle.name? = some name) (hl : s.table.lookup name = some id) :
    (syncOne node handle).after s = (syncPending id name).after (s.captured id) := by
  have hr := after_resolve_some hl
  cases hst : (s.table.symbol id).state with
  | normal => simp [syncOne, syncPending, hn, hr, hst, Symbol.isPending, Outcome.fail]
  | synchronized => simp [syncOne, syncPending, hn, hr, hst, Symbol.isPending, Outcome.fail]
  | pending =>
    have hok : (s.toLedger.syncVariable name).2 = .ok id :=
      Ledger.syncVariable_of_pending hl (by simp [Symbol.isPending, hst])
    simp [syncOne, syncPending, hn, hr, hst, Symbol.isPending, hok, Outcome.succeed]

namespace StableIn

variable {A : Effect → Prop} {E R : Checker → Checker → Prop} (h : StableIn A E R)
  {s s₁ : Checker}

include h

/-! ### Threads -/

theorem syncHandles (handles : List (Expr × SymbolId))
    (hp : ∀ p ∈ waitParts s handles, p.Holds E R) : E s ((syncHandles handles).after s) := by
  induction handles generalizing s with
  | nil => exact h.refl s
  | cons first others ih =>
    obtain ⟨handle, id⟩ := first
    obtain ⟨hfirst, hothers⟩ := List.forall_mem_cons.1 hp
    exact h.trans hfirst (ih hothers)

/-- Waiting for one thread or for several: the handles are looked up first, and nothing is waited
for if one of them is not known. -/
theorem sync {hint : Option Ty} {node : Node} {handle : Expr} {isArray : Bool}
    (hp : ∀ p ∈ exprParts s hint (.sync node handle isArray), p.Holds E R) :
    E s ((if isArray then syncMany node handle else syncOne node handle).after s) := by
  cases isArray with
  | false =>
    simp only [Bool.false_eq_true, if_false]
    simp only [exprParts] at hp
    -- only a variable that is declared is waited for
    cases hn : handle.name? with
    | none => simpa [syncOne, hn, Outcome.fail] using h.refl s
    | some name =>
      cases hl : s.table.lookup name with
      | none => simpa [syncOne, hn, after_resolve_none hl, undefined] using h.refl s
      | some id =>
        rw [after_syncOne hn hl]
        simp only [hn, hl, List.mem_singleton, forall_eq] at hp
        exact h.trans (h.captured s id) hp
  | true =>
    simp only [if_true]
    cases handle with
    | array m handles =>
      -- all handles are resolved before the first one is waited for
      have hr := h.resolveHandles (s := s) node.span.start handles
      simp only [syncMany, after_bind]
      simp only [exprParts] at hp
      split
      · exact hr
      · next ids hids =>
        have hids' : (CheckM.resolveHandles node.span.start handles).answer s = .ok ids := hids
        simp only [hids'] at hp
        exact h.trans hr (h.syncHandles _ hp)
    | _ => exact h.refl s

/-! ### Calls and lambdas -/

/-- The arguments of `len` are visited only if there is exactly one. -/
theorem len {node : Node} {callee : Expr} {args : List Expr} {checkArgs : CheckM ListOutcome}
    (ha : args.length = 1 → E s (checkArgs.after s)) :
    E s ((checkLen node callee args checkArgs).after s) := by
  unfold checkLen
  simp only [after_ite, after_bind]
  split
  · exact h.refl s
  · next hlen =>
    have hs := ha (by simpa using hlen)
    refine listAndThen hs fun ts es => ?_
    split
    · simp only [after_ite]
      split <;> exact hs
    · exact hs

/-- The callee comes first, and the arguments only if their number is right. -/
theorem call {node : Node} {callee : Expr} {args : List Expr} {checkCallee : CheckM Outcome}
    {calleeParts : List Part}
    (hc : (∀ p ∈ calleeParts, p.Holds E R) → E s (checkCallee.after s))
    (hp : ∀ p ∈ callParts s callee args checkCallee calleeParts, p.Holds E R) :
    E s ((checkCall node callee args checkCallee fun name params =>
      checkArgs name 0 params args).after s) := by
  unfold checkCall
  unfold callParts at hp
  simp only [after_bind, after_table, answer_table, after_ite]
  -- `len` is called in its own way, if nothing else has that name
  split at hp
  · next hlen =>
    rw [if_pos hlen]
    refine h.len fun hone => ?_
    simp only [hone, ne_eq, not_true_eq_false, if_false, List.mem_singleton, forall_eq] at hp
    exact hp
  · next hlen =>
    rw [if_neg hlen]
    split at hp
    · next hm => simpa [hm, Outcome.fail] using h.refl s
    · next hm =>
      rw [List.forall_mem_append] at hp
      simp only [hm, after_bind]
      have hs := hc hp.1
      refine andThen hs hp.2 fun t hargs => ?_
      split
      · next params quals ret variadic =>
        simp only [after_ite]
        by_cases hfits : arityFits params variadic args.length
        · simp only [hfits, if_true, List.mem_singleton, forall_eq, after_bind] at hargs ⊢
          have hall := h.trans hs hargs
          exact listAndThen hall fun _ _ => hall
        · simpa [hfits, Outcome.fail] using hs
      · exact hs

omit h in
theorem regionIf {enabled : Bool} {s' : Checker}
    (hr : ∀ s s', E (s.onLedger Ledger.enterRegion) s' → E s (s'.onLedger Ledger.exitRegion))
    (hs : E ((enterRegionIf enabled).after s) s') : E s ((exitRegionIf enabled).after s') := by
  cases enabled with
  | false => exact hs
  | true => exact hr s s' hs

/-- The body of a lambda is visited only if there is nothing wrong with its head. -/
theorem lambdaBody {node : Node} {head : LambdaHead} {body : Body}
    (hp : ∀ p ∈ lambdaParts s node head body, p.Holds E R)
    (hF : ∀ p ∈ lambdaParts s node head body, p.role = .elsewhere →
      A (.frame p.state.table.current)) :
    E s ((checkLambda node head body fun ret => checkBody node.span.start ret body).after s) := by
  unfold lambdaParts at hp hF
  -- the head is looked at in this order: its result, its parameters, and whether the result may
  -- leave the region
  cases hret : head.ret with
  | none =>
    have hs : (checkLambda node head body fun ret =>
        checkBody node.span.start ret body).after s = s := by
      simp [checkLambda, hret, Outcome.fail]
    rw [hs]
    exact h.refl s
  | some ret =>
    have htypes := h.lambdaParamTypes (s := s) node.span.start head.params
    simp only [hret] at hp hF
    cases ht : (ThreadRegions.lambdaParamTypes node.span.start head.params).answer s with
    | error d =>
      rw [after_checkLambda_error hret ht]
      exact htypes
    | ok types =>
      simp only [ht] at hp hF
      cases hm : isolatedReturnError? head.modifier ret true with
      | some cause =>
        have hs : (checkLambda node head body fun ret =>
            checkBody node.span.start ret body).after s =
              (ThreadRegions.lambdaParamTypes node.span.start head.params).after s := by
          have hstart : (Expr.lambda node head body).start = node.span.start := rfl
          simp [checkLambda, hret, hstart, ht, hm, Outcome.fail]
        rw [hs]
        exact htypes
      | none =>
        simp only [hm, List.mem_singleton, forall_eq] at hp hF
        obtain ⟨text, hs⟩ := after_checkLambda hret ht hm body
        rw [hs]
        refine h.trans htypes (h.trans (h.lambda _ _ (regionIf h.region ?_)) (h.note _ _ _))
        exact h.lambdaFrame _ _ _ (hF trivial) hp

/-! ### Expressions -/

theorem visitThen {hint : Option Ty} {e : Expr} {wrap : Expr → Expr}
    {next : Ty → Expr → CheckM Outcome} {parts : Ty → Expr → List Part} (hs : E s s₁)
    (hp : ∀ p ∈ Part.always s₁ (.expr hint e) :: ((checkExpr hint e).answer s₁).thenParts parts,
      p.Holds E R)
    (hnext : ∀ t e', E s ((checkExpr hint e).after s₁) → (∀ p ∈ parts t e', p.Holds E R) →
      E s ((next t e').after ((checkExpr hint e).after s₁))) :
    E s ((checkExpr hint e >>= fun o => o.andThen wrap next).after s₁) := by
  obtain ⟨he, hp⟩ := List.forall_mem_cons.1 hp
  have hs₂ : E s ((checkExpr hint e).after s₁) := h.trans hs he
  exact andThen hs₂ hp fun t => hnext t _ hs₂

theorem visitLast {hint : Option Ty} {e : Expr} {wrap : Expr → Expr}
    {next : Ty → Expr → CheckM Outcome} (hs : E s s₁)
    (hp : ∀ p ∈ [Part.always s₁ (.expr hint e)], p.Holds E R)
    (hnext : ∀ t e', E s ((checkExpr hint e).after s₁) →
      E s ((next t e').after ((checkExpr hint e).after s₁))) :
    E s ((checkExpr hint e >>= fun o => o.andThen wrap next).after s₁) := by
  have hs₂ : E s ((checkExpr hint e).after s₁) := h.trans hs (hp _ List.mem_cons_self)
  exact andThenLast hs₂ fun t e' => hnext t e' hs₂

/-- The relation for expressions holds across an expression if it does across its parts. -/
theorem expr {hint : Option Ty} {e : Expr}
    (hp : ∀ p ∈ (Point.mk s (.expr hint e)).parts, p.Holds E R)
    (hF : ∀ p ∈ (Point.mk s (.expr hint e)).parts, p.role = .elsewhere →
      A (.frame p.state.table.current)) :
    E s ((checkExpr hint e).after s) := by
  have hs := h.refl s
  unfold Point.parts at hp hF
  cases e with
  | literal n v =>
    rw [checkExpr]
    exact h.unlessKnown fun _ => hs
  | var n name =>
    rw [checkExpr]
    refine h.unlessKnown fun _ => ?_
    have hr := h.resolve (s := s) name
    simp only [checkVar, after_bind]
    split
    · exact hr
    · simp only [after_bind, after_table, answer_table, after_ite]
      split
      · exact hr
      · split <;> exact hr
  | binary n op left right =>
    rw [checkExpr]
    refine h.unlessKnown fun hn => ?_
    simp only [hn, exprParts] at hp
    refine h.visitThen hs hp fun a left hl hp => ?_
    exact h.visitLast hl hp fun b right hlr => settle _ _ hlr
  | unary n op operand =>
    rw [checkExpr]
    refine h.unlessKnown fun hn => ?_
    simp only [hn, exprParts] at hp
    exact h.visitLast hs hp fun a operand ho => settle _ _ ho
  | assign n name value =>
    rw [checkExpr]
    refine h.unlessKnown fun hn => ?_
    simp only [hn, exprParts] at hp
    -- the value is visited only if the variable may be written
    cases hl : s.table.lookup name with
    | none =>
      have hr := after_resolve_none hl
      simpa [hr, Outcome.fail] using hs
    | some id =>
      have hr := after_resolve_some hl
      simp only [after_bind, hr, answer_table, after_table, toLedger_captured, hl] at hp ⊢
      split
      · next hm => exact h.captured s id
      · next hm =>
        simp only [hm] at hp
        rw [after_bind, answer_table, after_table, toLedger_captured]
        refine h.visitLast (h.captured s id) hp fun received value hv => ?_
        simp only [after_bind, after_table, after_ite]
        split
        · exact hv
        · split <;> exact hv
  | indexAssign n array index value =>
    rw [checkExpr]
    refine h.unlessKnown fun hn => ?_
    simp only [hn, exprParts] at hp
    simp only [after_bind, answer_table, after_table]
    split
    · exact hs
    · next hf =>
      simp only [hf] at hp
      refine h.visitThen hs hp fun a array ha hp => ?_
      split
      · exact ha
      -- the array is not one of a frozen variable, and has elements
      · next element he =>
        simp only [he] at hp
        refine h.visitThen ha hp fun i index hi hp => ?_
        by_cases hint : i.isIntegral
        · simp only [hint, Bool.not_true, Bool.false_eq_true, if_false] at hp ⊢
          refine h.visitLast hi hp fun v value hv => ?_
          simp only [after_ite]
          split <;> exact hv
        · simpa [hint, Outcome.fail] using hi
  | call n callee args =>
    rw [checkExpr]
    refine h.unlessKnown fun hn => ?_
    simp only [hn, exprParts] at hp
    refine h.call (fun hc => ?_) hp
    exact hc (.always s (.expr none callee)) List.mem_cons_self
  | array n elements =>
    rw [checkExpr]
    refine h.unlessKnown fun hn => ?_
    simp only [hn, exprParts, List.mem_singleton, forall_eq] at hp
    have he : E s ((checkElements n.span.start none elements).after s) := hp
    rw [after_bind]
    exact listAndThen he fun _ _ => he
  | access n array index =>
    rw [checkExpr]
    refine h.unlessKnown fun hn => ?_
    simp only [hn, exprParts] at hp
    refine h.visitThen hs hp fun a array ha hp => ?_
    split
    · exact ha
    · next element he =>
      simp only [he] at hp
      refine h.visitLast ha hp fun i index hi => ?_
      simp only [after_ite]
      split <;> exact hi
  | range n first last =>
    rw [checkExpr]
    refine h.unlessKnown fun hn => ?_
    simp only [hn, exprParts] at hp
    refine h.visitThen hs hp fun a first ha hp => ?_
    by_cases hnum : a.isNumber
    · simp only [hnum, Bool.not_true, Bool.false_eq_true, if_false] at hp ⊢
      refine h.visitLast ha hp fun b last hb => ?_
      simp only [after_ite]
      split <;> exact hb
    · simpa [hnum, Outcome.fail] using ha
  | increment n operand =>
    rw [checkExpr]
    refine h.unlessKnown fun hn => ?_
    simp only [hn, exprParts] at hp
    simp only [after_bind, answer_table, after_table]
    split
    · exact hs
    · next hf =>
      simp only [hf] at hp
      refine h.visitLast hs hp fun t operand ho => ?_
      simp only [after_ite]
      split <;> exact ho
  | decrement n operand =>
    rw [checkExpr]
    refine h.unlessKnown fun hn => ?_
    simp only [hn, exprParts] at hp
    simp only [after_bind, answer_table, after_table]
    split
    · exact hs
    · next hf =>
      simp only [hf] at hp
      refine h.visitLast hs hp fun t operand ho => ?_
      simp only [after_ite]
      split <;> exact ho
  | member n object name =>
    rw [checkExpr]
    refine h.unlessKnown fun hn => ?_
    simp only [hn, exprParts] at hp
    simp only [after_bind, answer_table, after_table]
    split
    · next space _ =>
      simp only [checkNamespaceMember, after_bind, after_get]
      split <;> exact hs
    · next hf =>
      simp only [hf] at hp
      refine h.visitLast hs hp fun t object ho => ?_
      simp only [checkValueMember]
      split
      · exact ho
      · exact ho
  | lambda n head body =>
    rw [checkExpr]
    refine h.unlessKnown fun hn => ?_
    simp only [hn, exprParts] at hp hF
    exact h.lambdaBody hp hF
  | sync n handle isArray =>
    rw [checkExpr]
    refine h.unlessKnown fun hn => ?_
    simp only [hn] at hp
    exact h.sync hp
  | spawn n call mode =>
    cases call with
    | call m callee args =>
      rw [checkExpr]
      refine h.unlessKnown fun hn => ?_
      simp only [hn, exprParts] at hp
      refine h.visitThen hs hp fun type callee' hc hp => ?_
      split
      · next params quals ret variadic =>
        simp only [after_bind, answer_table, after_table]
        -- the callee has been visited already, so the call goes on from its type
        have hcall : E s ((ThreadRegions.unlessKnown (.call m callee' args) <|
            checkCall m callee' args (Outcome.known callee' (.fn params quals ret variadic))
              fun name params => checkArgs name 0 params args).after
                ((checkExpr none callee).after s)) := by
          refine h.trans hc (h.unlessKnown fun hk => ?_)
          simp only [hk] at hp
          exact h.call (fun _ => h.note _ _ _) hp
        exact andThenLast hcall fun _ _ => h.trans hcall (h.note _ _ _)
      · exact hc
    | _ =>
      rw [checkExpr]
      · exact h.unlessKnown fun _ => hs
      · simp

/-! ### Statements -/

theorem visitExpr {hint : Option Ty} {e : Expr} {role : Role}
    (hp : Part.Holds E R ⟨⟨s, .expr hint e⟩, role⟩) : R s ((checkExpr hint e).after s) :=
  h.ofExpr hp

theorem loopInit {ret : Ty} {init : Option Stmt}
    (hp : ∀ p ∈ (init.map fun st => Part.always s (.stmt ret st)).toList, p.Holds E R) :
    R s ((loopInit ret init).after s) := by
  cases init with
  | none => exact h.stmtRefl s
  | some st => exact hp _ List.mem_cons_self

theorem loopCondition {condition : Option Expr}
    (hp : ∀ p ∈ (condition.map fun e => Part.always s (.expr none e)).toList, p.Holds E R) :
    R s ((loopCondition condition).after s) := by
  cases condition with
  | none => exact h.stmtRefl s
  | some e => exact h.stmtTrans (h.visitExpr (hp _ List.mem_cons_self)) (h.checkCondition "For" _)

theorem loopStep {step : Option Expr}
    (hp : ∀ p ∈ (step.map fun e => Part.mk ⟨s, .expr none e⟩ .eachRound).toList, p.Holds E R) :
    R s ((loopStep step).after s) := by
  cases step with
  | none => exact h.stmtRefl s
  | some e => exact h.stmtTrans (h.visitExpr (hp _ List.mem_cons_self)) (h.reportOutcome _)

/-- A block leaves the current scope alone, as an expression does. -/
theorem block {ret : Ty} (span : Span) {modifier : Modifier} {body : List Stmt} (hA : A .scope)
    (hp : R ((enterBlock modifier).after s)
      ((checkStmts ret body).after ((enterBlock modifier).after s))) :
    E s ((checkStmt ret (.block span modifier body)).after s) := by
  rw [checkStmt]
  simp only [after_bind, after_withinRegion, after_withinScope, after_pure]
  exact regionIf h.region (h.scope hA _ _ hp)

/-- The relation for statements holds across a statement if the relations do across its parts. -/
theorem stmt {ret : Ty} {st : Stmt} (hp : ∀ p ∈ stmtParts s ret st, p.Holds E R)
    (hF : ∀ p ∈ stmtParts s ret st, p.role = .elsewhere → A (.frame p.state.table.current))
    (hA : st.Allowed A) : R s ((checkStmt ret st).after s) := by
  cases st with
  | expression span value =>
    simp only [stmtParts, List.mem_singleton, forall_eq] at hp
    exact h.stmtTrans (h.visitExpr hp) (h.reportOutcome _)
  | declare span head init =>
    cases init with
    | none => exact h.finishDeclare span head none hA
    | some init =>
      simp only [stmtParts, List.mem_singleton, forall_eq] at hp
      rw [checkStmt]
      refine h.stmtBind (h.visitExpr hp) ?_
      split
      · exact h.finishDeclare _ _ _ hA
      · exact h.declareAnyway _ _ _ _ hA
  | function span head body =>
    rw [checkStmt, after_checkFunction]
    simp only [stmtParts] at hp hF
    have hhead := h.reportHead (s := s) span head
    -- a function whose name is taken is not entered
    by_cases hc : ((ThreadRegions.reportHead span head).after s).clashes head.name
    · simp only [hc, if_true]
      exact h.stmtTrans hhead (h.report _ _)
    · simp only [hc, if_false, Bool.false_eq_true, List.mem_singleton, forall_eq] at hp hF ⊢
      refine h.stmtTrans (h.stmtTrans hhead (h.declareFunction head hA)) (h.ofExpr ?_)
      exact regionIf h.region (h.functionFrame _ _ _ (hF trivial) hp)
  | ret span value =>
    cases value with
    | none =>
      rw [checkStmt]
      exact h.stmtBind (h.checkReturnType _ _ _) (h.stmtRefl _)
    | some value =>
      simp only [stmtParts, List.mem_singleton, forall_eq] at hp
      rw [checkStmt]
      refine h.stmtBind (h.visitExpr hp) ?_
      split
      · exact h.stmtBind (h.checkReturnType _ _ _) (h.stmtRefl _)
      · exact h.report _ _
  | block span modifier body =>
    simp only [stmtParts, List.mem_singleton, forall_eq] at hp
    exact h.ofExpr (h.block span hA hp)
  | cond span condition yes no =>
    simp only [stmtParts, List.forall_mem_cons] at hp
    obtain ⟨hc, hy, hn⟩ := hp
    have hyes : R s _ := h.stmtTrans (h.stmtTrans (h.visitExpr hc) (h.checkCondition "If" _)) hy
    cases no with
    | none => exact hyes
    | some branch =>
      exact h.stmtTrans hyes (hn _ List.mem_cons_self)
  | whileLoop span condition body shared =>
    simp only [stmtParts, List.forall_mem_cons] at hp
    obtain ⟨hc, hb, -⟩ := hp
    rw [checkStmt]
    refine h.stmtBind (h.visitExpr hc) (h.stmtBind (h.checkCondition "While" _) ?_)
    simp only [after_bind, after_withinRegion, after_pure]
    exact regionIf h.stmtRegion hb
  | forLoop span init condition step body shared =>
    rw [after_forLoop]
    -- everything happens in the scope of the loop, which is left at the end
    refine h.ofExpr (h.scope hA _ _ ?_)
    simp only [stmtParts, List.forall_mem_append] at hp
    obtain ⟨⟨⟨hi, hc⟩, hs⟩, hb⟩ := hp
    have hbody := regionIf h.stmtRegion (hb _ List.mem_cons_self)
    exact h.stmtTrans (h.stmtTrans (h.stmtTrans (h.loopInit hi) (h.loopCondition hc))
      (h.loopStep hs)) hbody
  | forEach span name symbol iterable body shared =>
    simp only [stmtParts, List.forall_mem_cons] at hp
    obtain ⟨hi, hb⟩ := hp
    rw [checkStmt]
    refine h.stmtBind (h.visitExpr hi) ?_
    unfold Outcome.thenParts at hb
    split
    · exact h.report _ _
    · next t ht =>
      simp only [ht] at hb
      split
      · exact h.report _ _
      · next element he =>
        simp only [he, List.mem_singleton, forall_eq] at hb
        rw [after_withinScope]
        refine h.ofExpr (h.round hA _ _ name element ?_)
        simp only [after_bind, after_withinRegion, after_pure, after_askLedger]
        exact regionIf h.stmtRegion hb
  | leave span => exact h.stmtRefl s
  | next span => exact h.stmtRefl s
  | importModule span module space statements =>
    cases space with
    | none => exact h.ofExpr (h.note s _ _)
    | some space =>
      obtain ⟨hspaces, hscopes⟩ := hA
      rw [checkStmt, after_checkImport]
      simp only [stmtParts] at hp
      cases he : namespaceError? s.table space with
      | some cause => exact h.report s _
      | none =>
        -- the namespace is new, so it can be put into the table
        have hspace : R s ((addSpace space).after s) := h.space hspaces s space (lookup_eq_none he)
        simp only [he] at hp ⊢
        cases ha : (addSpace space).answer s with
        | none => exact hspace
        | some id =>
          simp only [ha, List.mem_singleton, forall_eq] at hp
          have hreg := h.registerFunctions (s := (addSpace space).after s) space statements hspaces
          have hmodule := h.ofExpr (h.module _ _ (h.scope hscopes _ _ hp))
          exact h.stmtTrans (h.stmtTrans hspace hreg)
            (h.stmtTrans (h.ofExpr (h.note _ _ _)) hmodule)

/-! ### Lists and bodies -/

/-- Arguments from left to right, up to the first one that does not fit. -/
theorem args {function : String} {index : Nat} {params : List Ty} {es : List Expr}
    (hp : ∀ p ∈ (Point.mk s (.args function index params es)).parts, p.Holds E R) :
    E s ((checkArgs function index params es).after s) := by
  cases es with
  | nil => exact h.refl s
  | cons arg others =>
    obtain ⟨harg, hp⟩ := List.forall_mem_cons.1 hp
    have hs : E s ((checkExpr params.head? arg).after s) := harg
    rw [checkArgs, after_bind]
    unfold Outcome.thenParts at hp
    split
    · exact hs
    · next received hr =>
      simp only [hr] at hp
      split
      · exact hs
      · next hn =>
        simp only [hn, List.mem_singleton, forall_eq] at hp
        exact h.trans hs hp

/-- Elements from left to right, up to the first one that does not fit. -/
theorem elements {start : Position} {first : Option Ty} {es : List Expr}
    (hp : ∀ p ∈ (Point.mk s (.elements start first es)).parts, p.Holds E R) :
    E s ((checkElements start first es).after s) := by
  cases es with
  | nil => exact h.refl s
  | cons element others =>
    obtain ⟨helement, hp⟩ := List.forall_mem_cons.1 hp
    have hs : E s ((checkExpr none element).after s) := helement
    rw [checkElements, after_bind]
    unfold Outcome.thenParts at hp
    split
    · exact hs
    · next t ht =>
      simp only [ht] at hp
      -- a range among the elements counts as its numbers
      generalize (if ((checkExpr none element).answer s).expr.isRange then Ty.int else t) = t at hp
      simp only [after_ite]
      split
      · next ha =>
        simp only [ha, if_true, List.mem_singleton, forall_eq] at hp
        exact h.trans hs hp
      · exact hs

theorem body {start : Position} {ret : Ty} {b : Body}
    (hp : ∀ p ∈ (Point.mk s (.body start ret b)).parts, p.Holds E R) :
    R s ((checkBody start ret b).after s) := by
  cases b with
  | expr value => exact h.visitExpr (hp _ List.mem_cons_self)
  | block statements => exact hp _ List.mem_cons_self

/-- Statements are all visited, whatever is wrong with those before. -/
theorem stmts {ret : Ty} {sts : List Stmt}
    (hp : ∀ p ∈ (Point.mk s (.stmts ret sts)).parts, p.Holds E R) :
    R s ((checkStmts ret sts).after s) := by
  cases sts with
  | nil => exact h.stmtRefl s
  | cons st others =>
    simp only [Point.parts, List.forall_mem_cons] at hp
    obtain ⟨hst, hothers, -⟩ := hp
    exact h.stmtTrans hst hothers

/-! ### All visits -/

/-- The relations hold across a point if they hold across its parts.  Waiting for a thread has no
parts. -/
theorem point {p : Point} (hp : ∀ q ∈ p.parts, q.Holds E R)
    (hF : ∀ q ∈ p.parts, q.role = .elsewhere → A (.frame q.state.table.current))
    (hA : p.visit.Allowed A) (hw : ∀ id name, p.visit = .wait id name → p.Holds E R) :
    p.Holds E R := by
  obtain ⟨s, v⟩ := p
  cases v with
  | expr hint e => exact h.expr hp hF
  | args function index params es => exact h.args hp
  | elements start first es => exact h.elements hp
  | body start ret b => exact h.body hp
  | stmt ret st => exact h.stmt hp hF hA
  | stmts ret sts => exact h.stmts hp
  | wait id name => exact hw id name rfl

end StableIn

/-- The walk begins a function or a lambda in the scope, somewhere inside of the point. -/
def Point.OpensFrame (p : Point) (c : ScopeId) : Prop :=
  ∃ (r : Point) (q : Part), p.Inside r ∧ q ∈ r.parts ∧ q.role = .elsewhere ∧
    q.state.table.current = c

/-- Inside of a part is inside of the point. -/
theorem Point.OpensFrame.of_part {p : Point} {q : Part} {c : ScopeId} (hq : q ∈ p.parts)
    (h : q.toPoint.OpensFrame c) : p.OpensFrame c := by
  obtain ⟨r, q', hr, h⟩ := h
  exact ⟨r, q', .part hq hr, h⟩

/-- The relations hold across every visit if they hold across waiting for one thread. -/
theorem StableIn.visit {A : Effect → Prop} {E R : Checker → Checker → Prop} (h : StableIn A E R)
    (hw : ∀ s id name, E s ((syncPending id name).after s)) (p : Point)
    (hA : ∀ e, (∀ c, e ≠ .frame c) → A e) (hF : ∀ c, p.OpensFrame c → A (.frame c)) :
    p.Holds E R := by
  -- parts walk over smaller trees
  induction hn : p.visit.size using Nat.strongRecOn generalizing p with
  | ind n ih =>
    refine h.point (fun q hq => ih _ ?_ q.toPoint (fun c hc => hF c (hc.of_part hq)) rfl)
      (fun q hq hrole => hF _ ⟨p, q, .refl p, hq, hrole, rfl⟩) (p.visit.allowed hA)
      fun id name hv => ?_
    · exact hn ▸ (mem_parts hq).size_lt
    · obtain ⟨s, v⟩ := p
      cases hv
      exact hw s id name

/-- The effects of a construct are among the given ones. -/
def Construct.Allowed (A : Effect → Prop) : Construct → Prop
  | .variable => A .declare
  | .function => A .declare ∧ ∀ c, A (.frame c)
  | .lambda => ∀ c, A (.frame c)
  | .scope => A .scope
  | .module => A .space ∧ A .scope

/-- The effects of a visit itself are those of its own constructs. -/
theorem Visit.allowed_of_constructs {A : Effect → Prop} {v : Visit}
    (h : ∀ k ∈ v.constructs, k.Allowed A) : v.Allowed A := by
  cases v with
  | stmt ret st =>
    cases st with
    | declare => exact h .variable List.mem_cons_self
    | function => exact (h .function List.mem_cons_self).1
    | block => exact h .scope List.mem_cons_self
    | forLoop => exact h .scope List.mem_cons_self
    | forEach => exact h .scope List.mem_cons_self
    | importModule _ _ space _ =>
      cases space with
      | none => trivial
      | some _ => exact h .module List.mem_cons_self
    | _ => trivial
  | _ => trivial

/-- The relations hold across the visit of a tree that has only constructs with effects that they
allow. -/
theorem StableIn.visitTree {A : Effect → Prop} {E R : Checker → Checker → Prop}
    (h : StableIn A E R) (hw : ∀ s id name, E s ((syncPending id name).after s)) (p : Point)
    (hA : ∀ k ∈ p.visit.constructs, k.Allowed A) : p.Holds E R := by
  -- parts walk over smaller trees, which have no further constructs
  induction hn : p.visit.size using Nat.strongRecOn generalizing p with
  | ind n ih =>
    refine h.point (fun q hq => ?_) (fun q hq hrole => ?_) (Visit.allowed_of_constructs hA)
      fun id name hv => ?_
    · have hwithin := mem_parts hq
      exact ih _ (hn ▸ hwithin.size_lt) q.toPoint (fun k hk => hA k (hwithin.constructs k hk)) rfl
    · rcases (mem_parts hq).frame hrole with hk | hk
      · exact (hA _ hk).2 _
      · exact hA _ hk _
    · obtain ⟨s, v⟩ := p
      cases hv
      exact hw s id name

namespace Stable

variable {E R : Checker → Checker → Prop} (h : Stable E R)

include h

/-- The relations hold across a point if they hold across its parts. -/
theorem point {p : Point} (hp : ∀ q ∈ p.parts, q.Holds E R)
    (hw : ∀ id name, p.visit = .wait id name → p.Holds E R) : p.Holds E R :=
  StableIn.point h hp (fun _ _ _ => trivial) (p.visit.allowed fun _ _ => trivial) hw

/-- The relations hold across every visit if they hold across waiting for one thread. -/
theorem visit (hw : ∀ s id name, E s ((syncPending id name).after s)) (p : Point) :
    p.Holds E R :=
  StableIn.visit h hw p (fun _ _ => trivial) fun _ _ => trivial

theorem visitAfter (hw : ∀ s id name, E s ((syncPending id name).after s)) (s : Checker)
    (v : Visit) : R s (v.after s) := by
  have hv := h.visit hw ⟨s, v⟩
  cases v with
  | expr hint e => exact h.ofExpr hv
  | args function index params es => exact h.ofExpr hv
  | elements start first es => exact h.ofExpr hv
  | wait id name => exact h.ofExpr hv
  | body start ret b => exact hv
  | stmt ret st => exact hv
  | stmts ret sts => exact hv

end Stable

end ThreadRegions
