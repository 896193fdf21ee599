import ThreadRegions.Proofs.Report
import ThreadRegions.Proofs.Rule
import ThreadRegions.Proofs.Shape

/-!
# Expressions without an error

The walk over an expression is taken apart from its end: if it has a type in the end, then so have
the parts that are looked at on the way, and each of the questions that are asked between them has
been answered with yes.

## Main Definitions

* `Succeeds`, `ListSucceeds`: an action without an error
* `Follows`: a visit follows one of the rules

## Main Results

* `follows_expr`: an expression without an error follows one of the rules
* `follows_args`, `follows_elements`: so do arguments and elements
-/

namespace ThreadRegions

open CheckM

/-! ### Actions without an error -/

/-- Noting a type that has been noted before changes nothing. -/
theorem Expr.withType_of_type? {e : Expr} {t : Ty} (h : e.type? = some t) : e.withType t = e := by
  have hnode : { e.node with type := some t } = e.node := by rw [← h]; rfl
  rw [Expr.withType, hnode]
  cases e <;> rfl

/-- Only a name can stand for a namespace. -/
theorem Table.namespaceOf?_eq_some {t : Table} {object : Expr} {space : SymbolId}
    (h : t.namespaceOf? object = some space) :
    ∃ m name, object = .var m name ∧ t.lookup name = some space ∧
      (t.symbol space).isNamespace = true := by
  obtain ⟨hl, hspace⟩ := Option.filter_eq_some_iff.1 h
  obtain ⟨name, hname, hl⟩ := Option.bind_eq_some_iff.1 hl
  cases object with
  | var m other =>
    cases hname
    exact ⟨m, name, rfl, hl, hspace⟩
  | _ => cases hname

/-- The action gives the expression `e` of type `t`, and ends in the state `s'`. -/
def Succeeds (m : CheckM Outcome) (s : Checker) (e : Expr) (t : Ty) (s' : Checker) : Prop :=
  m.answer s = ⟨e, .ok t⟩ ∧ m.after s = s'

/-- The action gives the expressions `es` of types `ts`, and ends in the state `s'`. -/
def ListSucceeds (m : CheckM ListOutcome) (s : Checker) (es : List Expr) (ts : List Ty)
    (s' : Checker) : Prop :=
  m.answer s = ⟨es, .ok ts⟩ ∧ m.after s = s'

namespace Succeeds

variable {m : CheckM Outcome} {s s' : Checker} {e e' : Expr} {t t' : Ty}

/-- An expression without a type is visited. -/
theorem unlessKnown (h : Succeeds (unlessKnown e m) s e' t s') (hn : e.type? = none) :
    Succeeds m s e' t s' := by
  rwa [ThreadRegions.unlessKnown, hn] at h

/-- Going on after a part means that the part has no error. -/
theorem andThen {wrap : Expr → Expr} {next : Ty → Expr → CheckM Outcome}
    (h : Succeeds (m >>= fun o => o.andThen wrap next) s e t s') :
    ∃ e₁ t₁ s₁, Succeeds m s e₁ t₁ s₁ ∧ Succeeds (next t₁ e₁) s₁ e t s' := by
  obtain ⟨hans, hafter⟩ := h
  rw [answer_bind] at hans
  rw [after_bind] at hafter
  -- after an error the action would not go on
  cases ho : (m.answer s).type with
  | error d =>
    simp only [Outcome.andThen, ho, answer_pure, Outcome.mk.injEq, reduceCtorEq, and_false] at hans
  | ok t₁ =>
    simp only [Outcome.andThen, ho] at hans hafter
    exact ⟨(m.answer s).expr, t₁, m.after s, ⟨by rw [← ho], rfl⟩, hans, hafter⟩

theorem listAndThen {m : CheckM ListOutcome} {wrap : List Expr → Expr}
    {next : List Ty → List Expr → CheckM Outcome}
    (h : Succeeds (m >>= fun o => o.andThen wrap next) s e t s') :
    ∃ es ts s₁, ListSucceeds m s es ts s₁ ∧ Succeeds (next ts es) s₁ e t s' := by
  obtain ⟨hans, hafter⟩ := h
  rw [answer_bind] at hans
  rw [after_bind] at hafter
  cases ho : (m.answer s).types with
  | error d =>
    simp only [ListOutcome.andThen, ho, answer_pure, Outcome.mk.injEq, reduceCtorEq, and_false]
      at hans
  | ok ts =>
    simp only [ListOutcome.andThen, ho] at hans hafter
    exact ⟨(m.answer s).exprs, ts, m.after s, ⟨by rw [← ho], rfl⟩, hans, hafter⟩

/-- An action that is done ends where it is. -/
theorem succeed (h : Succeeds (Outcome.succeed e t) s e' t' s') :
    e' = e.withType t ∧ t' = t ∧ s' = s := by
  obtain ⟨hans, rfl⟩ := h
  cases hans
  exact ⟨rfl, rfl, rfl⟩

/-- An action that fails does not succeed. -/
theorem not_fail {cause : Cause} : ¬ Succeeds (Outcome.fail e cause) s e' t s' := by
  rintro ⟨hans, -⟩
  cases hans

/-- A rule that is asked at the end has answered with a type. -/
theorem settle {r : Except Cause Ty} (h : Succeeds (Outcome.settle e r) s e' t s') :
    r = .ok t ∧ e' = e.withType t ∧ s' = s := by
  cases r with
  | error cause => exact absurd h not_fail
  | ok a =>
    obtain ⟨rfl, rfl, rfl⟩ := succeed h
    exact ⟨rfl, rfl, rfl⟩

theorem ite {c : Prop} [Decidable c] {m' : CheckM Outcome}
    (h : Succeeds (if c then m else m') s e t s') :
    c ∧ Succeeds m s e t s' ∨ ¬ c ∧ Succeeds m' s e t s' := by
  by_cases hc : c
  · exact .inl ⟨hc, by rwa [if_pos hc] at h⟩
  · exact .inr ⟨hc, by rwa [if_neg hc] at h⟩

theorem ofTable {f : Table → CheckM Outcome} (h : Succeeds (table >>= f) s e t s') :
    Succeeds (f s.table) s e t s' := h

theorem ofGet {f : Checker → CheckM Outcome} (h : Succeeds (get >>= f) s e t s') :
    Succeeds (f s) s e t s' := h

theorem resolve {name : String} {f : Option SymbolId → CheckM Outcome}
    (h : Succeeds (CheckM.resolve name >>= f) s e t s') :
    s.table.lookup name = none ∧ Succeeds (f none) s e t s' ∨
      ∃ id, s.table.lookup name = some id ∧ Succeeds (f (some id)) (s.captured id) e t s' := by
  obtain ⟨hans, hafter⟩ := h
  rw [answer_bind] at hans
  rw [after_bind] at hafter
  cases hl : s.table.lookup name with
  | none =>
    rw [(after_resolve_none hl).1, (after_resolve_none hl).2] at hans hafter
    exact .inl ⟨rfl, hans, hafter⟩
  | some id =>
    rw [(after_resolve_some hl).1, (after_resolve_some hl).2] at hans hafter
    exact .inr ⟨id, rfl, hans, hafter⟩

/-! ### From actions to visits -/

/-- The parts that depend on a type are those for the type that has been found. -/
theorem thenParts (h : Succeeds m s e t s') (next : Ty → Expr → List Part) :
    (m.answer s).thenParts next = next t e := by
  rw [h.1]
  rfl

/-- The errors of an expression are put behind those that have been there. -/
theorem reports {hint : Option Ty} (h : Succeeds (checkExpr hint e) s e' t s') : s.Reports s' :=
  h.2 ▸ reports_visit s (.expr hint e)

/-- An action without an error and without a report is what the rules speak about. -/
theorem gives {hint : Option Ty} (h : Succeeds (checkExpr hint e) s e' t s')
    (hs : s'.errors = s.errors) : Gives s (.expr hint e) (.expr e' t) s' := by
  refine ⟨?_, h.2, hs⟩
  simp [Visit.reply?, h.1, Except.toOption]

end Succeeds

namespace ListSucceeds

variable {s s' : Checker} {es es' : List Expr} {ts : List Ty}

theorem argsReports {function : String} {index : Nat} {params : List Ty}
    (h : ListSucceeds (checkArgs function index params es) s es' ts s') : s.Reports s' :=
  h.2 ▸ reports_visit s (.args function index params es)

theorem elementsReports {start : Position} {first : Option Ty}
    (h : ListSucceeds (checkElements start first es) s es' ts s') : s.Reports s' :=
  h.2 ▸ reports_visit s (.elements start first es)

theorem givesArgs {function : String} {index : Nat} {params : List Ty}
    (h : ListSucceeds (checkArgs function index params es) s es' ts s')
    (hs : s'.errors = s.errors) : Gives s (.args function index params es) (.exprs es' ts) s' := by
  refine ⟨?_, h.2, hs⟩
  simp [Visit.reply?, h.1, Except.toOption]

/-- The first of several expressions has no error. -/
theorem first {check : CheckM Outcome} {others : List Expr}
    {next : Outcome → Ty → CheckM ListOutcome}
    (h : ListSucceeds (check >>= fun o =>
      match o.type with
      | .error d => pure ⟨o.expr :: others, .error d⟩
      | .ok t => next o t) s es' ts s') :
    ∃ e t s₁, Succeeds check s e t s₁ ∧ ListSucceeds (next ⟨e, .ok t⟩ t) s₁ es' ts s' := by
  obtain ⟨hans, hafter⟩ := h
  rw [answer_bind] at hans
  rw [after_bind] at hafter
  cases ho : (check.answer s).type with
  | error d =>
    rw [ho] at hans
    cases hans
  | ok t =>
    simp only [ho] at hans hafter
    have heq : check.answer s = ⟨(check.answer s).expr, .ok t⟩ := by rw [← ho]
    rw [heq] at hans hafter
    exact ⟨_, t, _, ⟨heq, rfl⟩, hans, hafter⟩

/-- The others after the first one have no error either. -/
theorem cons {m : CheckM ListOutcome} {e : Expr} {t : Ty}
    (h : ListSucceeds (m >>= fun rest => pure ⟨e :: rest.exprs, rest.types.map (t :: ·)⟩)
      s es' ts s') :
    ∃ others types, ListSucceeds m s others types s' ∧ es' = e :: others ∧ ts = t :: types := by
  obtain ⟨hans, hafter⟩ := h
  rw [answer_bind, answer_pure] at hans
  cases ho : (m.answer s).types with
  | error d =>
    rw [ho] at hans
    cases hans
  | ok types =>
    rw [ho] at hans
    cases hans
    exact ⟨(m.answer s).exprs, types, ⟨by rw [← ho], hafter⟩, rfl, rfl⟩

theorem givesElements {start : Position} {first : Option Ty}
    (h : ListSucceeds (checkElements start first es) s es' ts s')
    (hs : s'.errors = s.errors) : Gives s (.elements start first es) (.exprs es' ts) s' := by
  refine ⟨?_, h.2, hs⟩
  simp [Visit.reply?, h.1, Except.toOption]

end ListSucceeds

namespace Gives

variable {s s' : Checker} {r : Reply}

/-- What the rules speak about is an action without an error. -/
theorem expr {hint : Option Ty} {e : Expr} (h : Gives s (.expr hint e) r s') :
    ∃ e' t, r = .expr e' t ∧ Succeeds (checkExpr hint e) s e' t s' := by
  obtain ⟨hr, ha, -⟩ := h
  simp only [Visit.reply?, Option.map_eq_some_iff] at hr
  obtain ⟨t, ht, rfl⟩ := hr
  refine ⟨_, t, rfl, ?_, ha⟩
  cases ho : ((checkExpr hint e).answer s).type with
  | error d => rw [ho] at ht; cases ht
  | ok t' =>
    rw [ho] at ht
    cases ht
    rw [← ho]

theorem args {function : String} {index : Nat} {params : List Ty} {es : List Expr}
    (h : Gives s (.args function index params es) r s') :
    ∃ es' ts, r = .exprs es' ts ∧
      ListSucceeds (checkArgs function index params es) s es' ts s' := by
  obtain ⟨hr, ha, -⟩ := h
  simp only [Visit.reply?, Option.map_eq_some_iff] at hr
  obtain ⟨ts, hts, rfl⟩ := hr
  refine ⟨_, ts, rfl, ?_, ha⟩
  cases ho : ((checkArgs function index params es).answer s).types with
  | error d => rw [ho] at hts; cases hts
  | ok ts' =>
    rw [ho] at hts
    cases hts
    rw [← ho]

theorem elements {start : Position} {first : Option Ty} {es : List Expr}
    (h : Gives s (.elements start first es) r s') :
    ∃ es' ts, r = .exprs es' ts ∧ ListSucceeds (checkElements start first es) s es' ts s' := by
  obtain ⟨hr, ha, -⟩ := h
  simp only [Visit.reply?, Option.map_eq_some_iff] at hr
  obtain ⟨ts, hts, rfl⟩ := hr
  refine ⟨_, ts, rfl, ?_, ha⟩
  cases ho : ((checkElements start first es).answer s).types with
  | error d => rw [ho] at hts; cases hts
  | ok ts' =>
    rw [ho] at hts
    cases hts
    rw [← ho]

end Gives

/-- What is known about the points of a list, if they are visited without an error. -/
def Covers (Q : Checker → Visit → Reply → Checker → Prop) (ps : List Point) : Prop :=
  ∀ {s v r s'}, ⟨s, v⟩ ∈ ps → v.Fresh → Gives s v r s' → Q s v r s'

/-- The visit follows one of the rules, for all that can be known about its parts. -/
def Follows (s : Checker) (v : Visit) (r : Reply) (s' : Checker) : Prop :=
  ∀ Q, Covers Q (Point.mk s v).children → Rule Q s v r s' (Point.mk s v).children

/-- The points inside of a visit are computed first, and then the rule is chosen. -/
theorem Follows.of_children {s s' : Checker} {v : Visit} {r : Reply} {ps : List Point}
    (hc : (Point.mk s v).children = ps) (h : ∀ Q, Covers Q ps → Rule Q s v r s' ps) :
    Follows s v r s' :=
  fun Q hQ => hc ▸ h Q (hc ▸ hQ)

@[simp] theorem Part.toPoint_always (s : Checker) (v : Visit) :
    (Part.always s v).toPoint = ⟨s, v⟩ := rfl

/-- An expression without a type has all its parts as points. -/
theorem children_expr (s : Checker) (hint : Option Ty) {e : Expr} (hn : e.type? = none) :
    (Point.mk s (.expr hint e)).children = (exprParts s hint e).map Part.toPoint := by
  simp [Point.children, Point.parts, hn]

/-! ### Calls -/

/-- A call without an error, of the function that gives a length or of any other one. -/
theorem Succeeds.checkCall {node : Node} {callee e : Expr} {args : List Expr}
    {check : CheckM Outcome} {checkArgs : String → List Ty → CheckM ListOutcome} {s s' : Checker}
    {t : Ty} (h : Succeeds (checkCall node callee args check checkArgs) s e t s') :
    (s.table.callsLen callee = true ∧ ∃ args' a, args.length = 1 ∧
      ListSucceeds (checkArgs "len" []) s args' [a] s' ∧ a.isHeap = true ∧ t = .int ∧
        e = (Expr.call node (callee.withType (.function .int [a])) args').withType .int) ∨
    (s.table.callsLen callee = false ∧
      (callee.mutation?.filter fun (object, _) => s.table.isFrozen object) = none ∧
      ∃ callee' params quals variadic args' ts s₁,
        Succeeds check s callee' (.fn params quals t variadic) s₁ ∧
        arityFits params variadic args.length = true ∧
        ListSucceeds (checkArgs callee'.calleeName params) s₁ args' ts s' ∧
        e = (Expr.call node callee' args').withType t) := by
  unfold ThreadRegions.checkCall at h
  -- the function that gives a length is a case of its own, and takes one argument of any heap type
  rcases h.ofTable.ite with ⟨hlen, h⟩ | ⟨hlen, h⟩
  · refine .inl ⟨hlen, ?_⟩
    unfold checkLen at h
    rcases h.ite with ⟨-, h⟩ | ⟨hone, h⟩
    · exact absurd h Succeeds.not_fail
    · obtain ⟨args', ts, s₁, hargs, h⟩ := h.listAndThen
      split at h
      · next a =>
        rcases h.ite with ⟨hheap, h⟩ | ⟨-, h⟩
        · obtain ⟨rfl, rfl, rfl⟩ := h.succeed
          exact ⟨args', a, by simpa using hone, hargs, hheap, rfl, rfl⟩
        · exact absurd h Succeeds.not_fail
      · exact absurd h Succeeds.not_fail
  -- the callee must not change a frozen object, must be a function, and must take so many arguments
  · refine .inr ⟨by simpa using hlen, ?_⟩
    split at h
    · exact absurd h Succeeds.not_fail
    · next hm =>
      refine ⟨hm, ?_⟩
      obtain ⟨callee', type, s₁, hcallee, h⟩ := h.andThen
      split at h
      · next params quals ret variadic =>
        rcases h.ite with ⟨hfits, h⟩ | ⟨-, h⟩
        · obtain ⟨args', ts, s₂, hargs, h⟩ := h.listAndThen
          obtain ⟨rfl, rfl, rfl⟩ := h.succeed
          exact ⟨callee', params, quals, variadic, args', ts, s₁, hcallee, hfits, hargs, rfl⟩
        · exact absurd h Succeeds.not_fail
      · exact absurd h Succeeds.not_fail

/-- A call without an error follows the rule for lengths or the rule for all other functions. -/
theorem follows_call {s s' : Checker} {hint : Option Ty} {n : Node} {callee e' : Expr}
    {args : List Expr} {t : Ty} (hf : (Expr.call n callee args).Fresh)
    (h : Succeeds (checkExpr hint (.call n callee args)) s e' t s') (hs : s'.errors = s.errors) :
    Follows s (.expr hint (.call n callee args)) (.expr e' t) s' := by
  have hc := children_expr s hint hf.type?_eq_none
  obtain ⟨hn, hcallee, hargs⟩ := hf
  rw [checkExpr] at h
  simp only [exprParts, callParts] at hc
  rcases (h.unlessKnown hn).checkCall with
    ⟨hlen, args', a, hone, hsucc, hheap, rfl, rfl⟩ |
    ⟨hlen, hm, callee', params, quals, variadic, args', ts, s₁, hsucc, hfits, hsucc', rfl⟩
  · rw [if_pos hlen, if_neg (by simp [hone])] at hc
    refine .of_children hc fun Q hQ => ?_
    -- only a bare variable can name the function that gives a length
    cases callee with
    | var m name => exact .len hlen (hQ (by simp) hargs (hsucc.givesArgs hs)) hheap
    | _ => simp [Table.callsLen, Expr.name?] at hlen
  -- callee and arguments are both silent, since the whole call is
  · obtain ⟨h₁, h₂⟩ := hsucc.reports.silent hsucc'.argsReports hs
    rw [if_neg (by simp [hlen]), hm] at hc
    simp only [hsucc.thenParts, hsucc.2, hfits, if_true] at hc
    refine .of_children hc fun Q hQ => ?_
    exact .call hlen (hQ (by simp) hcallee (hsucc.gives h₁)) hfits
      (hQ (by simp) hargs (hsucc'.givesArgs h₂))

/-- A thread without an error follows its rule.  The callee is visited first and the call after it,
which then finds a callee with a type. -/
theorem follows_spawn {s s' : Checker} {hint : Option Ty} {n m : Node} {callee e' : Expr}
    {args : List Expr} {mode : Option Modifier} {t : Ty}
    (hf : (Expr.spawn n (.call m callee args) mode).Fresh)
    (h : Succeeds (checkExpr hint (.spawn n (.call m callee args) mode)) s e' t s')
    (hs : s'.errors = s.errors) :
    Follows s (.expr hint (.spawn n (.call m callee args) mode)) (.expr e' t) s' := by
  have hc := children_expr s hint hf.type?_eq_none
  obtain ⟨hn, hm, hcallee, hargs⟩ := hf
  rw [checkExpr] at h
  obtain ⟨callee', type, s₁, hsucc, h⟩ := (h.unlessKnown hn).andThen
  -- the callee has been found, so its call is not the one that gives a length
  have hlen : ¬ s₁.table.callsLen callee' := by
    have := not_callsLen (s := s) hcallee.type?_eq_none (congrArg Outcome.type hsucc.1)
    rwa [hsucc.1, hsucc.2] at this
  split at h
  · next params quals ret variadic =>
    obtain ⟨call, a, s₂, hcall, h⟩ := h.ofTable.andThen
    have hk : (Expr.call m callee' args).type? = none := hm
    rcases (hcall.unlessKnown hk).checkCall with ⟨hlen', -⟩ |
      ⟨-, hmut, callee₂, params₂, quals₂, variadic₂, args', ts, s₃, hknown, hfits, hsucc', rfl⟩
    · exact absurd hlen' hlen
    · obtain ⟨hk₁, rfl⟩ := hknown
      cases hk₁
      obtain ⟨rfl, rfl, rfl⟩ := Succeeds.succeed (s := (note _ _).after s₂) h
      -- between callee and arguments only a note is added
      have hnote : s₁.Reports ((Outcome.known callee' (.fn params quals t variadic)).after s₁) :=
        .of_eq rfl rfl
      obtain ⟨h₁, h₂⟩ := hsucc.reports.silent (hnote.trans hsucc'.argsReports) hs
      obtain ⟨-, h₂⟩ := hnote.silent hsucc'.argsReports h₂
      simp only [exprParts, hsucc.thenParts, hk, hsucc.2, callParts, hlen, hmut,
        Bool.false_eq_true, if_false, List.nil_append] at hc
      rw [Succeeds.thenParts ⟨rfl, rfl⟩] at hc
      simp only [hfits, if_true] at hc
      refine .of_children hc fun Q hQ => ?_
      exact .spawn (hQ (by simp) hcallee (hsucc.gives h₁)) hfits
        (hQ (by simp) hargs (hsucc'.givesArgs h₂))
  · exact absurd h Succeeds.not_fail

/-! ### Lambdas -/

/-- If all parameters of a lambda have types, there are as many types. -/
theorem length_lambdaParamTypes {start : Position} {params : List Param} {types : List Ty}
    {s : Checker} (h : (lambdaParamTypes start params).answer s = .ok types) :
    types.length = params.length := by
  induction params generalizing s types with
  | nil => cases h; rfl
  | cons p others ih =>
    rw [lambdaParamTypes] at h
    split at h
    · cases h
    · next t _ =>
      rw [answer_bind] at h
      split at h
      · cases h
      · rw [answer_bind, answer_pure] at h
        cases hothers : (lambdaParamTypes start others).answer
            ((paramQualifier p.qualifier t p.span.start).after s) with
        | error d => rw [hothers] at h; cases h
        | ok ts =>
          rw [hothers] at h
          cases h
          rw [List.length_cons, List.length_cons, ih hothers]

/-- A lambda without an error: what its body is checked for and in which state, and what it looks
like afterwards. -/
theorem Succeeds.checkLambda {node : Node} {head : LambdaHead} {body : Body} {s s' : Checker}
    {e : Expr} {t : Ty}
    (h : Succeeds (checkLambda node head body fun ret => checkBody node.span.start ret body)
      s e t s') :
    ∃ ret types body' s₁, head.ret = some ret ∧
      (lambdaParamTypes node.span.start head.params).answer s = .ok types ∧
      isolatedReturnError? head.modifier ret true = none ∧
      (checkBody node.span.start ret body).answer ((enterLambda head types).after
        ((lambdaParamTypes node.span.start head.params).after s)) = (body', none) ∧
      (checkBody node.span.start ret body).after ((enterLambda head types).after
        ((lambdaParamTypes node.span.start head.params).after s)) = s₁ ∧
      s' = (leaveLambda head).after s₁ ∧
      e = (Expr.lambda node
        { head with
          params := (declareParams (head.params.zip types)).answer
            ((((enterRegionIf (head.modifier = .isolated)).after (pushLambda.after
              ((lambdaParamTypes node.span.start head.params).after s)))).onLedger
                Ledger.pushFrame)
          captures := (leaveLambda head).answer s₁ } body').withType t := by
  have hstart : (Expr.lambda node head body).start = node.span.start := rfl
  unfold ThreadRegions.checkLambda at h
  -- each of the questions before the body would have ended the check with an error
  cases hret : head.ret with
  | none =>
    rw [hret] at h
    exact absurd h Succeeds.not_fail
  | some ret =>
    rw [hret] at h
    obtain ⟨hans, hafter⟩ := h
    simp only [answer_bind, after_bind, hstart] at hans hafter
    cases ht : (lambdaParamTypes node.span.start head.params).answer s with
    | error d =>
      rw [ht] at hans
      cases hans
    | ok types =>
      simp only [ht] at hans hafter
      cases hm : isolatedReturnError? head.modifier ret true with
      | some cause =>
        rw [hm] at hans
        cases hans
      | none =>
        simp only [hm, answer_bind, after_bind, answer_withinRegion, after_withinRegion,
          answer_withinFrame, after_withinFrame, answer_pure, after_pure] at hans hafter
        split at hans
        · cases hans
        · next hb =>
          rw [hb] at hafter
          cases hans
          exact ⟨ret, types, _, _, rfl, rfl, hm, Prod.ext rfl hb, rfl, hafter.symm, rfl⟩

/-- Inside of a lambda its parameters are found. -/
theorem hasParams_enterLambda {s : Checker} (hw : s.table.WellFormed) (head : LambdaHead)
    {types : List Ty} (hlength : types.length = head.params.length) :
    ((enterLambda head types).after s).table.HasParams head.params
      ((declareParams (head.params.zip types)).answer
        (((enterRegionIf (head.modifier = .isolated)).after (pushLambda.after s)).onLedger
          Ledger.pushFrame)) := by
  have hpush : (pushLambda.after s).table.WellFormed := hw
  have hparams := hasParams_declareParams
    (s := ((enterRegionIf (head.modifier = .isolated)).after (pushLambda.after s)).onLedger
      Ledger.pushFrame) (hpush.enterRegionIf _).pushFrame (head.params.zip types)
  rw [List.map_fst_zip (Nat.le_of_eq hlength.symm)] at hparams
  exact hparams.alignLocals

namespace Checker.Reports

variable {s : Checker}

/-- Leaving a lambda adds no error. -/
theorem leaveLambda (head : LambdaHead) : s.Reports ((leaveLambda head).after s) :=
  ((onLedger _).trans (exitRegionIf _)).trans (popLambda.trans (.of_eq rfl rfl))

end Checker.Reports

/-- A lambda without an error follows its rule.  The state has to be well-formed for the parameters
to be found in the frame. -/
theorem follows_lambda {s s' : Checker} {hint : Option Ty} {n : Node} {head : LambdaHead}
    {body : Body} {e' : Expr} {t : Ty} (hf : (Expr.lambda n head body).Fresh)
    (hw : s.table.WellFormed) (h : Succeeds (checkExpr hint (.lambda n head body)) s e' t s')
    (hs : s'.errors = s.errors) :
    Follows s (.expr hint (.lambda n head body)) (.expr e' t) s' := by
  have hc := children_expr s hint hf.type?_eq_none
  obtain ⟨hn, hb⟩ := hf
  rw [checkExpr] at h
  obtain ⟨ret, types, body', s₁, hret, htypes, hm, hans, hafter, rfl, rfl⟩ :=
    (h.unlessKnown hn).checkLambda
  simp only [exprParts, lambdaParts, hret, htypes, hm] at hc
  refine .of_children hc fun Q hQ => ?_
  have hlength := length_lambdaParamTypes htypes
  have htable :=
    (Table.Lasts.stable.toStable.lambdaParamTypes n.span.start (head.infer hint).params hw).1
  have hparams := hasParams_enterLambda htable (head.infer hint) hlength
  have henter : s.Reports ((enterLambda (head.infer hint) types).after
      ((lambdaParamTypes n.span.start (head.infer hint).params).after s)) :=
    (Checker.Reports.stable.lambdaParamTypes _ _).trans (.enterLambda _ _)
  -- the state in which the body is checked stays closed from here on
  generalize hs₀ : (enterLambda (head.infer hint) types).after
    ((lambdaParamTypes n.span.start (head.infer hint).params).after s) = s₀ at *
  have hbody : s₀.Reports s₁ := hafter ▸ reports_visit s₀ (.body n.span.start ret body)
  obtain ⟨-, hs⟩ := henter.silent (hbody.trans (.leaveLambda _)) hs
  refine .lambda hret hs₀.symm hparams hlength
    (hQ (by simp) hb ⟨?_, hafter, (hbody.silent (.leaveLambda _) hs).1⟩)
  simp [Visit.reply?, hans]

/-! ### Waiting for threads -/

theorem sameButThreads_syncHandles (handles : List (Expr × SymbolId)) (s : Checker) :
    s.table.SameButThreads ((syncHandles handles).after s).table := by
  induction handles generalizing s with
  | nil => exact .refl _
  | cons first others ih =>
    obtain ⟨handle, id⟩ := first
    exact (sameButThreads_syncPending s id _).trans (ih _)

/-- All that happens while threads are waited for is waiting. -/
theorem visit_of_mem_waitParts {s : Checker} {handles : List (Expr × SymbolId)} {p : Part}
    (hp : p ∈ waitParts s handles) : ∃ id name, p.visit = .wait id name := by
  induction handles generalizing s with
  | nil => cases hp
  | cons first others ih =>
    rcases List.mem_cons.1 hp with rfl | hp
    · exact ⟨_, _, rfl⟩
    · exact ih hp

/-- The handles that have been waited for are variables, and get their types. -/
theorem vars_syncHandles {start : Position} {handles : List Expr} {ids : List SymbolId}
    {s : Checker} (h : (resolveHandles start handles).answer s = .ok ids) (s₁ : Checker) :
    List.Forall₂ (fun e e' => ∃ n name t, e = .var n name ∧ e' = (Expr.var n name).withType t)
      handles ((syncHandles (handles.zip ids)).answer s₁) := by
  have hhandles := resolveHandles_eq_ok_iff.1 h
  clear h
  induction hhandles generalizing s₁ with
  | nil => exact .nil
  | cons hfirst _ ih =>
    obtain ⟨n, name, rfl, -, -⟩ := hfirst
    exact .cons ⟨n, name, _, rfl, rfl⟩ (ih _)

theorem Succeeds.syncOne {node : Node} {handle e : Expr} {t : Ty} {s s' : Checker}
    (h : Succeeds (syncOne node handle) s e t s') :
    ∃ m name, handle = .var m name ∧ s.table.SameButThreads s'.table ∧
      e = (Expr.sync node ((Expr.var m name).withType t) false).withType t := by
  cases handle with
  | var m name =>
    refine ⟨m, name, rfl, ?_⟩
    have hname : (Expr.var m name).name? = some name := rfl
    have hafter := h.2
    unfold CheckM.syncOne at h
    -- the name must be visible and stand for a thread that is running
    rcases Succeeds.resolve h with ⟨-, h⟩ | ⟨id, hl, h⟩
    · cases h.1
    · rw [after_syncOne hname hl] at hafter
      have hsame := sameButThreads_syncPending (s.captured id) id name
      rw [toLedger_captured, hafter] at hsame
      refine ⟨hsame, ?_⟩
      replace h := h.ofTable
      rw [toLedger_captured] at h
      split at h
      · exact absurd h Succeeds.not_fail
      · exact absurd h Succeeds.not_fail
      · obtain ⟨hans, -⟩ := h
        rw [answer_bind] at hans
        split at hans
        · cases hans
        · cases hans
          rfl
  | _ => exact absurd h Succeeds.not_fail

theorem Succeeds.syncMany {node : Node} {handle e : Expr} {t : Ty} {s s' : Checker}
    (h : Succeeds (syncMany node handle) s e t s') :
    ∃ m handles ids, handle = .array m handles ∧
      (resolveHandles node.span.start handles).answer s = .ok ids ∧ t = .void ∧
      (syncHandles (handles.zip ids)).after
        ((resolveHandles node.span.start handles).after s) = s' ∧
      e = (Expr.sync node (.array m ((syncHandles (handles.zip ids)).answer
        ((resolveHandles node.span.start handles).after s))) true).withType .void := by
  cases handle with
  | array m handles =>
    have hstart : (Expr.sync node (.array m handles) true).start = node.span.start := rfl
    obtain ⟨hans, hafter⟩ := h
    simp only [CheckM.syncMany, hstart, answer_bind, after_bind] at hans hafter
    cases hids : (resolveHandles node.span.start handles).answer s with
    | error d =>
      rw [hids] at hans
      cases hans
    | ok ids =>
      simp only [hids] at hans hafter
      cases hans
      exact ⟨m, handles, ids, rfl, hids, rfl, hafter, rfl⟩
  | _ => exact absurd h Succeeds.not_fail

/-- Waiting for one thread or for several follows a rule, with or without reports. -/
theorem follows_sync {s s' : Checker} {hint : Option Ty} {n : Node} {handle : Expr}
    {isArray : Bool} {e' : Expr} {t : Ty} (hf : (Expr.sync n handle isArray).Fresh)
    (h : Succeeds (checkExpr hint (.sync n handle isArray)) s e' t s') :
    Follows s (.expr hint (.sync n handle isArray)) (.expr e' t) s' := by
  have hc := children_expr s hint hf.type?_eq_none
  rw [checkExpr] at h
  replace h := h.unlessKnown hf.1
  cases isArray with
  | true =>
    obtain ⟨m, handles, ids, rfl, hids, rfl, hafter, rfl⟩ := Succeeds.syncMany h
    simp only [exprParts, hids] at hc
    refine .of_children hc fun Q _ => .syncAll ?_ ?_ (vars_syncHandles hids _)
    · rw [← hafter, ← table_resolveHandles n.span.start handles s]
      exact sameButThreads_syncHandles _ _
    · intro p hp
      obtain ⟨q, hq, rfl⟩ := List.mem_map.1 hp
      exact visit_of_mem_waitParts hq
  | false =>
    obtain ⟨m, name, rfl, hsame, rfl⟩ := Succeeds.syncOne h
    refine fun Q _ => .sync hsame ?_
    intro p hp
    -- the only part is the wait itself, if the name is visible
    simp only [hc, exprParts, Expr.name?] at hp
    split at hp
    · cases hp
    · obtain rfl := List.mem_singleton.1 hp
      exact ⟨_, _, rfl⟩

/-! ### Expressions -/

/-- An assignment without an error: the name is visible and may be assigned to, the types agree, and
no heap value leaves its region. -/
theorem follows_assign {s s' : Checker} {hint : Option Ty} {n : Node} {name : String}
    {value e' : Expr} {t : Ty} (hf : (Expr.assign n name value).Fresh)
    (h : Succeeds (checkExpr hint (.assign n name value)) s e' t s') (hs : s'.errors = s.errors) :
    Follows s (.expr hint (.assign n name value)) (.expr e' t) s' := by
  have hc := children_expr s hint hf.type?_eq_none
  obtain ⟨hn, hv⟩ := hf
  rw [checkExpr] at h
  rcases (h.unlessKnown hn).resolve with ⟨-, h⟩ | ⟨id, hl, h⟩
  · cases h.1
  · replace h := h.ofTable
    rw [toLedger_captured] at h
    split at h
    · exact absurd h Succeeds.not_fail
    · next hmut =>
      replace h := h.ofTable
      rw [toLedger_captured] at h
      obtain ⟨value', received, s₁, hvalue, h⟩ := h.andThen
      -- the types must agree, and then the regions
      rcases Succeeds.ite h.ofTable with ⟨-, h⟩ | ⟨hagrees, h⟩
      · exact absurd h Succeeds.not_fail
      · rcases h.ite with ⟨-, h⟩ | ⟨hescape, h⟩
        · exact absurd h Succeeds.not_fail
        · obtain ⟨rfl, rfl, rfl⟩ := h.succeed
          -- being captured by a lambda is no error, so the value is checked as silently as the
          -- whole
          have herrors : (s.captured id).errors = s.errors := by
            simp only [Checker.captured]
            split <;> rfl
          simp only [exprParts, hl, hmut] at hc
          refine .of_children hc fun Q hQ => ?_
          refine .assign hl hmut (hQ (by simp) hv (hvalue.gives (hs.trans herrors.symm)))
            (by simpa using hagrees) fun hlt => ?_
          simpa [hlt] using hescape

/-- An assignment to an element without an error.  Its three parts are visited in order, with a
question after each of them. -/
theorem follows_indexAssign {s s' : Checker} {hint : Option Ty} {n : Node}
    {array index value e' : Expr} {t : Ty} (hf : (Expr.indexAssign n array index value).Fresh)
    (h : Succeeds (checkExpr hint (.indexAssign n array index value)) s e' t s')
    (hs : s'.errors = s.errors) :
    Follows s (.expr hint (.indexAssign n array index value)) (.expr e' t) s' := by
  have hc := children_expr s hint hf.type?_eq_none
  obtain ⟨hn, ha, hi, hv⟩ := hf
  rw [checkExpr] at h
  replace h := (h.unlessKnown hn).ofTable
  simp only [exprParts] at hc
  split at h
  · exact absurd h Succeeds.not_fail
  · next hfrozen =>
    obtain ⟨array', a, s₁, harray, h⟩ := h.andThen
    split at h
    · exact absurd h Succeeds.not_fail
    · next element helement =>
      obtain ⟨index', i, s₂, hindex, h⟩ := h.andThen
      rcases h.ite with ⟨-, h⟩ | ⟨hint', h⟩
      · exact absurd h Succeeds.not_fail
      · obtain ⟨value', v, s₃, hvalue, h⟩ := h.andThen
        rcases Succeeds.ite h with ⟨hagrees, h⟩ | ⟨-, h⟩
        · obtain ⟨rfl, rfl, rfl⟩ := h.succeed
          obtain ⟨h₁, h₂⟩ := harray.reports.silent (hindex.reports.trans hvalue.reports) hs
          obtain ⟨h₂, h₃⟩ := hindex.reports.silent hvalue.reports h₂
          have hint' : i.isIntegral = true := by simpa using hint'
          -- with all questions answered, the points inside are the three parts
          simp only [hfrozen, harray.thenParts, harray.2, helement, hindex.thenParts, hindex.2,
            hint', Bool.not_true, Bool.false_eq_true, if_false] at hc
          refine .of_children hc fun Q hQ => ?_
          exact .indexAssign hfrozen (hQ (by simp) ha (harray.gives h₁)) helement
            (hQ (by simp) hi (hindex.gives h₂)) hint' (hQ (by simp) hv (hvalue.gives h₃)) hagrees
        · exact absurd h Succeeds.not_fail

/-- An element without an error: what is indexed has elements, and the index is a number. -/
theorem follows_access {s s' : Checker} {hint : Option Ty} {n : Node} {array index e' : Expr}
    {t : Ty} (hf : (Expr.access n array index).Fresh)
    (h : Succeeds (checkExpr hint (.access n array index)) s e' t s') (hs : s'.errors = s.errors) :
    Follows s (.expr hint (.access n array index)) (.expr e' t) s' := by
  have hc := children_expr s hint hf.type?_eq_none
  obtain ⟨hn, ha, hi⟩ := hf
  rw [checkExpr] at h
  obtain ⟨array', a, s₁, harray, h⟩ := (h.unlessKnown hn).andThen
  split at h
  · exact absurd h Succeeds.not_fail
  · next element helement =>
    obtain ⟨index', i, s₂, hindex, h⟩ := h.andThen
    rcases h.ite with ⟨hnum, h⟩ | ⟨-, h⟩
    · obtain ⟨rfl, rfl, rfl⟩ := h.succeed
      obtain ⟨h₁, h₂⟩ := harray.reports.silent hindex.reports hs
      simp only [exprParts, harray.thenParts, harray.2, helement] at hc
      refine .of_children hc fun Q hQ => ?_
      exact .access (hQ (by simp) ha (harray.gives h₁)) helement
        (hQ (by simp) hi (hindex.gives h₂)) hnum
    · exact absurd h Succeeds.not_fail

/-- A range without an error.  Its first bound is known to be a number before the second one is
visited. -/
theorem follows_range {s s' : Checker} {hint : Option Ty} {n : Node} {first last e' : Expr}
    {t : Ty} (hf : (Expr.range n first last).Fresh)
    (h : Succeeds (checkExpr hint (.range n first last)) s e' t s') (hs : s'.errors = s.errors) :
    Follows s (.expr hint (.range n first last)) (.expr e' t) s' := by
  have hc := children_expr s hint hf.type?_eq_none
  obtain ⟨hn, ha, hb⟩ := hf
  rw [checkExpr] at h
  obtain ⟨first', a, s₁, hfirst, h⟩ := (h.unlessKnown hn).andThen
  rcases h.ite with ⟨-, h⟩ | ⟨hnum, h⟩
  · exact absurd h Succeeds.not_fail
  · obtain ⟨last', b, s₂, hlast, h⟩ := h.andThen
    rcases h.ite with ⟨hnum', h⟩ | ⟨-, h⟩
    · obtain ⟨rfl, rfl, rfl⟩ := h.succeed
      obtain ⟨h₁, h₂⟩ := hfirst.reports.silent hlast.reports hs
      have hnum : a.isNumber = true := by simpa using hnum
      simp only [exprParts, hfirst.thenParts, hfirst.2, hnum, Bool.not_true, Bool.false_eq_true,
        if_false] at hc
      refine .of_children hc fun Q hQ => ?_
      exact .range (hQ (by simp) ha (hfirst.gives h₁)) hnum
        (hQ (by simp) hb (hlast.gives h₂)) hnum'
    · exact absurd h Succeeds.not_fail

/-- A member of a namespace, if the object names one, and a member of a value otherwise. -/
theorem follows_member {s s' : Checker} {hint : Option Ty} {n : Node} {object e' : Expr}
    {name : String} {t : Ty} (hf : (Expr.member n object name).Fresh)
    (h : Succeeds (checkExpr hint (.member n object name)) s e' t s') (hs : s'.errors = s.errors) :
    Follows s (.expr hint (.member n object name)) (.expr e' t) s' := by
  have hc := children_expr s hint hf.type?_eq_none
  obtain ⟨hn, ho⟩ := hf
  rw [checkExpr] at h
  replace h := (h.unlessKnown hn).ofTable
  simp only [exprParts] at hc
  -- whether the object names a namespace decides about the rule
  split at h
  · next space hspace =>
    unfold checkNamespaceMember at h
    replace h := h.ofGet
    dsimp only at h
    split at h
    · next id hmember =>
      obtain ⟨rfl, rfl, rfl⟩ := h.succeed
      simp only [hspace] at hc
      exact .of_children hc fun Q _ => .spaceMember hspace hmember
    · exact absurd h Succeeds.not_fail
  · next hspace =>
    obtain ⟨object', a, s₁, hobject, h⟩ := h.andThen
    unfold checkValueMember at h
    split at h
    · next a' hmember =>
      obtain ⟨rfl, rfl, rfl⟩ := h.succeed
      simp only [hspace] at hc
      refine .of_children hc fun Q hQ => ?_
      exact .valueMember hspace (hQ (by simp) ho (hobject.gives hs)) hmember
    · exact absurd h.ofGet Succeeds.not_fail

/-- An expression that is checked without an error follows one of the rules. -/
theorem follows_expr {s s' : Checker} {hint : Option Ty} {e e' : Expr} {t : Ty} (hf : e.Fresh)
    (hw : s.table.WellFormed)
    (h : Succeeds (checkExpr hint e) s e' t s') (hs : s'.errors = s.errors) :
    Follows s (.expr hint e) (.expr e' t) s' := by
  -- in each case `hc` lists the points inside, and the assumption is taken apart from the outside
  -- in: what the check has gone on after has no error
  have hc := children_expr s hint hf.type?_eq_none
  cases e with
  | literal n v =>
    rw [checkExpr] at h
    obtain ⟨rfl, rfl, rfl⟩ := (h.unlessKnown hf).succeed
    exact .of_children hc fun Q _ => .literal
  | var n name =>
    rw [checkExpr] at h
    replace h := h.unlessKnown hf
    unfold checkVar at h
    -- the name is visible, is no namespace, and no thread is running for it
    rcases h.resolve with ⟨-, h⟩ | ⟨id, hl, h⟩
    · cases h.1
    · replace h := h.ofTable
      rw [toLedger_captured] at h
      rcases Succeeds.ite h with ⟨-, h⟩ | ⟨hspace, h⟩
      · exact absurd h Succeeds.not_fail
      · rcases h.ite with ⟨-, h⟩ | ⟨hpending, h⟩
        · exact absurd h Succeeds.not_fail
        · obtain ⟨rfl, rfl, rfl⟩ := h.succeed
          exact .of_children hc fun Q _ => .var hl (by simpa using hspace) (by simpa using hpending)
  | binary n op left right =>
    obtain ⟨hn, hl, hr⟩ := hf
    rw [checkExpr] at h
    obtain ⟨left', a, s₁, hleft, h⟩ := (h.unlessKnown hn).andThen
    obtain ⟨right', b, s₂, hright, h⟩ := h.andThen
    obtain ⟨hres, rfl, rfl⟩ := h.settle
    -- no report in the whole means none in the parts, from left to right
    obtain ⟨h₁, h₂⟩ := hleft.reports.silent hright.reports hs
    simp only [exprParts, hleft.thenParts, hleft.2] at hc
    refine .of_children hc fun Q hQ => ?_
    exact .binary (hQ (by simp) hl (hleft.gives h₁)) (hQ (by simp) hr (hright.gives h₂)) hres
  | unary n op operand =>
    obtain ⟨hn, ho⟩ := hf
    rw [checkExpr] at h
    obtain ⟨operand', a, s₁, hoperand, h⟩ := (h.unlessKnown hn).andThen
    obtain ⟨hres, rfl, rfl⟩ := h.settle
    refine .of_children hc fun Q hQ => ?_
    exact .unary (hQ (by simp [exprParts]) ho (hoperand.gives hs)) hres
  | assign n name value => exact follows_assign hf h hs
  | indexAssign n array index value => exact follows_indexAssign hf h hs
  | call n callee args => exact follows_call hf h hs
  | array n elements =>
    obtain ⟨hn, he⟩ := hf
    rw [checkExpr] at h
    obtain ⟨elements', ts, s₁, helements, h⟩ := (h.unlessKnown hn).listAndThen
    obtain ⟨rfl, rfl, rfl⟩ := h.succeed
    refine .of_children hc fun Q hQ => ?_
    exact .array (hQ (by simp [exprParts]) he (helements.givesElements hs))
  | access n array index => exact follows_access hf h hs
  | range n first last => exact follows_range hf h hs
  | increment n operand =>
    obtain ⟨hn, ho⟩ := hf
    rw [checkExpr] at h
    replace h := (h.unlessKnown hn).ofTable
    simp only [exprParts] at hc
    -- a frozen variable cannot be counted up, and this is asked before the operand is visited
    split at h
    · exact absurd h Succeeds.not_fail
    · next hfrozen =>
      obtain ⟨operand', a, s₁, hoperand, h⟩ := h.andThen
      rcases h.ite with ⟨hnum, h⟩ | ⟨-, h⟩
      · obtain ⟨rfl, rfl, rfl⟩ := h.succeed
        simp only [hfrozen] at hc
        refine .of_children hc fun Q hQ => ?_
        exact .increment hfrozen (hQ (by simp) ho (hoperand.gives hs)) hnum
      · exact absurd h Succeeds.not_fail
  | decrement n operand =>
    obtain ⟨hn, ho⟩ := hf
    rw [checkExpr] at h
    replace h := (h.unlessKnown hn).ofTable
    simp only [exprParts] at hc
    split at h
    · exact absurd h Succeeds.not_fail
    · next hfrozen =>
      obtain ⟨operand', a, s₁, hoperand, h⟩ := h.andThen
      rcases h.ite with ⟨hnum, h⟩ | ⟨-, h⟩
      · obtain ⟨rfl, rfl, rfl⟩ := h.succeed
        simp only [hfrozen] at hc
        refine .of_children hc fun Q hQ => ?_
        exact .decrement hfrozen (hQ (by simp) ho (hoperand.gives hs)) hnum
      · exact absurd h Succeeds.not_fail
  | member n object name => exact follows_member hf h hs
  | lambda n head body => exact follows_lambda hf hw h hs
  | spawn n call mode =>
    cases call with
    | call m callee args => exact follows_spawn hf h hs
    | _ =>
      -- only a call can be started as a thread
      rw [checkExpr] at h
      · exact absurd (h.unlessKnown hf.1) Succeeds.not_fail
      · simp
  | sync n handle isArray => exact follows_sync hf h

/-! ### Several expressions -/

/-- Arguments without an error follow their rules, one after the other. -/
theorem follows_args {s s' : Checker} {function : String} {index : Nat} {params : List Ty}
    {es es' : List Expr} {ts : List Ty} (hf : exprsFresh es)
    (h : ListSucceeds (checkArgs function index params es) s es' ts s')
    (hs : s'.errors = s.errors) :
    Follows s (.args function index params es) (.exprs es' ts) s' := by
  cases es with
  | nil =>
    rw [checkArgs] at h
    obtain ⟨hans, rfl⟩ := h
    cases hans
    exact .of_children rfl fun Q _ => .noArgs
  | cons arg others =>
    obtain ⟨harg, hothers⟩ := hf
    have hc := Point.children_eq ⟨s, .args function index params (arg :: others)⟩
    rw [checkArgs] at h
    obtain ⟨arg', t, s₁, hsucc, h⟩ := h.first
    simp only [Point.parts, hsucc.thenParts, hsucc.2] at hc
    -- an argument of the wrong type would have ended the check
    split at h
    · cases h.1
    · next hnone =>
      obtain ⟨others', types, hsucc', rfl, rfl⟩ := h.cons
      obtain ⟨h₁, h₂⟩ := hsucc.reports.silent hsucc'.argsReports hs
      simp only [hnone] at hc
      refine .of_children hc fun Q hQ => ?_
      exact .arg (hQ (by simp) harg (hsucc.gives h₁)) hnone
        (hQ (by simp) hothers (hsucc'.givesArgs h₂))

theorem follows_elements {s s' : Checker} {start : Position} {first : Option Ty}
    {es es' : List Expr} {ts : List Ty} (hf : exprsFresh es)
    (h : ListSucceeds (checkElements start first es) s es' ts s') (hs : s'.errors = s.errors) :
    Follows s (.elements start first es) (.exprs es' ts) s' := by
  cases es with
  | nil =>
    rw [checkElements] at h
    obtain ⟨hans, rfl⟩ := h
    cases hans
    exact .of_children rfl fun Q _ => .noElements
  | cons element others =>
    obtain ⟨helement, hothers⟩ := hf
    have hc := Point.children_eq ⟨s, .elements start first (element :: others)⟩
    rw [checkElements] at h
    obtain ⟨element', a, s₁, hsucc, h⟩ := h.first
    simp only [Point.parts, hsucc.thenParts, hsucc.2] at hc
    dsimp only at h
    -- a range among the elements counts as a number
    generalize ht : (if element'.isRange then Ty.int else a) = t at h hc
    split at h
    · next hagrees =>
      obtain ⟨others', types, hsucc', rfl, rfl⟩ := h.cons
      obtain ⟨h₁, h₂⟩ := hsucc.reports.silent hsucc'.elementsReports hs
      simp only [hagrees, if_true] at hc
      refine .of_children hc fun Q hQ => ?_
      exact .element (hQ (by simp) helement (hsucc.gives h₁)) ht.symm hagrees
        (hQ (by simp) hothers (hsucc'.givesElements h₂))
    · cases h.1

end ThreadRegions
