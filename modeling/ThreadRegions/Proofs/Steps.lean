import Mathlib.Data.List.Forall2
import ThreadRegions.Proofs.Construct
import ThreadRegions.Proofs.WellFormed

/-!
# Single steps of the walk

Between the parts of a point the walk does small things: it adds a note, reports an error, declares
a name.  This module lists these steps, and says what the points inside of a point begin with.

## Main Definitions

* `Effect`: what a step can do to the scopes and their names
* `Steps`: a relation for expressions and one for statements that hold across single steps
* `Leads`: a state that is reached inside of a point, before the frame of a function is entered
* `Table.IsHandle`: a variable that stands for a thread
* `Point.Inside`: a point inside of another one, at any depth

## Main Results

* `resolveHandles_eq_ok_iff`: when the handles of several threads are found
* `mem_parts`: a part walks over a smaller tree, with some of the constructs of the whole one, and
  begins in a state that its point leads to

## Design Notes

There are two relations because an expression leaves the current scope alone and a statement does
not.  A relation that does not hold across all steps takes the effects that it allows as a
parameter; it then holds across the trees that have no other ones.
-/

namespace ThreadRegions

open CheckM

/-- The table is what the declaration of the variable `id` left behind. -/
def Table.JustDeclared (t : Table) (id : SymbolId) : Prop :=
  ∃ (before : Table) (name : String) (type : Ty) (kind : SymbolKind) (q : Qualifier),
    before.addQualified name type kind q = (t, id)

/-- What a step can do to the scopes of the table and to their names. -/
inductive Effect where
  /-- A variable or a function is declared. -/
  | declare
  /-- A scope is entered that goes on with the frame around it. -/
  | scope
  /-- A frame is entered in the given scope. -/
  | frame (scope : ScopeId)
  /-- A namespace is added, or a member of one. -/
  | space

/-- All effects, where frames are entered only in the given scopes. -/
def Effect.framesIn (F : ScopeId → Prop) : Effect → Prop
  | frame c => F c
  | _ => True

/-- What enters no frame is allowed, whatever the scopes are. -/
theorem Effect.framesIn_of_ne {F : ScopeId → Prop} {e : Effect} (h : ∀ c, e ≠ frame c) :
    framesIn F e := by
  cases e with
  | frame c => exact absurd rfl (h c)
  | _ => trivial

/-- A relation `E` that holds across the single steps of an expression and a relation `R` that holds
across those of a statement, where only steps with effects that satisfy `A` count. -/
structure Steps (A : Effect → Prop) (E R : Checker → Checker → Prop) : Prop where
  refl : ∀ s, E s s
  trans : ∀ {s s₁ s₂}, E s s₁ → E s₁ s₂ → E s s₂
  ofExpr : ∀ {s s'}, E s s' → R s s'
  stmtTrans : ∀ {s s₁ s₂}, R s s₁ → R s₁ s₂ → R s s₂
  /-- The checker adds a note. -/
  note : ∀ s level text, E s ((note level text).after s)
  /-- A lambda may capture a symbol. -/
  captured : ∀ s id, E s (s.captured id)
  /-- The checker reports an error. -/
  report : ∀ s d, R s ((report d).after s)
  /-- A variable is declared. -/
  declare : A .declare → ∀ s name t q,
    R s (s.onLedger fun l => (l.addQualified name t s.table.declarationKind q).1)
  /-- A variable that has just been declared is bound to the thread that its value starts. -/
  spawn : A .declare → ∀ s id e position, s.table.JustDeclared id →
    R s ((recordSpawn id e position).after s)
  /-- A function is declared. -/
  function : A .declare → ∀ s name t modifier declared,
    R s (s.onLedger fun l => (l.addFunction name t modifier declared).1)
  /-- A namespace is added whose name is not visible. -/
  space : A .space → ∀ s name, s.table.lookup name = none →
    R s (s.onLedger fun l => (l.addNamespace name).1)
  /-- A function becomes a member of a namespace. -/
  member : A .space → ∀ s space name t modifier declared,
    R s (s.onLedger fun l => (l.addFunctionToNamespace space name t modifier declared).1)

namespace Steps

variable {A : Effect → Prop} {E R : Checker → Checker → Prop} (h : Steps A E R) {s : Checker}

include h

/-! ### Steps of an expression -/

/-- A statement may do nothing. -/
theorem stmtRefl (s : Checker) : R s s := h.ofExpr (h.refl s)

/-- Finding a name may add it to the captures of the lambda around, and changes nothing if the name
is not visible. -/
theorem resolve (name : String) : E s ((resolve name).after s) := by
  cases hl : s.table.lookup name with
  | none => rw [(after_resolve_none hl).1]; exact h.refl s
  | some id => rw [(after_resolve_some hl).1]; exact h.captured s id

/-- A copy that has no effect is noted, and all other combinations only answer. -/
theorem paramQualifier (q : Qualifier) (t : Ty) (position : Position) :
    E s ((paramQualifier q t position).after s) := by
  unfold CheckM.paramQualifier
  by_cases hq : isIdleCopy q t
  · simpa [hq] using h.note s _ _
  · simpa [hq] using h.refl s

/-- The parameters are looked at in order, up to the first that has no type or a qualifier that does
not fit. -/
theorem lambdaParamTypes (start : Position) (params : List Param) :
    E s ((lambdaParamTypes start params).after s) := by
  induction params generalizing s with
  | nil => exact h.refl s
  | cons p others ih =>
    rw [ThreadRegions.lambdaParamTypes]
    -- a parameter without a type stops the walk over the parameters
    split
    · exact h.refl s
    · next t _ =>
      have hq := h.paramQualifier (s := s) p.qualifier t p.span.start
      simp only [after_bind]
      split
      · exact hq
      · exact h.trans hq ih

/-- The handles are looked up in order, up to the first that is not found. -/
theorem resolveHandles (start : Position) (handles : List Expr) :
    E s ((resolveHandles start handles).after s) := by
  induction handles generalizing s with
  | nil => exact h.refl s
  | cons handle others ih =>
    rw [CheckM.resolveHandles]
    -- a handle must be a name, be visible, and stand for a thread
    split
    · exact h.refl s
    · next name _ =>
      have hr := h.resolve (s := s) name
      simp only [after_bind]
      split
      · exact hr
      · simp only [answer_table, after_table, after_bind, after_ite]
        split
        · exact hr
        · exact h.trans hr ih

/-! ### Steps of a statement -/

/-- Two steps of a statement, where the second depends on what the first has answered. -/
theorem stmtBind {α β : Type} {m : CheckM α} {f : α → CheckM β} (hm : R s (m.after s))
    (hf : R (m.after s) ((f (m.answer s)).after (m.after s))) : R s ((m >>= f).after s) :=
  h.stmtTrans hm hf

theorem reportAny (d : Option Diagnostic) : R s ((reportAny d).after s) := by
  cases d with
  | none => exact h.stmtRefl s
  | some d => exact h.report s d

theorem reportUntyped (params : List Param) : R s ((reportUntyped params).after s) := by
  induction params generalizing s with
  | nil => exact h.stmtRefl s
  | cons p others ih =>
    simp only [ThreadRegions.reportUntyped, after_bind, after_ite]
    split
    · exact h.stmtTrans (h.report s _) ih
    · exact ih

theorem varQualifier (q : Qualifier) (t : Ty) (position : Position) :
    E s ((varQualifier q t position).after s) := by
  unfold CheckM.varQualifier
  by_cases hq : isIdleCopy q t
  · simpa [hq] using h.note s _ _
  · simpa [hq] using h.refl s

/-- At most one error: that of the condition itself, or that it is no truth value. -/
theorem checkCondition (construct : String) (o : Outcome) :
    R s ((checkCondition construct o).after s) := by
  unfold ThreadRegions.checkCondition
  split
  · exact h.report s _
  · simp only [after_bind, after_ite]
    split
    · exact h.report s _
    · exact h.stmtRefl s

theorem reportOutcome (o : Outcome) : R s ((reportOutcome o).after s) := by
  unfold ThreadRegions.reportOutcome
  split
  · exact h.report s _
  · exact h.stmtRefl s

theorem checkReturnType (span : Span) (ret received : Ty) :
    R s ((checkReturnType span ret received).after s) := by
  simp only [ThreadRegions.checkReturnType, after_ite]
  split
  · exact h.stmtRefl s
  · exact h.report s _

/-- Only functions become members of a namespace, and other statements are passed over. -/
theorem registerFunctions (space : String) (statements : List Stmt)
    (hA : A .space := by trivial) : R s ((registerFunctions space statements).after s) := by
  induction statements generalizing s with
  | nil => exact h.stmtRefl s
  | cons st others ih =>
    cases st with
    | function span head body => exact h.stmtTrans (h.member hA s _ _ _ _ _) ih
    | _ => exact ih

/-- After an error in its value, a variable is still declared so that later uses find it. -/
theorem declareAnyway (span : Span) (head : VariableHead) (init : Expr) (d : Diagnostic)
    (hA : A .declare := by trivial) : R s ((declareAnyway span head init d).after s) :=
  h.stmtTrans (h.report s d) (h.declare hA _ _ _ _)

theorem inferType (span : Span) (head : VariableHead) (init : Option Expr) :
    R s ((inferType span head init).after s) := by
  unfold ThreadRegions.inferType
  split
  · exact h.stmtRefl s
  · exact h.stmtRefl s
  · exact h.report s _

/-- A variable with a known type: its qualifier is checked, and it is declared even if that fails.
-/
theorem declareTyped (span : Span) (head : VariableHead) (type : Ty)
    (hA : A .declare := by trivial) : R s ((declareTyped span head type).after s) := by
  unfold ThreadRegions.declareTyped
  refine h.stmtBind (h.ofExpr (h.varQualifier _ _ _)) (h.stmtBind (h.reportAny _) ?_)
  exact h.stmtTrans (h.declare hA _ _ _ _) (h.ofExpr (h.note _ _ _))

theorem reportMismatch (span : Span) (type : Ty) (init : Option Expr) :
    R s ((reportMismatch span type init).after s) := by
  simp only [ThreadRegions.reportMismatch, after_ite]
  split
  · exact h.report s _
  · exact h.stmtRefl s

/-- The thread that the value starts is recorded for the variable that has just been declared. -/
theorem recordInit {id : SymbolId} (hs : s.table.JustDeclared id) (span : Span)
    (init : Option Expr) (hA : A .declare := by trivial) :
    R s ((recordInit span id init).after s) := by
  cases init with
  | none => exact h.stmtRefl s
  | some e => exact h.stmtTrans (h.spawn hA s id e span.start hs) (h.reportAny _)

theorem finishDeclare (span : Span) (head : VariableHead) (init : Option Expr)
    (hA : A .declare := by trivial) : R s ((finishDeclare span head init).after s) := by
  simp only [ThreadRegions.finishDeclare, after_ite]
  split
  · exact h.report s _
  · refine h.stmtBind (h.inferType _ _ _) (h.stmtBind (h.declareTyped _ _ _ hA) ?_)
    refine h.stmtBind (h.reportMismatch _ _ _) ?_
    refine h.stmtBind (h.recordInit ?_ span _ hA) (h.stmtRefl _)
    -- a mismatch is only reported, so the table is still the one that the declaration left behind
    rw [table_reportMismatch]
    exact ⟨_, _, _, _, _, (declareTyped_eq _ span head _).symm⟩

theorem reportHead (span : Span) (head : FunctionHead) : R s ((reportHead span head).after s) :=
  h.stmtTrans (h.reportUntyped head.params) (h.reportAny _)

theorem declareFunction (head : FunctionHead) (hA : A .declare := by trivial) :
    R s ((declareFunction head).after s) :=
  h.stmtTrans (h.function hA s _ _ _ _) (h.ofExpr (h.note _ _ _))

end Steps

/-! ### The states inside of a point -/

/-- A namespace is only added if its name is not visible. -/
theorem lookup_eq_none {t : Table} {name : String} (h : namespaceError? t name = none) :
    t.lookup name = none := by
  unfold namespaceError? at h
  split at h
  · cases h
  · split at h
    · cases h
    · split at h
      · cases h
      · next hl => simpa using hl

/-- The second state is reached from the first by single steps and whole visits, where scopes and
regions may have been entered and not left. -/
inductive Leads (s : Checker) : Checker → Prop
  | refl : Leads s s
  | visit {s₁ : Checker} (v : Visit) : Leads s s₁ → Leads s (v.after s₁)
  | note {s₁ : Checker} (level : Level) (text : String) :
      Leads s s₁ → Leads s ((note level text).after s₁)
  | captured {s₁ : Checker} (id : SymbolId) : Leads s s₁ → Leads s (s₁.captured id)
  | report {s₁ : Checker} (d : Diagnostic) : Leads s s₁ → Leads s ((report d).after s₁)
  | declare {s₁ : Checker} (name : String) (t : Ty) (q : Qualifier) : Leads s s₁ →
      Leads s (s₁.onLedger fun l => (l.addQualified name t s₁.table.declarationKind q).1)
  | spawn {s₁ : Checker} (id : SymbolId) (e : Expr) (position : Position) :
      s₁.table.JustDeclared id → Leads s s₁ → Leads s ((recordSpawn id e position).after s₁)
  | function {s₁ : Checker} (name : String) (t : Ty) (modifier declared : Modifier) : Leads s s₁ →
      Leads s (s₁.onLedger fun l => (l.addFunction name t modifier declared).1)
  | space {s₁ : Checker} (name : String) : s₁.table.lookup name = none → Leads s s₁ →
      Leads s (s₁.onLedger fun l => (l.addNamespace name).1)
  | member {s₁ : Checker} (space name : String) (t : Ty) (modifier declared : Modifier) :
      Leads s s₁ →
        Leads s (s₁.onLedger fun l => (l.addFunctionToNamespace space name t modifier declared).1)
  | scope {s₁ : Checker} : Leads s s₁ → Leads s (s₁.onLedger Ledger.pushScope)
  | round {s₁ : Checker} (name : String) (t : Ty) : Leads s s₁ →
      Leads s ((s₁.onLedger Ledger.pushScope).onLedger fun l => (l.add name t .param).1)
  | region {s₁ : Checker} : Leads s s₁ → Leads s (s₁.onLedger Ledger.enterRegion)
  | module {s₁ : Checker} : Leads s s₁ → Leads s { s₁ with importDepth := s₁.importDepth + 1 }

namespace Leads

variable {s s₁ s₂ : Checker}

theorem trans (h : Leads s s₁) (h' : Leads s₁ s₂) : Leads s s₂ := by
  induction h' with
  | refl => exact h
  | visit v _ ih => exact ih.visit v
  | note level text _ ih => exact ih.note level text
  | captured id _ ih => exact ih.captured id
  | report d _ ih => exact ih.report d
  | declare name t q _ ih => exact ih.declare name t q
  | spawn id e position hd _ ih => exact ih.spawn id e position hd
  | function name t modifier declared _ ih => exact ih.function name t modifier declared
  | space name hl _ ih => exact ih.space name hl
  | member space name t modifier declared _ ih => exact ih.member space name t modifier declared
  | scope _ ih => exact ih.scope
  | round name t _ ih => exact ih.round name t
  | region _ ih => exact ih.region
  | module _ ih => exact ih.module

theorem steps : Steps (fun _ => True) Leads Leads where
  refl _ := .refl
  trans := trans
  ofExpr h := h
  stmtTrans := trans
  note _ level text := .note level text .refl
  captured _ id := .captured id .refl
  report _ d := .report d .refl
  declare _ _ name t q := .declare name t q .refl
  spawn _ _ id e position hd := .spawn id e position hd .refl
  function _ _ name t modifier declared := .function name t modifier declared .refl
  space _ _ name hl := .space name hl .refl
  member _ _ space name t modifier declared := .member space name t modifier declared .refl

theorem expr (h : Leads s s₁) (hint : Option Ty) (e : Expr) :
    Leads s ((checkExpr hint e).after s₁) :=
  h.visit (.expr hint e)

theorem stmt (h : Leads s s₁) (ret : Ty) (st : Stmt) : Leads s ((checkStmt ret st).after s₁) :=
  h.visit (.stmt ret st)

theorem regionIf (h : Leads s s₁) (enabled : Bool) :
    Leads s ((enterRegionIf enabled).after s₁) := by
  cases enabled with
  | false => exact h
  | true => exact h.region

/-- The first part of a loop is a whole statement, which may be missing. -/
theorem loopInit (h : Leads s s₁) (ret : Ty) (init : Option Stmt) :
    Leads s ((loopInit ret init).after s₁) := by
  cases init with
  | none => exact h
  | some st => exact h.stmt ret st

theorem loopCondition (h : Leads s s₁) (condition : Option Expr) :
    Leads s ((loopCondition condition).after s₁) := by
  cases condition with
  | none => exact h
  | some e => exact (h.expr none e).trans (steps.checkCondition "For" _)

theorem loopStep (h : Leads s s₁) (step : Option Expr) :
    Leads s ((loopStep step).after s₁) := by
  cases step with
  | none => exact h
  | some e => exact (h.expr none e).trans (steps.reportOutcome _)

end Leads

/-- How a part is entered from the state in which the point around it begins. -/
inductive Entry (s : Checker) : Part → Prop
  | within {s₁ : Checker} {v : Visit} {role : Role} (hrole : role ≠ .elsewhere)
      (h : Leads s s₁) : Entry s ⟨⟨s₁, v⟩, role⟩
  | lambda {s₁ : Checker} {v : Visit} (head : LambdaHead) (types : List Ty) (h : Leads s s₁) :
      Entry s ⟨⟨(enterLambda head types).after s₁, v⟩, .elsewhere⟩
  | function {s₁ : Checker} {v : Visit} (head : FunctionHead) (h : Leads s s₁) :
      Entry s ⟨⟨(enterFunction head).after s₁, v⟩, .elsewhere⟩

/-- A handle that is waited for is what its name stands for. -/
def Visit.Found (s : Checker) : Visit → Prop
  | .wait id name => s.table.lookup name = some id
  | _ => True

/-- The part of a visit `v` walks over a smaller tree, whose constructs are some of those of the
whole tree, and is entered from the state `s`. -/
structure Part.Within (s : Checker) (v : Visit) (q : Part) : Prop where
  size_lt : q.visit.size < v.size
  constructs : ∀ k ∈ q.visit.constructs, k ∈ v.constructs
  entry : Entry s q
  frame : q.role = .elsewhere → .function ∈ v.constructs ∨ .lambda ∈ v.constructs
  found : q.visit.Found q.state

/-! ### The handles of several threads -/

/-- The expression is a variable that stands for a thread, whether the thread has been waited for or
not. -/
def Table.IsHandle (t : Table) (e : Expr) (id : SymbolId) : Prop :=
  ∃ n name, e = .var n name ∧ t.lookup name = some id ∧ (t.symbol id).state ≠ .normal

/-- Finding the handles leaves the table alone, whether all of them are found or not. -/
theorem table_resolveHandles (start : Position) (handles : List Expr) (s : Checker) :
    ((resolveHandles start handles).after s).table = s.table := by
  induction handles generalizing s with
  | nil => rfl
  | cons handle others ih =>
    rw [resolveHandles]
    split
    · rfl
    · next name _ =>
      cases hl : s.table.lookup name with
      | none => simp [after_resolve_none hl, undefined]
      | some id =>
        simp only [after_bind, after_resolve_some hl, answer_table, after_table, after_ite,
          after_pure]
        split
        · rw [toLedger_captured]
        · rw [ih, toLedger_captured]

section Handles

variable {start : Position} {handle : Expr} {handles others : List Expr} {ids : List SymbolId}
  {s : Checker}

/-- If all handles are found, the first one is. -/
theorem exists_isHandle (h : (resolveHandles start (handle :: others)).answer s = .ok ids) :
    ∃ id, s.table.IsHandle handle id := by
  cases handle with
  | var n name =>
    have hname : (Expr.var n name).name? = some name := rfl
    cases hl : s.table.lookup name with
    | none =>
      rw [resolveHandles, hname, answer_bind, (after_resolve_none hl).2] at h
      cases h
    | some id =>
      obtain ⟨hafter, hans⟩ := after_resolve_some hl
      simp only [resolveHandles, hname, answer_bind, hafter, hans, answer_table, after_table,
        toLedger_captured] at h
      split at h
      · cases h
      · next hstate => exact ⟨id, n, name, rfl, hl, hstate⟩
  | _ => cases h

/-- A handle that is found stands before those that are found after it. -/
theorem resolveHandles_of_isHandle (start : Position) (others : List Expr) {id : SymbolId}
    (h : s.table.IsHandle handle id) :
    (resolveHandles start (handle :: others)).answer s =
        ((resolveHandles start others).answer (s.captured id)).map (id :: ·) ∧
      (resolveHandles start (handle :: others)).after s =
        (resolveHandles start others).after (s.captured id) := by
  obtain ⟨n, name, rfl, hl, hstate⟩ := h
  obtain ⟨hafter, hans⟩ := after_resolve_some hl
  have hname : (Expr.var n name).name? = some name := rfl
  simp only [resolveHandles, hname, answer_bind, after_bind, hafter, hans, answer_table,
    after_table, toLedger_captured, if_neg hstate, answer_pure, after_pure, and_self]

/-- If all handles are found, the first one is found, and the others from the state that this
leaves. -/
theorem resolveHandles_cons (h : (resolveHandles start (handle :: others)).answer s = .ok ids) :
    ∃ id rest, ids = id :: rest ∧ s.table.IsHandle handle id ∧
      (resolveHandles start others).answer (s.captured id) = .ok rest ∧
      (resolveHandles start (handle :: others)).after s =
        (resolveHandles start others).after (s.captured id) := by
  obtain ⟨id, hhandle⟩ := exists_isHandle h
  obtain ⟨hans, hafter⟩ := resolveHandles_of_isHandle start others hhandle
  rw [hans] at h
  cases hothers : (resolveHandles start others).answer (s.captured id) with
  | error d =>
    rw [hothers] at h
    cases h
  | ok rest =>
    rw [hothers] at h
    cases h
    exact ⟨id, rest, rfl, hhandle, hothers, hafter⟩

/-- The handles are found if each is a variable that stands for a thread, and only then. -/
theorem resolveHandles_eq_ok_iff :
    (resolveHandles start handles).answer s = .ok ids ↔
      List.Forall₂ s.table.IsHandle handles ids := by
  constructor
  · intro h
    induction handles generalizing s ids with
    | nil =>
      cases h
      exact .nil
    | cons handle others ih =>
      obtain ⟨id, rest, rfl, hhandle, hothers, -⟩ := resolveHandles_cons h
      have hrest := ih hothers
      rw [toLedger_captured] at hrest
      exact .cons hhandle hrest
  · intro h
    -- captures change the state from handle to handle, but not the table
    generalize ht : s.table = t at h
    induction h generalizing s with
    | nil => rfl
    | cons hhandle _ ih =>
      rw [← ht] at hhandle
      rw [(resolveHandles_of_isHandle _ _ hhandle).1, ih (by rw [toLedger_captured, ht])]
      rfl

/-- The symbols that are waited for are what the names of the handles stand for. -/
theorem lookup_of_resolveHandles (h : (resolveHandles start handles).answer s = .ok ids) :
    ∀ x ∈ handles.zip ids, s.table.lookup (x.1.name?.getD "") = some x.2 := by
  rintro ⟨handle, id⟩ hx
  obtain ⟨n, name, rfl, hl, -⟩ := List.forall₂_zip (resolveHandles_eq_ok_iff.1 h) hx
  exact hl

end Handles

namespace Part

variable {s s₁ : Checker} {v : Visit} {q : Part}

theorem within_role {w : Visit} {role : Role} (h : Leads s s₁)
    (hsize : w.size < v.size := by simp +arith [Visit.size])
    (hrole : role ≠ .elsewhere := by decide)
    (hk : ∀ k ∈ w.constructs, k ∈ v.constructs := by simp +contextual)
    (hf : w.Found s₁ := by trivial) : Part.Within s v ⟨⟨s₁, w⟩, role⟩ :=
  ⟨hsize, hk, .within hrole h, fun he => absurd he hrole, hf⟩

/-- A part that is run once whenever its point is. -/
theorem within_always {w : Visit} (h : Leads s s₁) (hf : w.Found s₁ := by trivial)
    (hsize : w.size < v.size := by simp +arith [Visit.size])
    (hk : ∀ k ∈ w.constructs, k ∈ v.constructs := by simp +contextual) :
    (always s₁ w).Within s v :=
  within_role h hsize (by decide) hk hf

theorem within_of_mem_singleton {r : Part} (hq : q ∈ [r]) (hr : r.Within s v) : q.Within s v := by
  obtain rfl := List.mem_singleton.1 hq
  exact hr

theorem within_of_mem_cons {r : Part} {rs : List Part} (hq : q ∈ r :: rs) (hr : r.Within s v)
    (hrs : q ∈ rs → q.Within s v) : q.Within s v := by
  rcases List.mem_cons.1 hq with rfl | hq
  · exact hr
  · exact hrs hq

/-- There are more parts only if the expression before them has a type. -/
theorem within_of_mem_thenParts {o : Outcome} {next : Ty → Expr → List Part}
    (hq : q ∈ o.thenParts next) (hn : ∀ t e, q ∈ next t e → q.Within s v) : q.Within s v := by
  unfold Outcome.thenParts at hq
  split at hq
  · exact hn _ _ hq
  · cases hq

/-- The parts of a call.  The function that gives a length is not looked up, so its argument is
visited at once; otherwise the arguments follow the callee. -/
theorem within_of_mem_callParts {callee : Expr} {args : List Expr} {check : CheckM Outcome}
    {calleeParts : List Part} (hq : q ∈ callParts s₁ callee args check calleeParts)
    (ha : sizeOf args < v.size) (hk : ∀ k ∈ exprsConstructs args, k ∈ v.constructs)
    (h : Leads s s₁) (hcheck : Leads s (check.after s₁))
    (hc : q ∈ calleeParts → q.Within s v) : q.Within s v := by
  unfold callParts at hq
  split at hq
  · split at hq
    · cases hq
    · exact within_of_mem_singleton hq (within_always h trivial ha hk)
  · split at hq
    · cases hq
    · rcases List.mem_append.1 hq with hq | hq
      · exact hc hq
      · refine within_of_mem_thenParts hq fun t e hq => ?_
        split at hq
        · split at hq
          · exact within_of_mem_singleton hq (within_always hcheck trivial ha hk)
          · cases hq
        · cases hq

/-- The threads are waited for one after the other, and waiting changes no name, so each handle is
still what it was found to be. -/
theorem within_of_mem_waitParts {handles : List (Expr × SymbolId)} (hq : q ∈ waitParts s₁ handles)
    (hn : 0 < v.size) (h : Leads s s₁)
    (hf : ∀ x ∈ handles, s₁.table.lookup (x.1.name?.getD "") = some x.2) : q.Within s v := by
  induction handles generalizing s₁ with
  | nil => cases hq
  | cons first others ih =>
    obtain ⟨hfirst, hothers⟩ := List.forall_mem_cons.1 hf
    refine within_of_mem_cons hq (within_always h hfirst hn) fun hq => ?_
    refine ih hq (h.visit (.wait _ _)) ?_
    intro x hx
    rw [(sameButThreads_syncPending s₁ _ _).lookup_eq]
    exact hothers x hx

theorem within_of_mem_exprParts {hint : Option Ty} {e : Expr} (hq : q ∈ exprParts s hint e) :
    q.Within s (.expr hint e) := by
  have hs : Leads s s := .refl
  cases e with
  | literal n v => cases hq
  | var n name => cases hq
  | binary n op left right =>
    refine within_of_mem_cons hq (within_always hs) fun hq => ?_
    -- the right operand is visited only if the left one has a type
    refine within_of_mem_thenParts hq fun _ _ hq => within_of_mem_singleton hq ?_
    exact within_always (hs.expr none left)
  | unary n op operand =>
    exact within_of_mem_singleton hq (within_always hs)
  | assign n name value =>
    -- the value is visited only if the name is visible and may be assigned to
    simp only [exprParts] at hq
    split at hq
    · cases hq
    · split at hq
      · cases hq
      · exact within_of_mem_singleton hq (within_always (hs.captured _))
  | indexAssign n array index value =>
    -- each part is visited only if those before it are in order: array, index, value
    simp only [exprParts] at hq
    split at hq
    · cases hq
    · refine within_of_mem_cons hq (within_always hs) fun hq => ?_
      refine within_of_mem_thenParts hq fun _ _ hq => ?_
      split at hq
      · cases hq
      · refine within_of_mem_cons hq (within_always (hs.expr none array)) fun hq => ?_
        refine within_of_mem_thenParts hq fun i _ hq => ?_
        split at hq
        · cases hq
        · refine within_of_mem_singleton hq (within_always ?_)
          exact (hs.expr none array).expr none index
  | call n callee args =>
    refine within_of_mem_callParts hq (by simp +arith [Visit.size]) (by simp +contextual) hs
      (hs.expr none callee) fun hq => ?_
    exact within_of_mem_singleton hq (within_always hs)
  | array n elements =>
    exact within_of_mem_singleton hq (within_always hs)
  | access n array index =>
    refine within_of_mem_cons hq (within_always hs) fun hq => ?_
    refine within_of_mem_thenParts hq fun a _ hq => ?_
    split at hq
    · cases hq
    · refine within_of_mem_singleton hq (within_always ?_)
      exact hs.expr none array
  | range n first last =>
    refine within_of_mem_cons hq (within_always hs) fun hq => ?_
    refine within_of_mem_thenParts hq fun a _ hq => ?_
    split at hq
    · cases hq
    · refine within_of_mem_singleton hq (within_always ?_)
      exact hs.expr none first
  | increment n operand =>
    simp only [exprParts] at hq
    split at hq
    · cases hq
    · exact within_of_mem_singleton hq (within_always hs)
  | decrement n operand =>
    simp only [exprParts] at hq
    split at hq
    · cases hq
    · exact within_of_mem_singleton hq (within_always hs)
  | member n object name =>
    simp only [exprParts] at hq
    split at hq
    · cases hq
    · exact within_of_mem_singleton hq (within_always hs)
  | lambda n head body =>
    -- the body is visited in a frame of its own, if the parameters have types and the head is in
    -- order
    simp only [exprParts, lambdaParts] at hq
    split at hq
    · cases hq
    · split at hq
      · cases hq
      · split at hq
        · cases hq
        · refine within_of_mem_singleton hq ⟨by simp +arith [Visit.size], by simp +contextual,
            .lambda _ _ ?_, fun _ => by simp, trivial⟩
          exact Leads.steps.lambdaParamTypes n.span.start _
  | spawn n call mode =>
    -- only a call can be started as a thread
    cases call with
    | call m callee args =>
      simp only [exprParts] at hq
      refine within_of_mem_cons hq (within_always hs) fun hq => ?_
      refine within_of_mem_thenParts hq fun type callee' hq => ?_
      split at hq
      · split at hq
        · cases hq
        · refine within_of_mem_callParts hq (by simp +arith [Visit.size]) (by simp +contextual)
            (hs.expr none callee) ?_ (by simp)
          exact (hs.expr none callee).note _ _
      · cases hq
    | _ => cases hq
  | sync n handle isArray =>
    cases isArray with
    | false =>
      simp only [exprParts] at hq
      split at hq
      · cases hq
      · split at hq
        · cases hq
        · next id hl =>
          refine within_of_mem_singleton hq (within_always (hs.captured _) ?_)
          -- being captured by the lambda around does not change what the name stands for
          show (s.captured id).table.lookup _ = some id
          rw [toLedger_captured]
          exact hl
    | true =>
      cases handle with
      | array m handles =>
        simp only [exprParts] at hq
        split at hq
        · cases hq
        · next found hfound =>
          -- all handles have been found before the first thread is waited for
          have htable := table_resolveHandles n.span.start handles s
          have hlookup := lookup_of_resolveHandles hfound
          exact within_of_mem_waitParts hq (by simp [Visit.size])
            (Leads.steps.resolveHandles _ handles) (htable ▸ hlookup)
      | _ => cases hq

/-- The parts of a statement, one case for each kind. -/
theorem within_of_mem_stmtParts {ret : Ty} {st : Stmt} (hq : q ∈ stmtParts s ret st) :
    q.Within s (.stmt ret st) := by
  have hs : Leads s s := .refl
  cases st with
  | expression span value =>
    exact within_of_mem_singleton hq (within_always hs)
  | declare span head init =>
    cases init with
    | none => cases hq
    | some init => exact within_of_mem_singleton hq (within_always hs)
  | function span head body =>
    -- the body is visited in a frame of its own, unless the name of the function clashes
    simp only [stmtParts] at hq
    split at hq
    · cases hq
    · refine within_of_mem_singleton hq ⟨by simp +arith [Visit.size], by simp +contextual,
        .function head ?_, fun _ => by simp, trivial⟩
      exact (Leads.steps.reportHead span head).trans (Leads.steps.declareFunction head)
  | ret span value =>
    cases value with
    | none => cases hq
    | some value => exact within_of_mem_singleton hq (within_always hs)
  | block span modifier body =>
    refine within_of_mem_singleton hq (within_always ?_)
    exact (hs.regionIf _).scope
  | cond span condition yes no =>
    have hc := (hs.expr none condition).trans
      (Leads.steps.checkCondition "If" ((checkExpr none condition).answer s))
    refine within_of_mem_cons hq (within_always hs) fun hq => ?_
    -- both branches are visited, the second one in the state that the first leaves behind
    refine within_of_mem_cons hq (within_role hc) fun hq => ?_
    cases no with
    | none => cases hq
    | some branch =>
      refine within_of_mem_singleton hq (within_role ?_)
      exact hc.stmt ret yes
  | whileLoop span condition body shared =>
    have hc := (hs.expr none condition).trans
      (Leads.steps.checkCondition "While" ((checkExpr none condition).answer s))
    refine within_of_mem_cons hq (within_always hs) fun hq => ?_
    refine within_of_mem_singleton hq (within_role ?_)
    exact hc.regionIf _
  | forLoop span init condition step body shared =>
    -- the parts are visited in the order of the head, and the body comes last
    have h₁ := (hs.scope).loopInit ret init
    have h₂ := h₁.loopCondition condition
    have h₃ := h₂.loopStep step
    simp only [stmtParts, List.mem_append] at hq
    rcases hq with ((hq | hq) | hq) | hq
    · cases init with
      | none => cases hq
      | some st => exact within_of_mem_singleton hq (within_always hs.scope)
    · cases condition with
      | none => cases hq
      | some e => exact within_of_mem_singleton hq (within_always h₁)
    · cases step with
      | none => cases hq
      | some e =>
        exact within_of_mem_singleton hq (within_role h₂)
    · refine within_of_mem_singleton hq (within_role ?_)
      exact h₃.regionIf _
  | forEach span name symbol iterable body shared =>
    refine within_of_mem_cons hq (within_always hs) fun hq => ?_
    refine within_of_mem_thenParts hq fun t _ hq => ?_
    split at hq
    · cases hq
    · refine within_of_mem_singleton hq (within_role ?_)
      exact ((hs.expr none iterable).round name _).regionIf _
  | leave span => cases hq
  | next span => cases hq
  | importModule span module space statements =>
    cases space with
    | none => cases hq
    | some space =>
      simp only [stmtParts] at hq
      split at hq
      · cases hq
      · next he =>
        split at hq
        · cases hq
        · refine within_of_mem_singleton hq (within_always ?_)
          -- the functions are registered before the statements are visited
          have h₁ := hs.space space (lookup_eq_none he)
          exact ((h₁.trans (Leads.steps.registerFunctions space statements)).note _ _).module.scope

end Part

/-- A part walks over a smaller tree, and begins in a state that its point leads to. -/
theorem mem_parts {p : Point} {q : Part} (hq : q ∈ p.parts) : q.Within p.state p.visit := by
  obtain ⟨s, v⟩ := p
  have hs : Leads s s := .refl
  cases v with
  | expr hint e =>
    simp only [Point.parts] at hq
    -- an expression that has a type is not visited again
    split at hq
    · cases hq
    · exact Part.within_of_mem_exprParts hq
  | args function index params es =>
    cases es with
    | nil => cases hq
    | cons arg others =>
      refine Part.within_of_mem_cons hq (Part.within_always hs) fun hq => ?_
      refine Part.within_of_mem_thenParts hq fun received _ hq => ?_
      split at hq
      · cases hq
      · refine Part.within_of_mem_singleton hq (Part.within_always ?_)
        exact hs.expr _ arg
  | elements start first es =>
    cases es with
    | nil => cases hq
    | cons element others =>
      refine Part.within_of_mem_cons hq (Part.within_always hs) fun hq => ?_
      refine Part.within_of_mem_thenParts hq fun t e hq => ?_
      generalize (if e.isRange then Ty.int else t) = t at hq
      dsimp only at hq
      split at hq
      · refine Part.within_of_mem_singleton hq (Part.within_always ?_)
        exact hs.expr none element
      · cases hq
  | body start ret b =>
    cases b with
    | expr value =>
      exact Part.within_of_mem_singleton hq (Part.within_always hs)
    | block statements =>
      exact Part.within_of_mem_singleton hq (Part.within_always hs)
  | stmt ret st => exact Part.within_of_mem_stmtParts hq
  | stmts ret sts =>
    cases sts with
    | nil => cases hq
    | cons st others =>
      refine Part.within_of_mem_cons hq (Part.within_always hs) fun hq => ?_
      refine Part.within_of_mem_singleton hq (Part.within_always ?_)
      exact hs.stmt ret st
  | wait id name => cases hq

/-! ### Points inside of points -/

/-- The second point lies inside of the first one, or is the first one. -/
inductive Point.Inside : Point → Point → Prop
  | refl (p : Point) : p.Inside p
  | part {p r : Point} {q : Part} : q ∈ p.parts → q.toPoint.Inside r → p.Inside r

/-- Inside of a point, a handle that is waited for is what its name stands for. -/
theorem Point.Inside.found {p r : Point} (h : p.Inside r) (hp : p.visit.Found p.state) :
    r.visit.Found r.state := by
  induction h with
  | refl => exact hp
  | part hq _ ih => exact ih (mem_parts hq).found

end ThreadRegions
