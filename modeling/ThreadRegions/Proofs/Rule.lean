import Mathlib.Data.List.Forall2
import ThreadRegions.Proofs.Fresh
import ThreadRegions.Proofs.Lasting

/-!
# The rules by which a program is accepted

A visit that reports nothing and answers without an error is put together from visits of its parts
that do the same.  `Rule` lists the ways in which this can happen, one rule for each form of
expression and statement.

## Main Definitions

* `Reply`, `Gives`: what a visit without an error answers, and where the walk goes on
* `Rule`: how such a visit is put together from its parts

## Design Notes

The rules are about an arbitrary relation `P` between the beginning and the end of a part, and not
about `Gives` alone.  An induction can take for `P` what it knows about the parts together with what
it has proved about them.  The last argument of `Rule` lists the parts as points of the run.
-/

namespace ThreadRegions

open CheckM

/-! ### Visits without an error -/

/-- What a visit without an error answers. -/
inductive Reply where
  /-- An expression and its type. -/
  | expr (e : Expr) (t : Ty)
  /-- Arguments or elements, and their types. -/
  | exprs (es : List Expr) (ts : List Ty)
  | body (b : Body)
  | stmt (st : Stmt)
  | stmts (sts : List Stmt)
  /-- A thread has been waited for. -/
  | waited

/-- The answer of a visit, unless it has an error. -/
def Visit.reply? (s : Checker) : Visit → Option Reply
  | .expr hint e =>
    let o := (checkExpr hint e).answer s
    o.type.toOption.map (.expr o.expr)
  | .args function index params es =>
    let o := (checkArgs function index params es).answer s
    o.types.toOption.map (.exprs o.exprs)
  | .elements start first es =>
    let o := (checkElements start first es).answer s
    o.types.toOption.map (.exprs o.exprs)
  | .body start ret b =>
    let (b', error) := (checkBody start ret b).answer s
    if error.isNone then some (.body b') else none
  | .stmt ret st => some (.stmt ((checkStmt ret st).answer s))
  | .stmts ret sts => some (.stmts ((checkStmts ret sts).answer s))
  | .wait .. => some .waited

/-- The visit reports nothing and has no error.  It answers `r`, and the walk goes on in `s'`. -/
structure Gives (s : Checker) (v : Visit) (r : Reply) (s' : Checker) : Prop where
  reply : v.reply? s = some r
  after : v.after s = s'
  silent : s'.errors = s.errors

/-- What is settled before a visit stays as it is. -/
theorem Gives.lasts {s s' : Checker} {v : Visit} {r : Reply} (h : Gives s v r s')
    (hw : s.table.WellFormed) : s.table.Lasts s'.table :=
  h.after ▸ (hw.lasts_visit v).2

/-- A visit leaves a well-formed table. -/
theorem Gives.wellFormed {s s' : Checker} {v : Visit} {r : Reply} (h : Gives s v r s')
    (hw : s.table.WellFormed) : s'.table.WellFormed :=
  h.after ▸ (hw.lasts_visit v).1

/-- The tree that a visit walks over is fresh. -/
def Visit.Fresh : Visit → Prop
  | .expr _ e => e.Fresh
  | .args _ _ _ es | .elements _ _ es => exprsFresh es
  | .body _ _ b => b.Fresh
  | .stmt _ st => st.Fresh
  | .stmts _ sts => stmtsFresh sts
  | .wait .. => True

/-- The points directly inside of a point. -/
def Point.children (p : Point) : List Point := p.parts.map Part.toPoint

theorem Point.children_eq (p : Point) : p.children = p.parts.map Part.toPoint := rfl

/-! ### The rules -/

/-- Leaves the body of a lambda, and gives back what the lambda captures. -/
def leaveLambda (head : LambdaHead) : CheckM (List Capture) := do
  onLedger Ledger.popScope
  exitRegionIf (head.modifier = .isolated)
  let captures := (← popLambda).getD []
  note .debug s!"lambda captures {captures.length} variable(s)"
  return captures

/-- Leaves a block. -/
def leaveBlock (modifier : Modifier) : CheckM Unit := do
  onLedger Ledger.popScope
  exitRegionIf (modifier = .isolated)

/-- Leaves a round of a loop that has a scope of its own. -/
def leaveRound (shared : Bool) : CheckM Unit := do
  exitRegionIf (!shared)
  onLedger Ledger.popScope

/-- Leaves an imported module. -/
def leaveModule : CheckM Unit := do
  onLedger Ledger.popScope
  modify fun s => { s with importDepth := s.importDepth - 1 }

section

variable (s : Checker)

theorem lasts_leaveBlock (modifier : Modifier) :
    s.table.Lasts ((leaveBlock modifier).after s).table :=
  (lasts_popScope s).trans (lasts_exitRegionIf _ _)

theorem lasts_leaveRound (shared : Bool) : s.table.Lasts ((leaveRound shared).after s).table :=
  (lasts_exitRegionIf s (!shared)).trans (lasts_popScope _)

theorem lasts_leaveModule : s.table.Lasts (leaveModule.after s).table := lasts_popScope s

/-- As far as the table is concerned, a lambda is left as a block is. -/
theorem table_leaveLambda (head : LambdaHead) :
    ((leaveLambda head).after s).table = ((leaveBlock head.modifier).after s).table := by
  simp only [leaveLambda, leaveBlock, after_bind, after_pure, table_note, table_popLambda]

theorem lasts_leaveLambda (head : LambdaHead) :
    s.table.Lasts ((leaveLambda head).after s).table := by
  rw [table_leaveLambda]
  exact lasts_leaveBlock s head.modifier

end

section Rules

variable (P : Checker → Visit → Reply → Checker → Prop)

/-- An expression that may be missing. -/
inductive MaybeExpr (s : Checker) : Option Expr → Option Expr → Checker → List Point → Prop
  | none : MaybeExpr s none none s []
  | some {e e' t s'} : P s (.expr none e) (.expr e' t) s' →
      MaybeExpr s (some e) (some e') s' [⟨s, .expr none e⟩]

/-- A statement that may be missing. -/
inductive MaybeStmt (s : Checker) (ret : Ty) :
    Option Stmt → Option Stmt → Checker → List Point → Prop
  | none : MaybeStmt s ret none none s []
  | some {st st' s'} : P s (.stmt ret st) (.stmt st') s' →
      MaybeStmt s ret (some st) (some st') s' [⟨s, .stmt ret st⟩]

/-- The rules by which a visit without an error is put together from its parts, where `P` holds of
the parts. -/
inductive Rule : Checker → Visit → Reply → Checker → List Point → Prop
  | literal {s hint n v} :
      Rule s (.expr hint (.literal n v)) (.expr ((Expr.literal n v).withType v.type) v.type) s []
  | var {s hint n name id} : s.table.lookup name = some id →
      (s.table.symbol id).isNamespace = false → (s.table.symbol id).isPending = false →
      Rule s (.expr hint (.var n name))
        (.expr ((Expr.var n name).withType (s.table.symbol id).type) (s.table.symbol id).type)
        (s.captured id) []
  | binary {s hint n op left right left' right' a b t s₁ s₂} :
      P s (.expr none left) (.expr left' a) s₁ → P s₁ (.expr none right) (.expr right' b) s₂ →
      op.result a b = .ok t →
      Rule s (.expr hint (.binary n op left right))
        (.expr ((Expr.binary n op left' right').withType t) t) s₂
        [⟨s, .expr none left⟩, ⟨s₁, .expr none right⟩]
  | unary {s hint n op operand operand' a t s₁} :
      P s (.expr none operand) (.expr operand' a) s₁ → op.result a = .ok t →
      Rule s (.expr hint (.unary n op operand)) (.expr ((Expr.unary n op operand').withType t) t) s₁
        [⟨s, .expr none operand⟩]
  | assign {s hint n name value value' id received s₁} : s.table.lookup name = some id →
      mutationError? s.table name = none →
      P (s.captured id) (.expr (some (s.table.symbol id).type) value) (.expr value' received) s₁ →
      (s.table.symbol id).type.agrees received = true →
      ((s₁.table.symbol id).region < s₁.table.region → received.canEscape = true) →
      Rule s (.expr hint (.assign n name value))
        (.expr ((Expr.assign n name value').withType (s.table.symbol id).type)
          (s.table.symbol id).type) s₁
        [⟨s.captured id, .expr (some (s.table.symbol id).type) value⟩]
  | indexAssign {s hint n array index value array' index' value' a i v element s₁ s₂ s₃} :
      frozenError? s.table array = none → P s (.expr none array) (.expr array' a) s₁ →
      a.element? = some element → P s₁ (.expr none index) (.expr index' i) s₂ →
      i.isIntegral = true → P s₂ (.expr none value) (.expr value' v) s₃ →
      element.agrees v = true →
      Rule s (.expr hint (.indexAssign n array index value))
        (.expr ((Expr.indexAssign n array' index' value').withType element) element) s₃
        [⟨s, .expr none array⟩, ⟨s₁, .expr none index⟩, ⟨s₂, .expr none value⟩]
  | len {s hint n m name args args' t s₁} : s.table.callsLen (.var m name) = true →
      P s (.args "len" 0 [] args) (.exprs args' [t]) s₁ → t.isHeap = true →
      Rule s (.expr hint (.call n (.var m name) args))
        (.expr ((Expr.call n ((Expr.var m name).withType (.function .int [t])) args').withType .int)
          .int) s₁
        [⟨s, .args "len" 0 [] args⟩]
  | call {s hint n callee args callee' args' params quals ret variadic ts s₁ s₂} :
      s.table.callsLen callee = false →
      P s (.expr none callee) (.expr callee' (.fn params quals ret variadic)) s₁ →
      arityFits params variadic args.length = true →
      P s₁ (.args callee'.calleeName 0 params args) (.exprs args' ts) s₂ →
      Rule s (.expr hint (.call n callee args))
        (.expr ((Expr.call n callee' args').withType ret) ret) s₂
        [⟨s, .expr none callee⟩, ⟨s₁, .args callee'.calleeName 0 params args⟩]
  | array {s hint n elements elements' ts s₁} :
      P s (.elements n.span.start none elements) (.exprs elements' ts) s₁ →
      Rule s (.expr hint (.array n elements))
        (.expr ((Expr.array n elements').withType (.array (ts.headD .nil)))
          (.array (ts.headD .nil))) s₁
        [⟨s, .elements n.span.start none elements⟩]
  | access {s hint n array index array' index' a i element s₁ s₂} :
      P s (.expr none array) (.expr array' a) s₁ → a.element? = some element →
      P s₁ (.expr none index) (.expr index' i) s₂ → i.isNumber = true →
      Rule s (.expr hint (.access n array index))
        (.expr ((Expr.access n array' index').withType element) element) s₂
        [⟨s, .expr none array⟩, ⟨s₁, .expr none index⟩]
  | range {s hint n first last first' last' a b s₁ s₂} :
      P s (.expr none first) (.expr first' a) s₁ → a.isNumber = true →
      P s₁ (.expr none last) (.expr last' b) s₂ → b.isNumber = true →
      Rule s (.expr hint (.range n first last))
        (.expr ((Expr.range n first' last').withType (.array .int)) (.array .int)) s₂
        [⟨s, .expr none first⟩, ⟨s₁, .expr none last⟩]
  | increment {s hint n operand operand' t s₁} : frozenError? s.table operand = none →
      P s (.expr none operand) (.expr operand' t) s₁ → t.isNumber = true →
      Rule s (.expr hint (.increment n operand))
        (.expr ((Expr.increment n operand').withType t) t) s₁ [⟨s, .expr none operand⟩]
  | decrement {s hint n operand operand' t s₁} : frozenError? s.table operand = none →
      P s (.expr none operand) (.expr operand' t) s₁ → t.isNumber = true →
      Rule s (.expr hint (.decrement n operand))
        (.expr ((Expr.decrement n operand').withType t) t) s₁ [⟨s, .expr none operand⟩]
  | spaceMember {s hint n object name space id} : s.table.namespaceOf? object = some space →
      s.table.lookupIn (s.table.symbol space).name name = some id →
      Rule s (.expr hint (.member n object name))
        (.expr ((Expr.member n object name).withType (s.table.symbol id).type)
          (s.table.symbol id).type) s []
  | valueMember {s hint n object name object' a t s₁} : s.table.namespaceOf? object = none →
      P s (.expr none object) (.expr object' a) s₁ → a.member? name = some t →
      Rule s (.expr hint (.member n object name))
        (.expr ((Expr.member n object' name).withType t) t) s₁ [⟨s, .expr none object⟩]
  | lambda {s hint n head body ret types params body' t s₀ s₁} :
      (head.infer hint).ret = some ret →
      s₀ = (enterLambda (head.infer hint) types).after
        ((lambdaParamTypes n.span.start (head.infer hint).params).after s) →
      s₀.table.HasParams (head.infer hint).params params →
      types.length = (head.infer hint).params.length →
      P s₀ (.body n.span.start ret body) (.body body') s₁ →
      Rule s (.expr hint (.lambda n head body))
        (.expr ((Expr.lambda n
          { head.infer hint with
            params := params
            captures := (leaveLambda (head.infer hint)).answer s₁ } body').withType t) t)
        ((leaveLambda (head.infer hint)).after s₁) [⟨s₀, .body n.span.start ret body⟩]
  | spawn {s hint n m callee args mode callee' args' params quals ret variadic declared ts s₁ s₂
        level text} :
      P s (.expr none callee) (.expr callee' (.fn params quals ret variadic)) s₁ →
      arityFits params variadic args.length = true →
      P ((Outcome.known callee' (.fn params quals ret variadic)).after s₁)
        (.args callee'.calleeName 0 params args) (.exprs args' ts) s₂ →
      Rule s (.expr hint (.spawn n (.call m callee args) mode))
        (.expr ((Expr.spawn n ((Expr.call m callee' args').withType ret)
          (some declared)).withType ret) ret) ((note level text).after s₂)
        [⟨s, .expr none callee⟩,
          ⟨(Outcome.known callee' (.fn params quals ret variadic)).after s₁,
            .args callee'.calleeName 0 params args⟩]
  | sync {s hint n m name t s' ps} : s.table.SameButThreads s'.table →
      (∀ p ∈ ps, ∃ id name, p.visit = .wait id name) →
      Rule s (.expr hint (.sync n (.var m name) false))
        (.expr ((Expr.sync n ((Expr.var m name).withType t) false).withType t) t) s' ps
  | syncAll {s hint n m handles handles' s' ps} : s.table.SameButThreads s'.table →
      (∀ p ∈ ps, ∃ id name, p.visit = .wait id name) →
      List.Forall₂ (fun e e' => ∃ k name t, e = .var k name ∧ e' = (Expr.var k name).withType t)
        handles handles' →
      Rule s (.expr hint (.sync n (.array m handles) true))
        (.expr ((Expr.sync n (.array m handles') true).withType .void) .void) s' ps
  | noArgs {s function index params} :
      Rule s (.args function index params []) (.exprs [] []) s []
  | arg {s function index params arg others arg' others' t ts s₁ s₂} :
      P s (.expr params.head? arg) (.expr arg' t) s₁ →
      (params.head?.bind fun param => argumentError? function index param t) = none →
      P s₁ (.args function (index + 1) params.tail others) (.exprs others' ts) s₂ →
      Rule s (.args function index params (arg :: others)) (.exprs (arg' :: others') (t :: ts)) s₂
        [⟨s, .expr params.head? arg⟩, ⟨s₁, .args function (index + 1) params.tail others⟩]
  | noElements {s start first} : Rule s (.elements start first []) (.exprs [] []) s []
  | element {s start first element others element' others' a t ts s₁ s₂} :
      P s (.expr none element) (.expr element' a) s₁ →
      t = (if element'.isRange then .int else a) → (first.getD t).agrees t = true →
      P s₁ (.elements start (some (first.getD t)) others) (.exprs others' ts) s₂ →
      Rule s (.elements start first (element :: others)) (.exprs (element' :: others') (t :: ts)) s₂
        [⟨s, .expr none element⟩, ⟨s₁, .elements start (some (first.getD t)) others⟩]
  | exprBody {s start ret value value' t s₁} : P s (.expr none value) (.expr value' t) s₁ →
      t.agrees ret = true →
      Rule s (.body start ret (.expr value)) (.body (.expr value')) s₁ [⟨s, .expr none value⟩]
  | blockBody {s start ret statements statements' s₁} :
      P s (.stmts ret statements) (.stmts statements') s₁ →
      Rule s (.body start ret (.block statements)) (.body (.block statements')) s₁
        [⟨s, .stmts ret statements⟩]
  | expression {s ret span value value' t s₁} : P s (.expr none value) (.expr value' t) s₁ →
      Rule s (.stmt ret (.expression span value)) (.stmt (.expression span value')) s₁
        [⟨s, .expr none value⟩]
  | declare {s ret span head t s'} :
      (s.table.addQualified head.name t s.table.declarationKind head.qualifier).1.SameButThreads
        s'.table →
      Rule s (.stmt ret (.declare span head none))
        (.stmt (.declare span
          { head with
            type := some t
            symbol := some
              (s.table.addQualified head.name t s.table.declarationKind head.qualifier).2 } none))
        s' []
  | declareInit {s ret span head init init' a b t s₁ s'} :
      P s (.expr head.type init) (.expr init' a) s₁ →
      (s₁.table.addQualified head.name t s₁.table.declarationKind head.qualifier).1.SameButThreads
        s'.table →
      Rule s (.stmt ret (.declare span head (some init)))
        (.stmt (.declare span
          { head with
            type := some t
            symbol := some
              (s₁.table.addQualified head.name t s₁.table.declarationKind head.qualifier).2 }
          (some (init'.withType b))))
        s' [⟨s, .expr head.type init⟩]
  | function {s ret span head body params body' s₀ s₁ s₂} :
      s₀ = (reportHead span head).after s →
      s₁ = (enterFunction head).after ((declareFunction head).after s₀) →
      s₁.table.HasParams head.params params →
      P s₁ (.stmts head.ret body) (.stmts body') s₂ →
      Rule s (.stmt ret (.function span head body))
        (.stmt (.function span
          { head with
            effective := some (effectiveModifier head.modifier head.ret)
            params := params
            symbol := some ((declareFunction head).answer s₀) } body'))
        ((leaveBlock head.modifier).after s₂) [⟨s₁, .stmts head.ret body⟩]
  | ret {s ret span value value' s' ps} : MaybeExpr P s value value' s' ps →
      Rule s (.stmt ret (.ret span value)) (.stmt (.ret span value')) s' ps
  | block {s ret span modifier body body' s₁} :
      P ((enterBlock modifier).after s) (.stmts ret body) (.stmts body') s₁ →
      Rule s (.stmt ret (.block span modifier body)) (.stmt (.block span modifier body'))
        ((leaveBlock modifier).after s₁) [⟨(enterBlock modifier).after s, .stmts ret body⟩]
  | cond {s ret span condition yes no condition' yes' no' t s₁ s₂ s₃ ps} :
      P s (.expr none condition) (.expr condition' t) s₁ → t.agrees .bool = true →
      P s₁ (.stmt ret yes) (.stmt yes') s₂ → MaybeStmt P s₂ ret no no' s₃ ps →
      Rule s (.stmt ret (.cond span condition yes no)) (.stmt (.cond span condition' yes' no')) s₃
        (⟨s, .expr none condition⟩ :: ⟨s₁, .stmt ret yes⟩ :: ps)
  | whileLoop {s ret span condition body shared condition' body' t s₁ s₂} :
      P s (.expr none condition) (.expr condition' t) s₁ → t.agrees .bool = true →
      P ((enterRegionIf (!shared)).after s₁) (.stmt ret body) (.stmt body') s₂ →
      body.isBlock = true →
      Rule s (.stmt ret (.whileLoop span condition body shared))
        (.stmt (.whileLoop span condition' body' shared)) ((exitRegionIf (!shared)).after s₂)
        [⟨s, .expr none condition⟩, ⟨(enterRegionIf (!shared)).after s₁, .stmt ret body⟩]
  | forLoop {s ret span init condition step body shared init' condition' step' body'
        s₁ s₂ s₃ s₄ ps₁ ps₂ ps₃} :
      MaybeStmt P (s.onLedger Ledger.pushScope) ret init init' s₁ ps₁ →
      MaybeExpr P s₁ condition condition' s₂ ps₂ → MaybeExpr P s₂ step step' s₃ ps₃ →
      P ((enterRegionIf (!shared)).after s₃) (.stmt ret body) (.stmt body') s₄ →
      body.isBlock = true →
      Rule s (.stmt ret (.forLoop span init condition step body shared))
        (.stmt (.forLoop span init' condition' step' body' shared)) ((leaveRound shared).after s₄)
        (ps₁ ++ ps₂ ++ ps₃ ++ [⟨(enterRegionIf (!shared)).after s₃, .stmt ret body⟩])
  | forEach {s ret span name symbol iterable body shared iterable' body' t element s₁ s₂} :
      P s (.expr none iterable) (.expr iterable' t) s₁ → t.element? = some element →
      P ((enterRound name element shared).after s₁) (.stmt ret body) (.stmt body') s₂ →
      body.isBlock = true →
      Rule s (.stmt ret (.forEach span name symbol iterable body shared))
        (.stmt (.forEach span name (some (s₁.table.pushScope.add name element .param).2) iterable'
          body' shared)) ((leaveRound shared).after s₂)
        [⟨s, .expr none iterable⟩, ⟨(enterRound name element shared).after s₁, .stmt ret body⟩]
  | leave {s ret span} : Rule s (.stmt ret (.leave span)) (.stmt (.leave span)) s []
  | next {s ret span} : Rule s (.stmt ret (.next span)) (.stmt (.next span)) s []
  | importMerged {s ret span module level text} :
      Rule s (.stmt ret (.importModule span module none []))
        (.stmt (.importModule span module none [])) ((note level text).after s) []
  | importSpace {s ret span module space statements statements' id s₁} :
      namespaceError? s.table space = none → (addSpace space).answer s = some id →
      P ((enterModule module space statements).after ((addSpace space).after s))
        (.stmts .void statements) (.stmts statements') s₁ →
      Rule s (.stmt ret (.importModule span module (some space) statements))
        (.stmt (.importModule span module (some space) statements')) (leaveModule.after s₁)
        [⟨(enterModule module space statements).after ((addSpace space).after s),
          .stmts .void statements⟩]
  | noStmts {s ret} : Rule s (.stmts ret []) (.stmts []) s []
  | stmt {s ret st others st' others' s₁ s₂} : P s (.stmt ret st) (.stmt st') s₁ →
      P s₁ (.stmts ret others) (.stmts others') s₂ →
      Rule s (.stmts ret (st :: others)) (.stmts (st' :: others')) s₂
        [⟨s, .stmt ret st⟩, ⟨s₁, .stmts ret others⟩]
  | wait {s id name} : Rule s (.wait id name) .waited ((syncPending id name).after s) []

end Rules

end ThreadRegions
