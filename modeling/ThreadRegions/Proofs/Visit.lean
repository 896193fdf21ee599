import ThreadRegions.Proofs.Action

/-!
# The points of a run

The walk over a program goes through many places, each in a state of its own.  A *point* is such a
place with the state in which the walk gets there.  `Point.parts` unfolds the walk by one level: it
lists the points directly inside of a point, in the order in which the walk gets to them, and says
of each whether the program runs it whenever it runs what is around.

## Main Definitions

* `Visit`, `Point`: what the walk does at a place, and in which state it begins
* `Role`: when the program runs a part of what it runs
* `Point.parts`: the points directly inside of a point

## Design Notes

A state that lies in the middle of a run does not show in the answer of the run, so the walk alone
does not tell which states it goes through.  `Point.parts` does, by running the walk up to the part
in question.  That no part is missing is not taken on trust: the composition lemmas of
`ThreadRegions.Proofs.Compose` get from the parts of a point to the state after it, which they could
not if the walk made a recursive call that is not listed.

Besides the recursive calls of the walk, waiting for the thread of one handle is a visit too, since
`[a, b]!` waits for one thread after the other.
-/

namespace ThreadRegions

open CheckM

/-- What the walk does at a place. -/
inductive Visit where
  /-- It checks an expression that is wanted at the type `hint`. -/
  | expr (hint : Option Ty) (e : Expr)
  /-- It checks arguments from number `index` on. -/
  | args (function : String) (index : Nat) (params : List Ty) (args : List Expr)
  /-- It checks the elements of an array literal. -/
  | elements (start : Position) (first : Option Ty) (elements : List Expr)
  /-- It checks the body of a lambda. -/
  | body (start : Position) (ret : Ty) (body : Body)
  /-- It checks a statement. -/
  | stmt (ret : Ty) (s : Stmt)
  /-- It checks statements one after the other. -/
  | stmts (ret : Ty) (statements : List Stmt)
  /-- It waits for the thread of a handle, if that may still run. -/
  | wait (id : SymbolId) (name : String)

/-- The state after a visit. -/
def Visit.after (s : Checker) : Visit → Checker
  | .expr hint e => (checkExpr hint e).after s
  | .args function index params es => (checkArgs function index params es).after s
  | .elements start first es => (checkElements start first es).after s
  | .body start ret b => (checkBody start ret b).after s
  | .stmt ret st => (checkStmt ret st).after s
  | .stmts ret sts => (checkStmts ret sts).after s
  | .wait id name => (syncPending id name).after s

/-- A place of a run. -/
structure Point where
  /-- The state in which the walk gets there. -/
  state : Checker
  /-- What it does there. -/
  visit : Visit

/-- The state in which the walk goes on. -/
def Point.after (p : Point) : Checker := p.visit.after p.state

/-- When the program runs a part of something that it runs. -/
inductive Role where
  /-- In any case. -/
  | always
  /-- If the condition holds. -/
  | whenTrue
  /-- If the condition does not hold. -/
  | whenFalse
  /-- Once for each round of a loop, of which there may be none. -/
  | eachRound
  /-- Not here: it is the body of a function or a lambda. -/
  | elsewhere
  deriving DecidableEq, Repr

/-- A point inside of another one. -/
structure Part extends Point where
  /-- When the program runs it. -/
  role : Role

namespace Part

/-- A part that runs in any case. -/
def always (s : Checker) (v : Visit) : Part := ⟨⟨s, v⟩, .always⟩

end Part

/-! ### Entering something -/

/-- Enters a block. -/
def enterBlock (modifier : Modifier) : CheckM Unit := do
  enterRegionIf (modifier = .isolated)
  onLedger Ledger.pushScope

/-- Enters the round of a loop over the elements of an array. -/
def enterRound (name : String) (element : Ty) (shared : Bool) : CheckM Unit := do
  onLedger Ledger.pushScope
  let _ ← askLedger fun l => l.add name element .param
  enterRegionIf (!shared)

/-- Checks what a loop does before its first round. -/
def loopInit (ret : Ty) : Option Stmt → CheckM Unit
  | none => return ()
  | some st => do let _ ← checkStmt ret st

/-- Checks the condition of a loop. -/
def loopCondition : Option Expr → CheckM Unit
  | none => return ()
  | some e => do let _ ← checkCondition "For" (← checkExpr none e)

/-- Checks what a loop does between two rounds. -/
def loopStep : Option Expr → CheckM Unit
  | none => return ()
  | some e => do let _ ← reportOutcome (← checkExpr none e)

/-- Enters the body of a lambda. -/
def enterLambda (head : LambdaHead) (types : List Ty) : CheckM Unit := do
  pushLambda
  enterRegionIf (head.modifier = .isolated)
  onLedger Ledger.pushFrame
  let _ ← declareParams (head.params.zip types)
  onLedger Ledger.alignLocals

/-- What a function declaration reports before it declares anything. -/
def reportHead (span : Span) (head : FunctionHead) : CheckM Unit := do
  reportUntyped head.params
  reportAny ((isolatedReturnError? head.modifier head.ret false).map (⟨·, span.start⟩))

/-- Declares the name of a function. -/
def declareFunction (head : FunctionHead) : CheckM SymbolId := do
  let effective := effectiveModifier head.modifier head.ret
  let id ← askLedger fun l => l.addFunction head.name head.type effective head.modifier
  note .debug s!"declared function '{head.name}' ({head.modifier.text} as {effective.text})"
  return id

/-- Enters the body of a function. -/
def enterFunction (head : FunctionHead) : CheckM Unit := do
  enterRegionIf (head.modifier = .isolated)
  onLedger Ledger.pushFrame
  let _ ← declareCheckedParams head.params
  onLedger Ledger.alignLocals

/-- Whether a function declaration clashes with another one. -/
def Checker.clashes (s : Checker) (name : String) : Bool :=
  (s.existing? name).any fun id => (s.table.symbol id).isFunction

/-- Adds a namespace, if its name is free. -/
def addSpace (space : String) : CheckM (Option SymbolId) := askLedger fun l => l.addNamespace space

/-- Enters an imported module. -/
def enterModule (module space : String) (statements : List Stmt) : CheckM Unit := do
  registerFunctions space statements
  note .debug s!"checking module '{module}' as namespace '{space}'"
  modify fun s => { s with importDepth := s.importDepth + 1 }
  onLedger Ledger.pushScope

/-! ### Parts -/

/-- The parts that are visited with the type of an expression, if it has one. -/
def Outcome.thenParts (o : Outcome) (next : Ty → Expr → List Part) : List Part :=
  match o.type with
  | .ok t => next t o.expr
  | .error _ => []

/-- The parts of a call, where `checkCallee` checks what is called and `calleeParts` are its
parts. -/
def callParts (s : Checker) (callee : Expr) (args : List Expr) (checkCallee : CheckM Outcome)
    (calleeParts : List Part) : List Part :=
  if s.table.callsLen callee then
    if args.length ≠ 1 then [] else [.always s (.args "len" 0 [] args)]
  else
    match callee.mutation?.filter fun (object, _) => s.table.isFrozen object with
    | some _ => []
    | none =>
      calleeParts ++ (checkCallee.answer s).thenParts fun type callee =>
        match type with
        | .fn params _ _ variadic =>
          if arityFits params variadic args.length then
            [.always (checkCallee.after s) (.args callee.calleeName 0 params args)]
          else []
        | _ => []

/-- Waiting for one handle after the other. -/
def waitParts (s : Checker) : List (Expr × SymbolId) → List Part
  | [] => []
  | (handle, id) :: others =>
    let name := handle.name?.getD ""
    .always s (.wait id name) :: waitParts ((syncPending id name).after s) others

/-- The parts of a lambda. -/
def lambdaParts (s : Checker) (node : Node) (head : LambdaHead) (body : Body) : List Part :=
  let types := lambdaParamTypes node.span.start head.params
  match head.ret with
  | none => []
  | some ret =>
    match types.answer s with
    | .error _ => []
    | .ok ts =>
      match isolatedReturnError? head.modifier ret true with
      | some _ => []
      | none =>
        [⟨⟨(enterLambda head ts).after (types.after s), .body node.span.start ret body⟩,
          .elsewhere⟩]

/-- The parts of an expression whose type is not known yet. -/
def exprParts (s : Checker) (hint : Option Ty) : Expr → List Part
  | .literal .. | .var .. => []
  | .binary _ _ left right =>
    .always s (.expr none left) :: ((checkExpr none left).answer s).thenParts fun _ _ =>
      [.always ((checkExpr none left).after s) (.expr none right)]
  | .unary _ _ operand => [.always s (.expr none operand)]
  | .assign _ name value =>
    match s.table.lookup name with
    | none => []
    | some id =>
      match mutationError? s.table name with
      | some _ => []
      | none => [.always (s.captured id) (.expr (some (s.table.symbol id).type) value)]
  | .indexAssign _ array index value =>
    match frozenError? s.table array with
    | some _ => []
    | none =>
      .always s (.expr none array) :: ((checkExpr none array).answer s).thenParts fun a _ =>
        let s := (checkExpr none array).after s
        match a.element? with
        | none => []
        | some _ =>
          .always s (.expr none index) :: ((checkExpr none index).answer s).thenParts fun i _ =>
            if !i.isIntegral then []
            else [.always ((checkExpr none index).after s) (.expr none value)]
  | .call _ callee args =>
    callParts s callee args (checkExpr none callee) [.always s (.expr none callee)]
  | .array n elements => [.always s (.elements n.span.start none elements)]
  | .access _ array index =>
    .always s (.expr none array) :: ((checkExpr none array).answer s).thenParts fun a _ =>
      match a.element? with
      | none => []
      | some _ => [.always ((checkExpr none array).after s) (.expr none index)]
  | .range _ first last =>
    .always s (.expr none first) :: ((checkExpr none first).answer s).thenParts fun a _ =>
      if !a.isNumber then [] else [.always ((checkExpr none first).after s) (.expr none last)]
  | .increment _ operand | .decrement _ operand =>
    match frozenError? s.table operand with
    | some _ => []
    | none => [.always s (.expr none operand)]
  | .member _ object _ =>
    match s.table.namespaceOf? object with
    | some _ => []
    | none => [.always s (.expr none object)]
  | .lambda n head body => lambdaParts s n (head.infer hint) body
  | .spawn _ (.call m callee args) _ =>
    .always s (.expr none callee) ::
      ((checkExpr none callee).answer s).thenParts fun type callee' =>
      match type with
      | .fn .. =>
        match (Expr.call m callee' args).type? with
        | some _ => []
        | none =>
          callParts ((checkExpr none callee).after s) callee' args (Outcome.known callee' type) []
      | _ => []
  | .spawn .. => []
  | .sync _ handle false =>
    match handle.name? with
    | none => []
    | some name =>
      match s.table.lookup name with
      | none => []
      | some id => [.always (s.captured id) (.wait id name)]
  | .sync n (.array _ handles) true =>
    let ids := resolveHandles n.span.start handles
    match ids.answer s with
    | .error _ => []
    | .ok found => waitParts (ids.after s) (handles.zip found)
  | .sync .. => []

/-- The parts of a statement. -/
def stmtParts (s : Checker) (ret : Ty) : Stmt → List Part
  | .expression _ value => [.always s (.expr none value)]
  | .declare _ _ none => []
  | .declare _ head (some init) => [.always s (.expr head.type init)]
  | .function span head body =>
    let s := (reportHead span head).after s
    if s.clashes head.name then []
    else
      [⟨⟨(enterFunction head).after ((declareFunction head).after s), .stmts head.ret body⟩,
        .elsewhere⟩]
  | .ret _ none => []
  | .ret _ (some value) => [.always s (.expr none value)]
  | .block _ modifier body => [.always ((enterBlock modifier).after s) (.stmts ret body)]
  | .cond _ condition yes no =>
    let checked := (checkExpr none condition).answer s
    let s₁ := (checkCondition "If" checked).after ((checkExpr none condition).after s)
    .always s (.expr none condition) :: ⟨⟨s₁, .stmt ret yes⟩, .whenTrue⟩ ::
      (no.map fun branch =>
        Part.mk ⟨(checkStmt ret yes).after s₁, .stmt ret branch⟩ .whenFalse).toList
  | .whileLoop _ condition body shared =>
    let checked := (checkExpr none condition).answer s
    let s₁ := (checkCondition "While" checked).after ((checkExpr none condition).after s)
    [.always s (.expr none condition),
      ⟨⟨(enterRegionIf (!shared)).after s₁, .stmt ret body⟩, .eachRound⟩]
  | .forLoop _ init condition step body shared =>
    let s₀ := s.onLedger Ledger.pushScope
    let s₁ := (loopInit ret init).after s₀
    let s₂ := (loopCondition condition).after s₁
    let s₃ := (loopStep step).after s₂
    (init.map fun st => Part.always s₀ (.stmt ret st)).toList ++
      (condition.map fun e => Part.always s₁ (.expr none e)).toList ++
      (step.map fun e => Part.mk ⟨s₂, .expr none e⟩ .eachRound).toList ++
      [⟨⟨(enterRegionIf (!shared)).after s₃, .stmt ret body⟩, .eachRound⟩]
  | .forEach _ name _ iterable body shared =>
    .always s (.expr none iterable) :: ((checkExpr none iterable).answer s).thenParts fun t _ =>
      match t.element? with
      | none => []
      | some element =>
        [⟨⟨(enterRound name element shared).after ((checkExpr none iterable).after s),
          .stmt ret body⟩, .eachRound⟩]
  | .leave _ | .next _ => []
  | .importModule _ _ none _ => []
  | .importModule _ module (some space) statements =>
    match namespaceError? s.table space with
    | some _ => []
    | none =>
      match (addSpace space).answer s with
      | none => []
      | some _ =>
        [.always ((enterModule module space statements).after ((addSpace space).after s))
          (.stmts .void statements)]

/-- The points directly inside of a point, in the order in which the walk gets to them. -/
def Point.parts (p : Point) : List Part :=
  match p.visit with
  | .expr hint e =>
    match e.type? with
    | some _ => []
    | none => exprParts p.state hint e
  | .args _ _ _ [] => []
  | .args function index params (arg :: others) =>
    let check := checkExpr params.head? arg
    .always p.state (.expr params.head? arg) :: (check.answer p.state).thenParts fun received _ =>
      match params.head?.bind fun param => argumentError? function index param received with
      | some _ => []
      | none => [.always (check.after p.state) (.args function (index + 1) params.tail others)]
  | .elements _ _ [] => []
  | .elements start first (element :: others) =>
    let check := checkExpr none element
    .always p.state (.expr none element) :: (check.answer p.state).thenParts fun t e =>
      let t := if e.isRange then .int else t
      if (first.getD t).agrees t then
        [.always (check.after p.state) (.elements start (some (first.getD t)) others)]
      else []
  | .body _ _ (.expr value) => [.always p.state (.expr none value)]
  | .body _ ret (.block statements) => [.always p.state (.stmts ret statements)]
  | .stmt ret st => stmtParts p.state ret st
  | .stmts _ [] => []
  | .stmts ret (st :: others) =>
    [.always p.state (.stmt ret st), .always ((checkStmt ret st).after p.state) (.stmts ret others)]
  | .wait .. => []

/-! ### The size of a visit -/

/-- The size of the tree that a visit walks over. -/
noncomputable def Visit.size : Visit → Nat
  | .expr _ e => sizeOf e
  | .args _ _ _ es | .elements _ _ es => sizeOf es
  | .body _ _ b => sizeOf b
  | .stmt _ st => sizeOf st
  | .stmts _ sts => sizeOf sts
  | .wait .. => 0

end ThreadRegions
