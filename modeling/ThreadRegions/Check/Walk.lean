import ThreadRegions.Check.Thread
import ThreadRegions.Token

/-!
# Checking expressions and statements

The walk over a program that finds the type of every expression, declares every name and reports
what is wrong.

## Main Definitions

* `checkExpr`, `checkStmt`, `checkStmts`: the walk
* `checkModule`: a whole module

## Design Notes

The walk is by recursion on the tree.  A type that is wanted from outside is handed down as `hint`;
only a lambda looks at it.
-/

namespace ThreadRegions

open CheckM

/-! ### Rules that look at no further part of the tree -/

/-- The type of a variable that is read. -/
def checkVar (e : Expr) (name : String) : CheckM Outcome := do
  match ← resolve name with
  | none => return ⟨e, .error (← undefined name e.start)⟩
  | some id =>
    let s := (← table).symbol id
    if s.isNamespace then Outcome.fail e (.undefinedVariable name none)
    else if s.isPending then Outcome.fail e (.pendingHandleUse name)
    else Outcome.succeed e s.type

/-- The namespace that an expression names. -/
def Table.namespaceOf? (t : Table) (object : Expr) : Option SymbolId :=
  (object.name?.bind t.lookup).filter fun id => (t.symbol id).isNamespace

/-- The type of a member of a namespace. -/
def checkNamespaceMember (e : Expr) (space : SymbolId) (name : String) : CheckM Outcome := do
  let s ← get
  let spaceName := (s.table.symbol space).name
  match s.table.lookupIn spaceName name with
  | some id => Outcome.succeed e (s.table.symbol id).type
  | none =>
    let names := (s.table.symbol space).members.map fun id => (s.table.symbol id).name
    Outcome.fail e (.noSuchMember spaceName name (closest name names s.suggestionDistance))

/-- The type of a member of a value. -/
def checkValueMember (e : Expr) (object : Ty) (name : String) : CheckM Outcome := do
  match object.member? name with
  | some t => Outcome.succeed e t
  | none =>
    let suggestion := closest name object.memberNames (← get).suggestionDistance
    Outcome.fail e (.noSuchMember object.text name suggestion)

/-- Whether the function that gives the length of an array or a string is called.  A declaration of
its name takes its place. -/
def Table.callsLen (t : Table) (callee : Expr) : Bool :=
  callee.name? = some "len" && (t.lookup "len").isNone

/-- The call of the function that gives a length. -/
def checkLen (node : Node) (callee : Expr) (args : List Expr) (checkArgs : CheckM ListOutcome) :
    CheckM Outcome := do
  if args.length ≠ 1 then Outcome.fail (.call node callee args) (.argumentCount "len" 1 args.length)
  else
    (← checkArgs).andThen (.call node callee ·) fun types args =>
      match types with
      | [t] =>
        if t.isHeap then
          Outcome.succeed (.call node (callee.withType (.function .int [t])) args) .int
        else Outcome.fail (.call node callee args) .lenArgument
      | _ => Outcome.fail (.call node callee args) .lenArgument

/-- Whether a function with the given parameters can be called with `count` arguments. -/
def arityFits (params : List Ty) (variadic : Bool) (count : Nat) : Bool :=
  if variadic then params.length ≤ count else count = params.length

/-- A call, where `checkCallee` checks what is called and `checkArgs` the arguments, for the name of
the function and its parameters. -/
def checkCall (node : Node) (callee : Expr) (args : List Expr) (checkCallee : CheckM Outcome)
    (checkArgs : String → List Ty → CheckM ListOutcome) : CheckM Outcome := do
  let e := Expr.call node callee args
  let t ← table
  if t.callsLen callee then checkLen node callee args (checkArgs "len" [])
  else
    match callee.mutation?.filter fun (object, _) => t.isFrozen object with
    | some (object, method) => Outcome.fail e (.frozenMethodCall method object)
    | none =>
      (← checkCallee).andThen (.call node · args) fun type callee => do
        let e := Expr.call node callee args
        match type with
        | .fn params _ ret variadic =>
          if arityFits params variadic args.length then
            (← checkArgs callee.calleeName params).andThen (.call node callee ·) fun _ args =>
              Outcome.succeed (.call node callee args) ret
          else
            Outcome.fail e (.argumentCount callee.calleeName params.length args.length)
        | other => Outcome.fail e (.callNonFunction callee.calleeName other.text)

/-- What is wrong with an argument of the given type, where `param` is wanted. -/
def argumentError? (function : String) (index : Nat) (param received : Ty) : Option Cause :=
  if param = .any then
    if received.isPrintable then none else some .unsupportedBuiltinArgument
  else if param.agrees received then none
  else some (.argumentMismatch function (index + 1) param.text received.text)

/-- The types of the parameters of a lambda, all of which have to be known by now. -/
def lambdaParamTypes (start : Position) : List Param → CheckM (Except Diagnostic (List Ty))
  | [] => return .ok []
  | p :: others => do
    match p.type with
    | none => return .error ⟨.lambdaParamInference, start⟩
    | some t =>
      match ← paramQualifier p.qualifier t p.span.start with
      | some d => return .error d
      | none => return (← lambdaParamTypes start others).map (t :: ·)

/-- A lambda, where `checkBody` checks its body for the given result. -/
def checkLambda (node : Node) (head : LambdaHead) (body : Body)
    (checkBody : Ty → CheckM (Body × Option Diagnostic)) : CheckM Outcome := do
  let e := Expr.lambda node head body
  match head.ret with
  | none => Outcome.fail e .lambdaReturnInference
  | some ret =>
    match ← lambdaParamTypes e.start head.params with
    | .error d => return ⟨e, .error d⟩
    | .ok types =>
      match isolatedReturnError? head.modifier ret true with
      | some cause => Outcome.fail e cause
      | none =>
        pushLambda
        let (params, body, error) ←
          withinRegion (head.modifier = .isolated) <| withinFrame do
            let params ← declareParams (head.params.zip types)
            onLedger Ledger.alignLocals
            let (body, error) ← checkBody ret
            return (params, body, error)
        let captures := (← popLambda).getD []
        note .debug s!"lambda captures {captures.length} variable(s)"
        let quals := Ty.qualifiersOf (head.params.map fun p => p.qualifier)
        let e := Expr.lambda node { head with params := params, captures := captures } body
        match error with
        | some d => return ⟨e, .error d⟩
        | none => Outcome.succeed e (.fn types quals ret false)

/-- The expression body of a lambda has to have the type that the lambda returns. -/
def checkBodyType (start : Position) (ret : Ty) (o : Outcome) : Body × Option Diagnostic :=
  match o.type with
  | .error d => (.expr o.expr, some d)
  | .ok t => (.expr o.expr, if t.agrees ret then none else some ⟨.lambdaBodyMismatch, start⟩)

/-- A condition has to be a boolean. -/
def checkCondition (construct : String) (o : Outcome) : CheckM Expr := do
  match o.type with
  | .error d => report d
  | .ok t =>
    if !t.agrees .bool then report ⟨.nonBooleanCondition construct, o.expr.start⟩
  return o.expr

/-- An expression for which only the errors count. -/
def reportOutcome (o : Outcome) : CheckM Expr := do
  match o.type with
  | .error d => report d
  | .ok _ => pure ()
  return o.expr

/-- The initial value of a variable, with the declared element type where that says more. -/
def VariableHead.refine (head : VariableHead) (init : Option Expr) : Option Expr :=
  match head.type with
  | some (.array element) => init.map fun e => e.refineArray element
  | _ => init

/-- The type of a variable with the given initial value. -/
def inferType (span : Span) (head : VariableHead) (init : Option Expr) : CheckM Ty :=
  match head.type, init.bind Expr.type? with
  | some t, _ => return t
  | none, some t => return t
  | none, none => do
    report ⟨.cannotInferType, span.start⟩
    return .nil

/-- Declares a variable of a known type. -/
def declareTyped (span : Span) (head : VariableHead) (type : Ty) : CheckM SymbolId := do
  reportAny (← varQualifier head.qualifier type span.start)
  let kind := (← table).declarationKind
  let id ← askLedger fun l => l.addQualified head.name type kind head.qualifier
  note .debug s!"declared {kind.name} '{head.name}' of type {type.text}"
  return id

/-- Reports an initial value that does not have the type of its variable. -/
def reportMismatch (span : Span) (type : Ty) (init : Option Expr) : CheckM Unit :=
  if (init.bind Expr.type?).any fun t => !type.agrees t then
    report
      ⟨if init.any Expr.isSpawn then .spawnResultMismatch else .initializerMismatch, span.start⟩
  else return ()

/-- Binds a variable to the thread that its initial value starts, if it does. -/
def recordInit (span : Span) (id : SymbolId) : Option Expr → CheckM Unit
  | some e => do reportAny (← recordSpawn id e span.start)
  | none => return ()

/-- Whether a thread without a result is started. -/
def startsVoid (init : Option Expr) : Bool :=
  init.any Expr.isSpawn && init.bind Expr.type? = some .void

/-- Declares a variable whose initial value has been checked and has no error. -/
def finishDeclare (span : Span) (head : VariableHead) (init : Option Expr) : CheckM Stmt :=
  if startsVoid init then do
    report ⟨.voidSpawnAssignment, span.start⟩
    return .declare span head init
  else do
    let init := head.refine init
    let type ← inferType span head init
    let id ← declareTyped span head type
    reportMismatch span type init
    recordInit span id init
    let written :=
      if (init.bind Expr.type?).isSome && head.type.isNone then some type else head.type
    return .declare span { head with type := written, symbol := some id } init

/-- Declares a variable whose initial value has an error. -/
def declareAnyway (span : Span) (head : VariableHead) (init : Expr) (d : Diagnostic) :
    CheckM Stmt := do
  report d
  let kind := (← table).declarationKind
  let id ← askLedger fun l => l.addQualified head.name (head.type.getD .nil) kind head.qualifier
  return .declare span { head with symbol := some id } (some init)

/-- The symbol that a function declaration would clash with.  Inside of an imported module only the
current scope counts. -/
def Checker.existing? (s : Checker) (name : String) : Option SymbolId :=
  if 0 < s.importDepth then s.table.lookupCurrent name else s.table.lookup name

/-- Reports each parameter without a type. -/
def reportUntyped : List Param → CheckM Unit
  | [] => return ()
  | p :: others => do
    if p.type.isNone then report ⟨.missingParameterType, p.span.start⟩
    reportUntyped others

/-- A function declaration, where `checkBody` checks its body. -/
def checkFunction (span : Span) (head : FunctionHead) (body : List Stmt)
    (checkBody : CheckM (List Stmt)) : CheckM Stmt := do
  reportUntyped head.params
  reportAny ((isolatedReturnError? head.modifier head.ret false).map (⟨·, span.start⟩))
  let effective := effectiveModifier head.modifier head.ret
  let head := { head with effective := some effective }
  let s ← get
  if (s.existing? head.name).any fun id => (s.table.symbol id).isFunction then
    report ⟨.functionAlreadyDefined head.name, span.start⟩
    return .function span head body
  let id ← askLedger fun l => l.addFunction head.name head.type effective head.modifier
  note .debug s!"declared function '{head.name}' ({head.modifier.text} as {effective.text})"
  let (params, body) ←
    withinRegion (head.modifier = .isolated) <| withinFrame do
      let params ← declareCheckedParams head.params
      onLedger Ledger.alignLocals
      let body ← checkBody
      return (params, body)
  return .function span { head with params := params, symbol := some id } body

/-- A returned value has to have the type that the function returns. -/
def checkReturnType (span : Span) (ret received : Ty) : CheckM Unit :=
  if received.agrees ret then pure ()
  else report ⟨.returnTypeMismatch ret.text received.text, span.start⟩

/-- What is wrong with the name of a namespace. -/
def namespaceError? (t : Table) (name : String) : Option Cause :=
  if isReserved name then some (.reservedNamespace name)
  else if t.isNamespace name then some (.namespaceAlreadyDefined name)
  else if (t.lookup name).isSome then some (.namespaceNameInUse name)
  else none

/-- Makes the functions of a module members of its namespace. -/
def registerFunctions (space : String) : List Stmt → CheckM Unit
  | [] => return ()
  | .function _ head _ :: others => do
    let _ ← askLedger fun l =>
      l.addFunctionToNamespace space head.name head.type
        (effectiveModifier head.modifier head.ret) head.modifier
    registerFunctions space others
  | _ :: others => registerFunctions space others

/-- An import, where `checkBody` checks the statements of the module. -/
def checkImport (span : Span) (module : String) (space : Option String) (statements : List Stmt)
    (checkBody : CheckM (List Stmt)) : CheckM Stmt := do
  let unchanged := Stmt.importModule span module space statements
  match space with
  | none =>
    note .trace s!"import '{module}' was merged by the parser"
    return unchanged
  | some name =>
    match namespaceError? (← table) name with
    | some cause =>
      report ⟨cause, span.start⟩
      return unchanged
    | none =>
      match ← askLedger fun l => l.addNamespace name with
      | none => return unchanged
      | some _ =>
        registerFunctions name statements
        note .debug s!"checking module '{module}' as namespace '{name}'"
        modify fun s => { s with importDepth := s.importDepth + 1 }
        let statements ← withinScope checkBody
        modify fun s => { s with importDepth := s.importDepth - 1 }
        return .importModule span module space statements

/-! ### The walk -/

mutual

/-- Checks an expression.  A lambda takes the types that it does not give from `hint`. -/
def checkExpr (hint : Option Ty) : Expr → CheckM Outcome
  | .literal n v => unlessKnown (.literal n v) <| Outcome.succeed (.literal n v) v.type
  | .var n name => unlessKnown (.var n name) <| checkVar (.var n name) name
  | .binary n op left right => unlessKnown (.binary n op left right) do
    (← checkExpr none left).andThen (.binary n op · right) fun a left => do
      (← checkExpr none right).andThen (.binary n op left ·) fun b right =>
        Outcome.settle (.binary n op left right) (op.result a b)
  | .unary n op operand => unlessKnown (.unary n op operand) do
    (← checkExpr none operand).andThen (.unary n op ·) fun a operand =>
      Outcome.settle (.unary n op operand) (op.result a)
  | .assign n name value => unlessKnown (.assign n name value) do
    let e := Expr.assign n name value
    match ← resolve name with
    | none => Outcome.fail e (.undefinedAssignTarget name ((← get).suggest name))
    | some id =>
      match mutationError? (← table) name with
      | some cause => Outcome.fail e cause
      | none =>
        let target := ((← table).symbol id).type
        (← checkExpr (some target) value).andThen (.assign n name ·) fun received value => do
          let e := Expr.assign n name value
          let t ← table
          if !target.agrees received then
            Outcome.fail e (.assignmentMismatch target.text received.text)
          else if (t.symbol id).region < t.region && !received.canEscape then
            Outcome.fail e .privateEscape
          else Outcome.succeed e target
  | .indexAssign n array index value => unlessKnown (.indexAssign n array index value) do
    match frozenError? (← table) array with
    | some cause => Outcome.fail (.indexAssign n array index value) cause
    | none =>
      (← checkExpr none array).andThen (.indexAssign n · index value) fun a array => do
        match a.element? with
        | none => Outcome.fail (.indexAssign n array index value) .indexNonArray
        | some element =>
          (← checkExpr none index).andThen (.indexAssign n array · value) fun i index => do
            if !i.isIntegral then
              Outcome.fail (.indexAssign n array index value) .indexNotInteger
            else
              (← checkExpr none value).andThen (.indexAssign n array index ·) fun v value =>
                let e := Expr.indexAssign n array index value
                if element.agrees v then Outcome.succeed e element
                else Outcome.fail e .indexAssignMismatch
  | .call n callee args => unlessKnown (.call n callee args) <|
    checkCall n callee args (checkExpr none callee) fun name params =>
      checkArgs name 0 params args
  | .array n elements => unlessKnown (.array n elements) do
    (← checkElements n.span.start none elements).andThen (.array n ·) fun types elements =>
      Outcome.succeed (.array n elements) (.array (types.headD .nil))
  | .access n array index => unlessKnown (.access n array index) do
    (← checkExpr none array).andThen (.access n · index) fun a array => do
      match a.element? with
      | none => Outcome.fail (.access n array index) .accessNonArray
      | some element =>
        (← checkExpr none index).andThen (.access n array ·) fun i index =>
          if i.isNumber then Outcome.succeed (.access n array index) element
          else Outcome.fail (.access n array index) .indexNotNumeric
  | .range n first last => unlessKnown (.range n first last) do
    (← checkExpr none first).andThen (.range n · last) fun a first => do
      if !a.isNumber then Outcome.fail (.range n first last) (.rangeBound "start")
      else
        (← checkExpr none last).andThen (.range n first ·) fun b last =>
          if b.isNumber then Outcome.succeed (.range n first last) (.array .int)
          else Outcome.fail (.range n first last) (.rangeBound "end")
  | .increment n operand => unlessKnown (.increment n operand) do
    match frozenError? (← table) operand with
    | some cause => Outcome.fail (.increment n operand) cause
    | none =>
      (← checkExpr none operand).andThen (.increment n ·) fun t operand =>
        if t.isNumber then Outcome.succeed (.increment n operand) t
        else Outcome.fail (.increment n operand) .incrementNonNumeric
  | .decrement n operand => unlessKnown (.decrement n operand) do
    match frozenError? (← table) operand with
    | some cause => Outcome.fail (.decrement n operand) cause
    | none =>
      (← checkExpr none operand).andThen (.decrement n ·) fun t operand =>
        if t.isNumber then Outcome.succeed (.decrement n operand) t
        else Outcome.fail (.decrement n operand) .incrementNonNumeric
  | .member n object name => unlessKnown (.member n object name) do
    match (← table).namespaceOf? object with
    | some space => checkNamespaceMember (.member n object name) space name
    | none =>
      (← checkExpr none object).andThen (.member n · name) fun t object =>
        checkValueMember (.member n object name) t name
  | .lambda n head body => unlessKnown (.lambda n head body) <|
    checkLambda n (head.infer hint) body fun ret => checkBody n.span.start ret body
  | .spawn n (.call m callee args) mode => unlessKnown (.spawn n (.call m callee args) mode) do
    (← checkExpr none callee).andThen (fun callee => .spawn n (.call m callee args) mode)
      fun type callee => do
        match type with
        | .fn _ _ ret _ =>
          let declared := declaredModifier (← table) callee
          (← unlessKnown (.call m callee args) <|
              checkCall m callee args (Outcome.known callee type) fun name params =>
                checkArgs name 0 params args).andThen (.spawn n · mode)
            fun _ call => do
              note .debug s!"spawn of {declared.text} function returning {ret.text}"
              Outcome.succeed (.spawn n call (some declared)) ret
        | _ => Outcome.fail (.spawn n (.call m callee args) mode) .spawnNonFunction
  | .spawn n other mode =>
    unlessKnown (.spawn n other mode) <| Outcome.fail (.spawn n other mode) .spawnRequiresCall
  | .sync n handle isArray => unlessKnown (.sync n handle isArray) <|
    if isArray then syncMany n handle else syncOne n handle

/-- Checks the arguments of a call from number `index` on, for the parameters from there on.
Arguments beyond the parameters may have any type. -/
def checkArgs (function : String) (index : Nat) (params : List Ty) : List Expr → CheckM ListOutcome
  | [] => return ⟨[], .ok []⟩
  | arg :: others => do
    let o ← checkExpr params.head? arg
    match o.type with
    | .error d => return ⟨o.expr :: others, .error d⟩
    | .ok received =>
      match params.head?.bind fun param => argumentError? function index param received with
      | some cause => return ⟨o.expr :: others, .error ⟨cause, o.expr.start⟩⟩
      | none =>
        let rest ← checkArgs function (index + 1) params.tail others
        return ⟨o.expr :: rest.exprs, rest.types.map (received :: ·)⟩

/-- Checks the elements of an array literal, all of which have to agree with `first`, the type of
the first one.  A range stands for its integers. -/
def checkElements (start : Position) (first : Option Ty) : List Expr → CheckM ListOutcome
  | [] => return ⟨[], .ok []⟩
  | element :: others => do
    let o ← checkExpr none element
    match o.type with
    | .error d => return ⟨o.expr :: others, .error d⟩
    | .ok t =>
      let t := if o.expr.isRange then .int else t
      if (first.getD t).agrees t then
        let rest ← checkElements start (some (first.getD t)) others
        return ⟨o.expr :: rest.exprs, rest.types.map (t :: ·)⟩
      else return ⟨o.expr :: others, .error ⟨.arrayElementMismatch, start⟩⟩

/-- Checks the body of a lambda that begins at `start` and returns `ret`. -/
def checkBody (start : Position) (ret : Ty) : Body → CheckM (Body × Option Diagnostic)
  | .expr value => return checkBodyType start ret (← checkExpr none value)
  | .block statements => return (.block (← checkStmts ret statements), none)

/-- Checks a statement inside of a function that returns `ret`. -/
def checkStmt (ret : Ty) : Stmt → CheckM Stmt
  | .expression span value => return .expression span (← reportOutcome (← checkExpr none value))
  | .declare span head none => finishDeclare span head none
  | .declare span head (some init) => do
    let o ← checkExpr head.type init
    match o.type with
    | .ok _ => finishDeclare span head (some o.expr)
    | .error d => declareAnyway span head o.expr d
  | .function span head body => checkFunction span head body (checkStmts head.ret body)
  | .ret span none => do
    checkReturnType span ret .void
    return .ret span none
  | .ret span (some value) => do
    let o ← checkExpr none value
    match o.type with
    | .ok t => checkReturnType span ret t
    | .error d => report d
    return .ret span (some o.expr)
  | .block span modifier body => do
    let body ← withinRegion (modifier = .isolated) <| withinScope <| checkStmts ret body
    return .block span modifier body
  | .cond span condition yes no => do
    let condition ← checkCondition "If" (← checkExpr none condition)
    let yes ← checkStmt ret yes
    let no ← match no with
      | none => pure none
      | some branch => some <$> checkStmt ret branch
    return .cond span condition yes no
  | .whileLoop span condition body shared => do
    let condition ← checkCondition "While" (← checkExpr none condition)
    let body ← withinRegion (!shared) <| checkStmt ret body
    return .whileLoop span condition body shared
  | .forLoop span init condition step body shared => withinScope do
    let init ← match init with
      | none => pure none
      | some s => some <$> checkStmt ret s
    let condition ← match condition with
      | none => pure none
      | some e => some <$> (checkExpr none e >>= checkCondition "For")
    let step ← match step with
      | none => pure none
      | some e => some <$> (checkExpr none e >>= reportOutcome)
    let body ← withinRegion (!shared) <| checkStmt ret body
    return .forLoop span init condition step body shared
  | .forEach span name symbol iterable body shared => do
    let o ← checkExpr none iterable
    match o.type with
    | .error d =>
      report d
      return .forEach span name symbol o.expr body shared
    | .ok t =>
      match t.element? with
      | none =>
        report ⟨.forEachNonArray, o.expr.start⟩
        return .forEach span name symbol o.expr body shared
      | some element => withinScope do
        let id ← askLedger fun l => l.add name element .param
        let body ← withinRegion (!shared) <| checkStmt ret body
        return .forEach span name (some id) o.expr body shared
  | .leave span => return .leave span
  | .next span => return .next span
  | .importModule span module space statements =>
    checkImport span module space statements (checkStmts .void statements)

/-- Checks statements one after the other. -/
def checkStmts (ret : Ty) : List Stmt → CheckM (List Stmt)
  | [] => return []
  | s :: others => do
    let s ← checkStmt ret s
    return s :: (← checkStmts ret others)

end

/-- Checks a module with a new checker, and gives back what the checker knows at the end and the
module with its annotations. -/
def checkModule (suggestionDistance : Nat) (m : Module) : Checker × Module :=
  let run : CheckM Module := do
    note .debug s!"type checking {m.file} ({m.statements.length} statements)"
    let statements ← checkStmts .void m.statements
    note .debug s!"finished with {(← get).errors.length} error(s)"
    return { m with statements := statements }
  let (m, s) := run.run (.initial suggestionDistance)
  (s, m)

/-- Whether nothing was wrong. -/
def Checker.accepted (s : Checker) : Bool := s.errors.isEmpty

end ThreadRegions
