import ThreadRegions.Grammar.Phrase
import ThreadRegions.Proofs.Tape

/-!
# The grammar in layers of calls

The readers of the grammar once more, on a tape, and with a limit on how deep their calls are
nested.

## Main Definitions

* `Readers`: the readers that call themselves or each other
* `Readers.next`, `Readers.upTo`: one layer of calls, and a number of them
* `parse`: the tokens of a file read as a module

## Design Notes

The readers of `Grammar` are functions because a measure shows that their calls end.  Here there
is no measure.  Each reader is given the readers `r` that it may call, and `Readers.upTo` puts one
layer of calls on another.  A call below the last layer has no answer.
-/

namespace ThreadRegions.Limited

/-! ### Readers that call each other -/

/-- The readers that call themselves or each other. -/
structure Readers where
  type : BindingPower → Reader Ty
  typeSuffixes : BindingPower → Ty → Reader Ty
  parameterTypes : Reader (List (Ty × Qualifier))
  parameterList : Reader (List Param)
  expr : BindingPower → Reader Expr
  operators : BindingPower → Expr → Reader Expr
  exprList : TokenKind → Reader (List Expr)
  condStmt : Reader Stmt
  stmt : Reader Stmt
  stmts : Reader (List Stmt)
  statements : Reader (List Stmt)

section

variable (r : Readers)

/-! ### Types -/

/-- A type that is a reserved word. -/
def builtinType : Reader Ty := do
  let token ← advance
  match Ty.ofKind? token.kind with
  | some ty => return ty
  | none => throw ⟨.unknownType token.value, token.span.start⟩

/-- A type by a name of its own. -/
def namedType : Reader Ty := do
  let name ← expect .identifier
  throw ⟨.unknownType name.value, name.span.start⟩

/-- An optional `as val` or `as ref`. -/
def qualifier : Reader Qualifier := do
  if ← eat (.word .as_) then
    let next ← kind
    if next = .word .val then
      let _ ← advance
      return .asVal
    else if next = .word .ref then
      let _ ← advance
      return .asRef
    else refuseBut "expected 'val' or 'ref' after 'as'"
  else return .default

/-- An optional `shared` or `private`. -/
def modifier : Reader Modifier := do
  let next ← kind
  if next = .word .shared then
    let _ ← advance
    return .shared
  else if next = .word .private_ then
    let _ ← advance
    return .isolated
  else return .default

/-- The brackets that make `element` the element type of an array. -/
def arrayType (element : Ty) : Reader Ty := do
  let _ ← expect (.punct .openBracket)
  let _ ← expect (.punct .closeBracket)
  return .array element

/-- A function type. -/
def functionType : Reader Ty := do
  let _ ← expect (.word .fn)
  let _ ← expect (.punct .openParen)
  let params ← r.parameterTypes
  let _ ← expect (.punct .closeParen)
  let found ← eat (.punct .colon)
  let make (ret : Ty) : Ty :=
    .fn (params.map Prod.fst) (Ty.qualifiersOf (params.map Prod.snd)) ret false
  if found then
    let ret ← r.type .default
    return make ret
  else return make .void

/-- A type without the brackets after it. -/
def startType : Reader Ty := do
  match Tables.language.typeForm? (← kind) with
  | none => refuseBut "expected a type"
  | some .builtin => builtinType
  | some .named => namedType
  | some .function => functionType r

/-- A type, with the brackets after it that bind more tightly than `bp`. -/
def type (bp : BindingPower) : Reader Ty := do
  let left ← startType r
  r.typeSuffixes bp left

/-- The brackets that follow a type. -/
def typeSuffixes (bp : BindingPower) (left : Ty) : Reader Ty := do
  if (Tables.language.typePower (← kind)).rank ≤ bp.rank then return left
  else
    let left ← arrayType left
    r.typeSuffixes bp left

/-- The types of the parameters of a function type, up to the closing parenthesis. -/
def parameterTypes : Reader (List (Ty × Qualifier)) := do
  if (← kind) = .punct .closeParen then return []
  else
    let param ← r.type .default
    let q ← qualifier
    if ← eat (.punct .comma) then
      let others ← r.parameterTypes
      return (param, q) :: others
    else return [(param, q)]

/-- An optional colon with a type. -/
def typeMark : Reader (Option Ty) := do
  if ← eat (.punct .colon) then
    let found ← r.type .default
    return some found
  else return none

/-- A parameter: a name, and perhaps a type and a qualifier. -/
def parameter : Reader Param := do
  let name ← expectBut .identifier "expected parameter name"
  let type ← typeMark r
  let q ← qualifier
  let span ← spanFrom name.span.start
  return ⟨name.value, type, q, span, none⟩

/-- Parameters separated by commas, up to the closing parenthesis. -/
def parameterList : Reader (List Param) := do
  if (← kind) = .punct .closeParen then return []
  else
    let param ← parameter r
    if ← eat (.punct .comma) then
      let others ← r.parameterList
      return param :: others
    else return [param]

/-- The parameters of a function or a lambda, in parentheses. -/
def parameters : Reader (List Param) := do
  let _ ← expect (.punct .openParen)
  let params ← r.parameterList
  let _ ← expect (.punct .closeParen)
  return params

/-! ### Expressions -/

/-- A literal or a name.  A token that is neither is left unread. -/
def primary : Reader Expr := do
  let token ← current
  match Grammar.primaryOf token with
  | .ok e => let _ ← advance; return e
  | .error cause => throw ⟨cause, token.span.start⟩

/-- An ending `++` or `--`. -/
def count (left : Expr) : Reader Expr := do
  let operator ← advance
  return Grammar.counted left operator

/-- An ending `!`. -/
def sync (left : Expr) : Reader Expr := do
  let bang ← expect (.punct .not)
  return .sync (.at (Grammar.spanTo left bang)) left false

/-- An ending `.name`. -/
def member (left : Expr) : Reader Expr := do
  let _ ← expect (.punct .dot)
  let name ← expectBut .identifier "expected member name after '.'"
  return .member (.at (Grammar.spanTo left name)) left name.value

/-- An operator before its operand: a minus sign, or else negation. -/
def unary : Reader Expr := do
  let operator ← advance
  let operand ← r.expr .unary
  return .unary (.at ⟨operator.span.start, operand.span.stop⟩)
    (if operator.kind = .punct .dash then .negate else .not) operand

/-- An expression in parentheses, which leave no trace. -/
def group : Reader Expr := do
  let _ ← expect (.punct .openParen)
  let inner ← r.expr .default
  let _ ← expect (.punct .closeParen)
  return inner

/-- An array literal. -/
def arrayLiteral : Reader Expr := do
  let first ← expect (.punct .openCurly)
  let elements ← r.exprList (.punct .closeCurly)
  let span ← spanFrom first.span.start
  return .array (.at span) elements

/-- Thread handles in brackets, and the exclamation mark that waits for them. -/
def arraySync : Reader Expr := do
  let first ← expect (.punct .openBracket)
  let handles ← r.exprList (.punct .closeBracket)
  let span ← spanFrom first.span.start
  let bang ← expectBut (.punct .not) "expected '!' after thread handle list"
  return .sync (.at ⟨first.span.start, bang.span.stop⟩) (.array (.at span) handles) true

/-- A call that is to run as a thread. -/
def spawn : Reader Expr := do
  let first ← expect (.punct .ampersand)
  let call ← r.expr .unary
  return .spawn (.at ⟨first.span.start, call.span.stop⟩) call none

/-- Statements in braces. -/
def block : Reader (List Stmt) := do
  let _ ← expectBut (.punct .openCurly) "expected '\x7b'"
  let body ← r.stmts
  let _ ← expect (.punct .closeCurly)
  return body

/-- The body of a lambda: an arrow and an expression, or a block. -/
def lambdaBody : Reader Body := do
  let next ← kind
  if next = .punct .fatArrow then
    let _ ← advance
    let value ← r.expr .comma
    return .expr value
  else if next = .punct .openCurly then
    let body ← block r
    return .block body
  else refuseBut "expected '=>' or '\x7b' after lambda signature"

/-- A lambda. -/
def lambda : Reader Expr := do
  let first ← expect (.word .fn)
  let params ← parameters r
  let modifier ← modifier
  let ret ← typeMark r
  let body ← lambdaBody r
  let span ← spanFrom first.span.start
  return .lambda (.at span) ⟨params, ret, modifier, []⟩ body

/-- An operator between two operands. -/
def binary (power : BindingPower) (left : Expr) : Reader Expr := do
  let operator ← advance
  match BinaryOp.ofKind? operator.kind with
  | none => throw ⟨.unexpectedToken operator.value, operator.span.start⟩
  | some op =>
    let right ← r.expr power
    return .binary (.at ⟨left.start, right.span.stop⟩) op left right

/-- A range. -/
def range (power : BindingPower) (left : Expr) : Reader Expr := do
  let _ ← expect (.punct .dotDot)
  let right ← r.expr power
  return .range (.at ⟨left.start, right.span.stop⟩) left right

/-- An assignment, which takes in another assignment on its right. -/
def assignment (left : Expr) : Reader Expr := do
  let operator ← advance
  let value ← r.expr .comma
  match left.assignTo? (.at ⟨left.start, value.span.stop⟩) value with
  | some e => return e
  | none =>
    throw ⟨.unexpectedTokenDetailed operator.value "invalid assignment target",
      operator.span.start⟩

/-- The arguments of a call. -/
def call (left : Expr) : Reader Expr := do
  let _ ← expect (.punct .openParen)
  let args ← r.exprList (.punct .closeParen)
  let span ← spanFrom left.start
  return .call (.at span) left args

/-- An index in brackets. -/
def index (left : Expr) : Reader Expr := do
  let _ ← expect (.punct .openBracket)
  let at_ ← r.expr .default
  let _ ← expect (.punct .closeBracket)
  let span ← spanFrom left.start
  return .access (.at span) left at_

/-- The beginning of an expression. -/
def startExpr : Reader Expr := do
  match Tables.language.startForm? (← kind) with
  | none => refuse
  | some .primary => primary
  | some .unary => unary r
  | some .group => group r
  | some .arrayLiteral => arrayLiteral r
  | some .arraySync => arraySync r
  | some .spawn => spawn r
  | some .lambda => lambda r

/-- One operator after `left`, with its operands. -/
def infixExpr (form : InfixForm) (power : BindingPower) (left : Expr) : Reader Expr :=
  match form with
  | .binary => binary r power left
  | .range => range r power left
  | .assignment => assignment r left
  | .call => call r left
  | .index => index r left
  | .count => count left
  | .sync => sync left
  | .member => member left

/-- An expression whose operators outside of brackets all bind more tightly than `bp`. -/
def expr (bp : BindingPower) : Reader Expr := do
  let left ← startExpr r
  r.operators bp left

/-- The operators after `left` that bind more tightly than `bp`, with their operands. -/
def operators (bp : BindingPower) (left : Expr) : Reader Expr := do
  match Tables.language.infixForm? (← kind) with
  | none => return left
  | some (power, form) =>
    if power.rank ≤ bp.rank then return left
    else
      let left ← infixExpr r form power left
      r.operators bp left

/-- Expressions separated by commas, up to and with the closing token. -/
def exprList (close : TokenKind) : Reader (List Expr) := do
  if (← kind) = close then
    let _ ← expect close
    return []
  else
    let item ← r.expr .comma
    if ← eat (.punct .comma) then
      let others ← r.exprList close
      return item :: others
    else
      let _ ← expect close
      return [item]

/-! ### Statements -/

/-- An optional `as` with the name of a namespace. -/
def namespaceName : Reader (Option String) := do
  if ← eat (.word .as_) then
    let token ← current
    if token.kind = .identifier ∨ isReserved token.value then
      let name ← advance
      return some name.value
    else refuseBut "expected namespace name after 'as'"
  else return none

/-- An import. -/
def importStmt : Reader Stmt := do
  let first ← expect (.word .import_)
  let module ← expectBut .string "expected module name string after 'import'"
  let space ← namespaceName
  let _ ← expect (.punct .semicolon)
  let span ← spanFrom first.span.start
  return .importModule span module.value space []

/-- A statement that is one word and a semicolon. -/
def wordStmt (word : Keyword) (make : Span → Stmt) : Reader Stmt := do
  let first ← expect (.word word)
  let _ ← expect (.punct .semicolon)
  let span ← spanFrom first.span.start
  return make span

/-- Leaving a loop. -/
def leaveStmt : Reader Stmt := wordStmt .break_ .leave

/-- Going on with a loop. -/
def nextStmt : Reader Stmt := wordStmt .continue_ .next

/-- A block as a statement. -/
def blockStmt (modifier : Modifier) : Reader Stmt := do
  let start ← position
  let body ← block r
  let span ← spanFrom start
  return .block span modifier body

/-- An expression as a statement. -/
def exprStmt : Reader Stmt := do
  let value ← r.expr .default
  let _ ← expect (.punct .semicolon)
  return .expression value.span value

/-- An optional equals sign with an expression. -/
def initialValue : Reader (Option Expr) := do
  if (← kind) = .punct .assignment then
    let _ ← advance
    let value ← r.expr .default
    return some value
  else return none

/-- An optional expression, which is missing if the token `close` follows. -/
def optionalExpr (close : TokenKind) : Reader (Option Expr) := do
  if (← kind) = close then return none
  else
    let value ← r.expr .default
    return some value

/-- The declaration of a variable. -/
def declareStmt : Reader Stmt := do
  let first ← expect (.word .var)
  let name ← expectBut .identifier "expected identifier during variable declaration"
  let type ← typeMark r
  let q ← qualifier
  let init ← initialValue r
  let _ ← expect (.punct .semicolon)
  let span ← spanFrom first.span.start
  return .declare span ⟨name.value, type, q, none⟩ init

/-- A block in a region of its own. -/
def isolatedStmt : Reader Stmt := do
  let _ ← expect (.word .private_)
  blockStmt r .isolated

/-- A loop with a condition. -/
def whileStmt : Reader Stmt := do
  let first ← expect (.word .while_)
  let condition ← r.expr .default
  let body ← blockStmt r .default
  let span ← spanFrom first.span.start
  return .whileLoop span condition body false

/-- What follows `for` in a loop over the elements of an array. -/
def forEachTail (start : Position) : Reader Stmt := do
  let name ← expect .identifier
  let _ ← expect (.word .in_)
  let iterable ← r.expr .default
  let body ← blockStmt r .default
  let span ← spanFrom start
  return .forEach span name.value none iterable body false

/-- The first clause of a loop with a counter, with its semicolon. -/
def forInit : Reader (Option Stmt) := do
  let next ← kind
  if next = .punct .semicolon then
    let _ ← advance
    return none
  else if next = .word .var then
    let first ← declareStmt r
    return some first
  else
    let first ← exprStmt r
    return some first

/-- What follows `for` in a loop with a counter.  Each of the three clauses may be missing. -/
def forLoopTail (start : Position) : Reader Stmt := do
  let init ← forInit r
  let condition ← optionalExpr r (.punct .semicolon)
  let _ ← expect (.punct .semicolon)
  let step ← optionalExpr r (.punct .openCurly)
  let body ← blockStmt r .default
  let span ← spanFrom start
  return .forLoop span init condition step body false

/-- A loop over the elements of an array, or one with a counter. -/
def forStmt : Reader Stmt := do
  let first ← expect (.word .for_)
  let next ← kind
  let afterNext ← kindAhead 1
  if next = .identifier ∧ afterNext = .word .in_ then forEachTail r first.span.start
  else forLoopTail r first.span.start

/-- A block or a loop that shares the region around it. -/
def sharedStmt : Reader Stmt := do
  let first ← expect (.word .shared)
  let next ← kind
  if next = .punct .openCurly then blockStmt r .shared
  else if next = .word .while_ then
    let loop ← whileStmt r
    let span ← spanFrom first.span.start
    return Grammar.asShared span loop
  else if next = .word .for_ then
    let loop ← forStmt r
    let span ← spanFrom first.span.start
    return Grammar.asShared span loop
  else refuseBut "expected block, 'while' or 'for' after 'shared'"

/-- An optional `else` with what it governs. -/
def elseBranch : Reader (Option Stmt) := do
  if (← kind) = .word .else_ then
    let _ ← advance
    if (← kind) = .word .if_ then
      let branch ← r.condStmt
      return some branch
    else
      let branch ← blockStmt r .default
      return some branch
  else return none

/-- A choice between two blocks, the second of which may be missing or another choice. -/
def condStmt : Reader Stmt := do
  let first ← expect (.word .if_)
  let condition ← r.expr .default
  let yes ← blockStmt r .default
  let no ← elseBranch r
  let span ← spanFrom first.span.start
  return .cond span condition yes no

/-- The declaration of a function.  Without a result type it returns nothing. -/
def functionStmt : Reader Stmt := do
  let first ← expect (.word .fn)
  let name ← expectBut .identifier "expected function name"
  let params ← parameters r
  let modifier ← modifier
  let ret ← typeMark r
  let body ← block r
  let span ← spanFrom first.span.start
  return .function span ⟨name.value, params, ret.getD .void, modifier, none, none⟩ body

/-- The end of a function, with or without a value. -/
def returnStmt : Reader Stmt := do
  let first ← expect (.word .return_)
  let value ← optionalExpr r (.punct .semicolon)
  let _ ← expect (.punct .semicolon)
  let span ← spanFrom first.span.start
  return .ret span value

/-- A statement.  The word `fn` begins a declaration, unless a parenthesis follows it. -/
def stmt : Reader Stmt := do
  let first ← kind
  let second ← kindAhead 1
  if first = .word .fn ∧ second = .punct .openParen then exprStmt r
  else
    match Tables.language.stmtForm? first with
    | none => exprStmt r
    | some .declare => declareStmt r
    | some .importModule => importStmt
    | some .cond => r.condStmt
    | some .whileLoop => whileStmt r
    | some .forLoop => forStmt r
    | some .block => blockStmt r .default
    | some .shared => sharedStmt r
    | some .isolated => isolatedStmt r
    | some .function => functionStmt r
    | some .ret => returnStmt r
    | some .leave => leaveStmt
    | some .next => nextStmt

/-- Statements up to a closing brace or an end mark. -/
def stmts : Reader (List Stmt) := do
  let first ← kind
  if first = .eof ∨ first = .punct .closeCurly then return []
  else
    let first ← r.stmt
    let others ← r.stmts
    return first :: others

/-- All statements up to an end mark. -/
def statements : Reader (List Stmt) := do
  if (← kind) = .eof then return []
  else
    let first ← r.stmt
    let others ← r.statements
    return first :: others

end

/-! ### Layers of calls -/

/-- A reader that has no answer. -/
def cutOff {α : Type} : Reader α := ExceptT.mk fun _ => none

namespace Readers

/-- The readers that call the given ones. -/
def next (r : Readers) : Readers where
  type := Limited.type r
  typeSuffixes := Limited.typeSuffixes r
  parameterTypes := Limited.parameterTypes r
  parameterList := Limited.parameterList r
  expr := Limited.expr r
  operators := Limited.operators r
  exprList := Limited.exprList r
  condStmt := Limited.condStmt r
  stmt := Limited.stmt r
  stmts := Limited.stmts r
  statements := Limited.statements r

/-- The readers whose calls are nested less than `depth` deep. -/
def upTo : (depth : Nat) → Readers
  | 0 => ⟨fun _ => cutOff, fun _ _ => cutOff, cutOff, cutOff, fun _ => cutOff, fun _ _ => cutOff,
      fun _ => cutOff, cutOff, cutOff, cutOff, cutOff⟩
  | depth + 1 => (upTo depth).next

end Readers

/-- Reads the tokens of a file as a module, if the calls are nested less than `depth` deep, and says
where the cursor has been. -/
def parse (depth : Nat) (tokens : List Token) (file : String) :
    Option (Except Diagnostic Module × Tape) :=
  let module : Reader Module := do
    let body ← (Readers.upTo depth).statements
    return ⟨body, file⟩
  module.run.run (Tape.ofTokens tokens file)

end ThreadRegions.Limited
