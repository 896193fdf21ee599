import ThreadRegions.Grammar.Primary
import ThreadRegions.Grammar.Types

/-!
# Reading expressions and statements

Expressions are read by operator levels: a beginning, and then every operator that binds more
tightly than the level asked for.  Statements are chosen by their first token.

## Main Definitions

* `Grammar.expr`: an expression at a level
* `Grammar.stmt`, `Grammar.block`: a statement, and statements in braces
* one reader for each form of expression and statement

## Design Notes

The readers call each other, since a lambda can hold statements.  Each call is made with fewer
tokens left, or with as many tokens left by a reader further up in the order handlers, choice of a
handler, `expr`, lists and expression statements, `stmt`, `stmts`; the number in each
`termination_by` clause is that place.
-/

namespace ThreadRegions.Grammar

/-- An optional `as` with the name of a namespace.  A reserved word is let through here, so that it
can be refused as a name and not as syntax. -/
def namespaceName (c : Cursor) : Step (Option String) c 0 :=
  (c.eat (.word .as_)).andThen fun found rest _ =>
    if found then
      if rest.kind = .identifier ∨ isReserved rest.current.value then
        rest.read.map fun name => some name.value
      else .fail (rest.unexpectedBut "expected namespace name after 'as'")
    else .pure none

/-- An import. -/
def importStmt (c : Cursor) : Step Stmt c 1 :=
  (c.expect (.word .import_)).andThen fun first rest _ =>
    (rest.expectBut .string "expected module name string after 'import'").andThen
      fun module rest _ =>
        (namespaceName rest).andThen fun space rest _ =>
          (rest.expect (.punct .semicolon)).andThen fun _ rest _ =>
            .pure (.importModule (rest.spanFrom first.span.start) module.value space [])

/-- A statement that is one word and a semicolon. -/
def wordStmt (word : Keyword) (make : Span → Stmt) (c : Cursor) : Step Stmt c 1 :=
  (c.expect (.word word)).andThen fun first rest _ =>
    (rest.expect (.punct .semicolon)).andThen fun _ rest _ =>
      .pure (make (rest.spanFrom first.span.start))

/-- Leaving a loop. -/
def leaveStmt (c : Cursor) : Step Stmt c 1 := wordStmt .break_ .leave c

/-- Going on with a loop. -/
def nextStmt (c : Cursor) : Step Stmt c 1 := wordStmt .continue_ .next c

/-- The loop as a shared one that begins at the word `shared`.  Other statements stay as they
are. -/
def asShared (span : Span) : Stmt → Stmt
  | .whileLoop _ condition body _ => .whileLoop span condition body true
  | .forLoop _ init condition step body _ => .forLoop span init condition step body true
  | .forEach _ name symbol iterable body _ => .forEach span name symbol iterable body true
  | other => other

mutual

/-- An expression whose operators outside of brackets all bind more tightly than `bp`. -/
def expr (t : Tables) (bp : BindingPower) (c : Cursor) : Step Expr c 1 :=
  (startExpr t c).andThen fun left rest _ => operators t bp left rest
termination_by 8 * c.remaining + 2

/-- The operators after `left` that bind more tightly than `bp`, with their operands. -/
def operators (t : Tables) (bp : BindingPower) (left : Expr) (c : Cursor) : Step Expr c 0 :=
  match t.infixForm? c.kind with
  | none => .pure left
  | some (power, form) =>
    if power.rank ≤ bp.rank then .pure left
    else
      ((infixExpr t form power left c).andThen fun left rest _ => operators t bp left rest).any
termination_by 8 * c.remaining + 2

/-- The beginning of an expression. -/
def startExpr (t : Tables) (c : Cursor) : Step Expr c 1 :=
  match t.startForm? c.kind with
  | none => .fail c.unexpected
  | some .primary => primary c
  | some .unary => unary t c
  | some .group => group t c
  | some .arrayLiteral => arrayLiteral t c
  | some .arraySync => arraySync t c
  | some .spawn => spawn t c
  | some .lambda => lambda t c
termination_by 8 * c.remaining + 1

/-- One operator after `left`, with its operands. -/
def infixExpr (t : Tables) (form : InfixForm) (power : BindingPower) (left : Expr) (c : Cursor) :
    Step Expr c 1 :=
  match form with
  | .binary => binary t power left c
  | .range => range t power left c
  | .assignment => assignment t left c
  | .call => call t left c
  | .index => index t left c
  | .count => c.take.map (counted left)
  | .sync => sync left c
  | .member => member left c
termination_by 8 * c.remaining + 1

/-- An operator before its operand: a minus sign, or else negation. -/
def unary (t : Tables) (c : Cursor) : Step Expr c 1 :=
  c.take.andThen fun operator rest _ =>
    (expr t .unary rest).map fun operand =>
      .unary (.at ⟨operator.span.start, operand.span.stop⟩)
        (if operator.kind = .punct .dash then .negate else .not) operand
termination_by 8 * c.remaining

/-- An expression in parentheses, which leave no trace. -/
def group (t : Tables) (c : Cursor) : Step Expr c 1 :=
  (c.expect (.punct .openParen)).andThen fun _ rest _ =>
    (expr t .default rest).andThen fun inner rest _ =>
      (rest.expect (.punct .closeParen)).map fun _ => inner
termination_by 8 * c.remaining
decreasing_by all_goals simp only [TokenKind.width] at *; omega

/-- Expressions separated by commas, up to and with the closing token. -/
def exprList (t : Tables) (close : TokenKind) (c : Cursor) : Step (List Expr) c 0 :=
  if c.kind = close then ((c.expect close).map fun _ => []).any
  else
    ((expr t .comma c).andThen fun item rest _ =>
      (rest.eat (.punct .comma)).andThen fun more rest _ =>
        if more then (exprList t close rest).map (item :: ·)
        else ((rest.expect close).map fun _ => [item]).any).any
termination_by 8 * c.remaining + 3

/-- An array literal. -/
def arrayLiteral (t : Tables) (c : Cursor) : Step Expr c 1 :=
  (c.expect (.punct .openCurly)).andThen fun first rest _ =>
    (exprList t (.punct .closeCurly) rest).andThen fun elements rest _ =>
      .pure (.array (.at (rest.spanFrom first.span.start)) elements)
termination_by 8 * c.remaining
decreasing_by all_goals simp only [TokenKind.width] at *; omega

/-- Thread handles in brackets, and the exclamation mark that waits for them. -/
def arraySync (t : Tables) (c : Cursor) : Step Expr c 1 :=
  (c.expect (.punct .openBracket)).andThen fun first rest _ =>
    (exprList t (.punct .closeBracket) rest).andThen fun handles rest _ =>
      (rest.expectBut (.punct .not) "expected '!' after thread handle list").map fun bang =>
        .sync (.at ⟨first.span.start, bang.span.stop⟩)
          (.array (.at (rest.spanFrom first.span.start)) handles) true
termination_by 8 * c.remaining
decreasing_by all_goals simp only [TokenKind.width] at *; omega

/-- A call that is to run as a thread. -/
def spawn (t : Tables) (c : Cursor) : Step Expr c 1 :=
  (c.expect (.punct .ampersand)).andThen fun first rest _ =>
    (expr t .unary rest).map fun call =>
      .spawn (.at ⟨first.span.start, call.span.stop⟩) call none
termination_by 8 * c.remaining
decreasing_by all_goals simp only [TokenKind.width] at *; omega

/-- A lambda. -/
def lambda (t : Tables) (c : Cursor) : Step Expr c 1 :=
  (c.expect (.word .fn)).andThen fun first rest _ =>
    (parameters t rest).andThen fun params rest _ =>
      (modifier rest).andThen fun modifier rest _ =>
        (typeMark t rest).andThen fun ret rest _ =>
          (lambdaBody t rest).andThen fun body rest _ =>
            .pure (.lambda (.at (rest.spanFrom first.span.start))
              ⟨params, ret, modifier, []⟩ body)
termination_by 8 * c.remaining
decreasing_by all_goals simp only [TokenKind.width] at *; omega

/-- The body of a lambda: an arrow and an expression, or a block. -/
def lambdaBody (t : Tables) (c : Cursor) : Step Body c 1 :=
  match c.kind with
  | .punct .fatArrow =>
    c.take.andThen fun _ rest _ => (expr t .comma rest).map .expr
  | .punct .openCurly => (block t c).map .block
  | _ => .fail (c.unexpectedBut "expected '=>' or '\x7b' after lambda signature")
termination_by 8 * c.remaining + 1

/-- An operator between two operands. -/
def binary (t : Tables) (power : BindingPower) (left : Expr) (c : Cursor) : Step Expr c 1 :=
  c.take.andThen fun operator rest _ =>
    match BinaryOp.ofKind? operator.kind with
    | none => .fail ⟨.unexpectedToken operator.value, operator.span.start⟩
    | some op =>
      (expr t power rest).map fun right =>
        .binary (.at ⟨left.start, right.span.stop⟩) op left right
termination_by 8 * c.remaining

/-- A range. -/
def range (t : Tables) (power : BindingPower) (left : Expr) (c : Cursor) : Step Expr c 1 :=
  (c.expect (.punct .dotDot)).andThen fun _ rest _ =>
    (expr t power rest).map fun right =>
      .range (.at ⟨left.start, right.span.stop⟩) left right
termination_by 8 * c.remaining
decreasing_by all_goals simp only [TokenKind.width] at *; omega

/-- An assignment, which takes in another assignment on its right. -/
def assignment (t : Tables) (left : Expr) (c : Cursor) : Step Expr c 1 :=
  c.take.andThen fun operator rest _ =>
    (expr t .comma rest).andThen fun value rest _ =>
      match left.assignTo? (.at ⟨left.start, value.span.stop⟩) value with
      | some e => .pure e
      | none =>
        .fail ⟨.unexpectedTokenDetailed operator.value "invalid assignment target",
          operator.span.start⟩
termination_by 8 * c.remaining

/-- The arguments of a call. -/
def call (t : Tables) (left : Expr) (c : Cursor) : Step Expr c 1 :=
  (c.expect (.punct .openParen)).andThen fun _ rest _ =>
    (exprList t (.punct .closeParen) rest).andThen fun args rest _ =>
      .pure (.call (.at (rest.spanFrom left.start)) left args)
termination_by 8 * c.remaining
decreasing_by all_goals simp only [TokenKind.width] at *; omega

/-- An index in brackets. -/
def index (t : Tables) (left : Expr) (c : Cursor) : Step Expr c 1 :=
  (c.expect (.punct .openBracket)).andThen fun _ rest _ =>
    (expr t .default rest).andThen fun position rest _ =>
      (rest.expect (.punct .closeBracket)).andThen fun _ rest _ =>
        .pure (.access (.at (rest.spanFrom left.start)) left position)
termination_by 8 * c.remaining
decreasing_by all_goals simp only [TokenKind.width] at *; omega

/-- A statement.  The word `fn` begins a declaration, unless a parenthesis follows it. -/
def stmt (t : Tables) (c : Cursor) : Step Stmt c 1 :=
  if c.kind = .word .fn ∧ c.kindAhead 1 = .punct .openParen then exprStmt t c
  else
    match t.stmtForm? c.kind with
    | none => exprStmt t c
    | some .declare => declareStmt t c
    | some .importModule => importStmt c
    | some .cond => condStmt t c
    | some .whileLoop => whileStmt t c
    | some .forLoop => forStmt t c
    | some .block => blockStmt t .default c
    | some .shared => sharedStmt t c
    | some .isolated => isolatedStmt t c
    | some .function => functionStmt t c
    | some .ret => returnStmt t c
    | some .leave => leaveStmt c
    | some .next => nextStmt c
termination_by 8 * c.remaining + 4

/-- Statements up to a closing brace or an end mark. -/
def stmts (t : Tables) (c : Cursor) : Step (List Stmt) c 0 :=
  if c.kind = .eof ∨ c.kind = .punct .closeCurly then .pure []
  else
    ((stmt t c).andThen fun first rest _ => (stmts t rest).map (first :: ·)).any
termination_by 8 * c.remaining + 5

/-- Statements in braces. -/
def block (t : Tables) (c : Cursor) : Step (List Stmt) c 1 :=
  (c.expectBut (.punct .openCurly) "expected '\x7b'").andThen fun _ rest _ =>
    (stmts t rest).andThen fun body rest _ =>
      (rest.expect (.punct .closeCurly)).map fun _ => body
termination_by 8 * c.remaining
decreasing_by all_goals simp only [TokenKind.width] at *; omega

/-- A block as a statement. -/
def blockStmt (t : Tables) (modifier : Modifier) (c : Cursor) : Step Stmt c 1 :=
  (block t c).andThen fun body rest _ =>
    .pure (.block (rest.spanFrom c.position) modifier body)
termination_by 8 * c.remaining + 1

/-- An expression as a statement. -/
def exprStmt (t : Tables) (c : Cursor) : Step Stmt c 1 :=
  (expr t .default c).andThen fun value rest _ =>
    (rest.expect (.punct .semicolon)).map fun _ => .expression value.span value
termination_by 8 * c.remaining + 3

/-- The declaration of a variable. -/
def declareStmt (t : Tables) (c : Cursor) : Step Stmt c 1 :=
  (c.expect (.word .var)).andThen fun first rest _ =>
    (rest.expectBut .identifier "expected identifier during variable declaration").andThen
      fun name rest _ =>
        (typeMark t rest).andThen fun type rest _ =>
          (qualifier rest).andThen fun q rest _ =>
            (initialValue t rest).andThen fun init rest _ =>
              (rest.expect (.punct .semicolon)).andThen fun _ rest _ =>
                .pure (.declare (rest.spanFrom first.span.start) ⟨name.value, type, q, none⟩ init)
termination_by 8 * c.remaining
decreasing_by all_goals simp only [TokenKind.width] at *; omega

/-- An optional equals sign with an expression. -/
def initialValue (t : Tables) (c : Cursor) : Step (Option Expr) c 0 :=
  if c.kind = .punct .assignment then
    (c.take.andThen fun _ rest _ => (expr t .default rest).map some).any
  else .pure none
termination_by 8 * c.remaining

/-- An optional expression, which is missing if the token `close` follows. -/
def optionalExpr (t : Tables) (close : TokenKind) (c : Cursor) : Step (Option Expr) c 0 :=
  if c.kind = close then .pure none else ((expr t .default c).map some).any
termination_by 8 * c.remaining + 3

/-- A block in a region of its own. -/
def isolatedStmt (t : Tables) (c : Cursor) : Step Stmt c 1 :=
  (c.expect (.word .private_)).andThen fun _ rest _ => blockStmt t .isolated rest
termination_by 8 * c.remaining
decreasing_by all_goals simp only [TokenKind.width] at *; omega

/-- A block or a loop that shares the region around it. -/
def sharedStmt (t : Tables) (c : Cursor) : Step Stmt c 1 :=
  (c.expect (.word .shared)).andThen fun first rest _ =>
    match rest.kind with
    | .punct .openCurly => blockStmt t .shared rest
    | .word .while_ =>
      (whileStmt t rest).andThen fun loop rest _ =>
        .pure (asShared (rest.spanFrom first.span.start) loop)
    | .word .for_ =>
      (forStmt t rest).andThen fun loop rest _ =>
        .pure (asShared (rest.spanFrom first.span.start) loop)
    | _ => .fail (rest.unexpectedBut "expected block, 'while' or 'for' after 'shared'")
termination_by 8 * c.remaining
decreasing_by all_goals simp only [TokenKind.width] at *; omega

/-- A choice between two blocks, the second of which may be missing or another choice. -/
def condStmt (t : Tables) (c : Cursor) : Step Stmt c 1 :=
  (c.expect (.word .if_)).andThen fun first rest _ =>
    (expr t .default rest).andThen fun condition rest _ =>
      (blockStmt t .default rest).andThen fun yes rest _ =>
        (elseBranch t rest).andThen fun no rest _ =>
          .pure (.cond (rest.spanFrom first.span.start) condition yes no)
termination_by 8 * c.remaining
decreasing_by all_goals simp only [TokenKind.width] at *; omega

/-- An optional `else` with what it governs. -/
def elseBranch (t : Tables) (c : Cursor) : Step (Option Stmt) c 0 :=
  if c.kind = .word .else_ then
    (c.take.andThen fun _ rest _ =>
      if rest.kind = .word .if_ then (condStmt t rest).map some
      else (blockStmt t .default rest).map some).any
  else .pure none
termination_by 8 * c.remaining

/-- A loop with a condition. -/
def whileStmt (t : Tables) (c : Cursor) : Step Stmt c 1 :=
  (c.expect (.word .while_)).andThen fun first rest _ =>
    (expr t .default rest).andThen fun condition rest _ =>
      (blockStmt t .default rest).andThen fun body rest _ =>
        .pure (.whileLoop (rest.spanFrom first.span.start) condition body false)
termination_by 8 * c.remaining
decreasing_by all_goals simp only [TokenKind.width] at *; omega

/-- A loop over the elements of an array, or one with a counter. -/
def forStmt (t : Tables) (c : Cursor) : Step Stmt c 1 :=
  (c.expect (.word .for_)).andThen fun first rest _ =>
    if rest.kind = .identifier ∧ rest.kindAhead 1 = .word .in_ then
      (forEachTail t first.span.start rest).any
    else (forLoopTail t first.span.start rest).any
termination_by 8 * c.remaining
decreasing_by all_goals simp only [TokenKind.width] at *; omega

/-- What follows `for` in a loop over the elements of an array. -/
def forEachTail (t : Tables) (start : Position) (c : Cursor) : Step Stmt c 1 :=
  (c.expect .identifier).andThen fun name rest _ =>
    (rest.expect (.word .in_)).andThen fun _ rest _ =>
      (expr t .default rest).andThen fun iterable rest _ =>
        (blockStmt t .default rest).andThen fun body rest _ =>
          .pure (.forEach (rest.spanFrom start) name.value none iterable body false)
termination_by 8 * c.remaining
decreasing_by all_goals simp only [TokenKind.width] at *; omega

/-- What follows `for` in a loop with a counter.  Each of the three clauses may be missing. -/
def forLoopTail (t : Tables) (start : Position) (c : Cursor) : Step Stmt c 0 :=
  (forInit t c).andThen fun init rest _ =>
    (optionalExpr t (.punct .semicolon) rest).andThen fun condition rest _ =>
      (rest.expect (.punct .semicolon)).andThen fun _ rest _ =>
        (optionalExpr t (.punct .openCurly) rest).andThen fun step rest _ =>
          (blockStmt t .default rest).andThen fun body rest _ =>
            .pure (.forLoop (rest.spanFrom start) init condition step body false)
termination_by 8 * c.remaining + 5
decreasing_by
  all_goals try simp only [TokenKind.width] at *
  all_goals omega

/-- The first clause of a loop with a counter, with its semicolon. -/
def forInit (t : Tables) (c : Cursor) : Step (Option Stmt) c 0 :=
  match c.kind with
  | .punct .semicolon => c.read.map fun _ => none
  | .word .var => ((declareStmt t c).map some).any
  | _ => ((exprStmt t c).map some).any
termination_by 8 * c.remaining + 4

/-- The declaration of a function.  Without a result type it returns nothing. -/
def functionStmt (t : Tables) (c : Cursor) : Step Stmt c 1 :=
  (c.expect (.word .fn)).andThen fun first rest _ =>
    (rest.expectBut .identifier "expected function name").andThen fun name rest _ =>
      (parameters t rest).andThen fun params rest _ =>
        (modifier rest).andThen fun modifier rest _ =>
          (typeMark t rest).andThen fun ret rest _ =>
            (block t rest).andThen fun body rest _ =>
              .pure (.function (rest.spanFrom first.span.start)
                ⟨name.value, params, ret.getD .void, modifier, none, none⟩ body)
termination_by 8 * c.remaining
decreasing_by all_goals simp only [TokenKind.width] at *; omega

/-- The end of a function, with or without a value. -/
def returnStmt (t : Tables) (c : Cursor) : Step Stmt c 1 :=
  (c.expect (.word .return_)).andThen fun first rest _ =>
    (optionalExpr t (.punct .semicolon) rest).andThen fun value rest _ =>
      (rest.expect (.punct .semicolon)).andThen fun _ rest _ =>
        .pure (.ret (rest.spanFrom first.span.start) value)
termination_by 8 * c.remaining
decreasing_by all_goals simp only [TokenKind.width] at *; omega

end

/-- All statements up to an end mark. -/
def statements (t : Tables) (c : Cursor) : Step (List Stmt) c 0 :=
  if c.kind = .eof then .pure []
  else ((stmt t c).andThen fun first rest _ => (statements t rest).map (first :: ·)).any
termination_by c.remaining

/-- Reads the tokens of a file as a module. -/
def parse (tokens : List Token) (file : String) :
    Step Module (Cursor.ofTokens tokens file) 0 :=
  (statements .language (Cursor.ofTokens tokens file)).map fun body => ⟨body, file⟩

end ThreadRegions.Grammar
