import ThreadRegions.Grammar.Phrase

/-!
# Writing expressions with few parentheses

An expression is written as a list of tokens, without their places.  Parentheses stand only around
a part that binds too loosely for its place: the left operand of an operator may bind as tightly as
the operator and the right operand has to bind more tightly, the operand of a prefix has to bind as
tightly as a prefix, and what an ending is put behind has to bind as tightly as an ending.  An
assignment binds most loosely, and takes in everything on its right.

## Main Definitions

* `Expr.level`: how tightly an expression binds
* `Expr.spelling`: the tokens that an expression is written with
* `Expr.Written`: expressions made of operators, names and literals
* `Expr.unspanned`: an expression without its places

## Design Notes

A literal can be written in many ways, and need not be written in the same way wherever it stands.
How it is written is left open: `Expr.spelling` takes a function of the literal and of its node,
whose place tells two occurrences apart, and `Expr.Written` asks that what the function gives is
read as the literal.
-/

namespace ThreadRegions

/-- A token without its place. -/
abbrev Spelling := TokenKind × String

/-- The token without its place. -/
def Token.spelling (t : Token) : Spelling := (t.kind, t.value)

/-- How punctuation is written. -/
def Punct.spelling (p : Punct) : Spelling := (.punct p, String.ofList p.chars)

/-! ### Levels -/

namespace BinaryOp

/-- How tightly an operator binds its operands. -/
def power : BinaryOp → BindingPower
  | and | or => .logical
  | equal | notEqual | less | lessEqual | greater | greaterEqual => .relational
  | add | subtract => .additive
  | multiply | divide | modulo => .multiplicative

/-- The punctuation that an operator is written with. -/
def punct : BinaryOp → Punct
  | add => .plus
  | subtract => .dash
  | multiply => .star
  | divide => .slash
  | modulo => .percent
  | equal => .equals
  | notEqual => .notEquals
  | less => .less
  | lessEqual => .lessEquals
  | greater => .greater
  | greaterEqual => .greaterEquals
  | and => .and
  | or => .or

@[simp] theorem ofKind?_punct (op : BinaryOp) : ofKind? (.punct op.punct) = some op := by
  cases op <;> rfl

@[simp] theorem infixForm?_punct (op : BinaryOp) :
    InfixForm.ofKind? (.punct op.punct) = some (op.power, .binary) := by
  cases op <;> rfl

/-- Operators bind more tightly than an assignment and less tightly than a prefix. -/
theorem rank_power (op : BinaryOp) :
    BindingPower.assignment.rank < op.power.rank ∧ op.power.rank < BindingPower.unary.rank := by
  cases op <;> decide

end BinaryOp

/-- The punctuation that an operator is written with. -/
def UnaryOp.punct : UnaryOp → Punct
  | negate => .dash
  | not => .not

namespace Expr

/-- How tightly an expression binds. -/
def level : Expr → BindingPower
  | assign .. | indexAssign .. => .assignment
  | binary _ op _ _ => op.power
  | range .. => .range
  | unary .. | spawn .. => .unary
  | call .. | access .. | increment .. | decrement .. | sync _ _ false => .call
  | member .. => .member
  | literal .. | var .. | array .. | sync _ _ true | lambda .. => .primary

/-- Whether an expression begins with its own operator, or is a single token or in brackets. -/
def isPrefixed : Expr → Bool
  | literal .. | var .. | unary .. | spawn .. | array .. | sync _ _ true | lambda .. => true
  | _ => false

/-! ### Writing -/

/-- What is written in the place of an expression: in parentheses if its level is below `least`. -/
def placed (least : Nat) (level : BindingPower) (written : List Spelling) : List Spelling :=
  if level.rank < least then
    Punct.openParen.spelling :: written ++ [Punct.closeParen.spelling]
  else written

end Expr

mutual

/-- The tokens that an expression is written with, where each occurrence of a literal is written as
`w` says. -/
@[simp] def Expr.spelling (w : Node → Literal → Spelling) : Expr → List Spelling
  | .literal n v => [w n v]
  | .var _ name => [(.identifier, name)]
  | .binary _ op l r =>
    Expr.placed op.power.rank l.level (l.spelling w) ++ op.punct.spelling ::
      Expr.placed (op.power.rank + 1) r.level (r.spelling w)
  | .unary _ op e =>
    op.punct.spelling :: Expr.placed BindingPower.unary.rank e.level (e.spelling w)
  | .assign _ name v => (.identifier, name) :: Punct.assignment.spelling :: v.spelling w
  | .indexAssign _ a i v =>
    Expr.placed BindingPower.call.rank a.level (a.spelling w) ++ Punct.openBracket.spelling ::
      i.spelling w ++ Punct.closeBracket.spelling :: Punct.assignment.spelling :: v.spelling w
  | .call _ f args =>
    Expr.placed BindingPower.call.rank f.level (f.spelling w) ++ Punct.openParen.spelling ::
      spellings w args ++ [Punct.closeParen.spelling]
  | .array _ es =>
    Punct.openCurly.spelling :: spellings w es ++ [Punct.closeCurly.spelling]
  | .access _ a i =>
    Expr.placed BindingPower.call.rank a.level (a.spelling w) ++ Punct.openBracket.spelling ::
      i.spelling w ++ [Punct.closeBracket.spelling]
  | .range _ a b =>
    Expr.placed BindingPower.range.rank a.level (a.spelling w) ++ Punct.dotDot.spelling ::
      Expr.placed (BindingPower.range.rank + 1) b.level (b.spelling w)
  | .increment _ e =>
    Expr.placed BindingPower.call.rank e.level (e.spelling w) ++ [Punct.plusPlus.spelling]
  | .decrement _ e =>
    Expr.placed BindingPower.call.rank e.level (e.spelling w) ++ [Punct.minusMinus.spelling]
  | .member _ e name =>
    Expr.placed BindingPower.call.rank e.level (e.spelling w) ++
      [Punct.dot.spelling, (.identifier, name)]
  | .spawn _ e _ =>
    Punct.ampersand.spelling :: Expr.placed BindingPower.unary.rank e.level (e.spelling w)
  | .sync _ e false =>
    Expr.placed BindingPower.call.rank e.level (e.spelling w) ++ [Punct.not.spelling]
  | .sync _ (.array _ es) true =>
    Punct.openBracket.spelling :: spellings w es ++
      [Punct.closeBracket.spelling, Punct.not.spelling]
  | .sync _ _ true | .lambda .. => []

/-- Expressions with commas between them. -/
def spellings (w : Node → Literal → Spelling) : List Expr → List Spelling
  | [] => []
  | e :: es => e.spelling w ++ laterSpellings w es

/-- Expressions with a comma before each of them. -/
def laterSpellings (w : Node → Literal → Spelling) : List Expr → List Spelling
  | [] => []
  | e :: es => Punct.comma.spelling :: e.spelling w ++ laterSpellings w es

end

mutual

/-- The expression is made of operators, names and literals, and nothing is known about it yet.
Each of its literals is written by `w` as a token that is read as the literal. -/
def Expr.Written (w : Node → Literal → Spelling) : Expr → Prop
  | .literal n v => n.type = none ∧
    ∀ span, Grammar.primaryOf ⟨(w n v).1, (w n v).2, span⟩ = .ok (.literal (.at span) v)
  | .var n _ => n.type = none
  | .unary n _ e | .assign n _ e | .increment n e | .decrement n e | .member n e _ =>
    n.type = none ∧ e.Written w
  | .binary n _ a b | .access n a b | .range n a b => n.type = none ∧ a.Written w ∧ b.Written w
  | .indexAssign n a i v => n.type = none ∧ a.Written w ∧ i.Written w ∧ v.Written w
  | .call n f args => n.type = none ∧ f.Written w ∧ exprsWritten w args
  | .array n es => n.type = none ∧ exprsWritten w es
  | .spawn n e mode => n.type = none ∧ mode = none ∧ e.Written w
  | .sync n e false => n.type = none ∧ e.Written w
  | .sync n (.array m es) true => n.type = none ∧ m.type = none ∧ exprsWritten w es
  | .sync _ _ true | .lambda .. => False

/-- All expressions of a list are. -/
def exprsWritten (w : Node → Literal → Spelling) : List Expr → Prop
  | [] => True
  | e :: es => e.Written w ∧ exprsWritten w es

end

/-! ### Expressions without places -/

/-- What is known about an expression, apart from its place. -/
def Node.unspanned (n : Node) : Node := { n with span := ⟨⟨0, ""⟩, ⟨0, ""⟩⟩ }

theorem Node.unspanned_at {n : Node} (h : n.type = none) (span : Span) :
    (Node.at span).unspanned = n.unspanned := by
  rw [unspanned, unspanned, h]
  rfl

mutual

/-- The expression without places.  A lambda keeps those of its head and its body. -/
@[simp] def Expr.unspanned : Expr → Expr
  | .literal n v => .literal n.unspanned v
  | .var n name => .var n.unspanned name
  | .binary n op l r => .binary n.unspanned op l.unspanned r.unspanned
  | .unary n op e => .unary n.unspanned op e.unspanned
  | .assign n name v => .assign n.unspanned name v.unspanned
  | .indexAssign n a i v => .indexAssign n.unspanned a.unspanned i.unspanned v.unspanned
  | .call n f args => .call n.unspanned f.unspanned (exprsUnspanned args)
  | .array n es => .array n.unspanned (exprsUnspanned es)
  | .access n a i => .access n.unspanned a.unspanned i.unspanned
  | .range n a b => .range n.unspanned a.unspanned b.unspanned
  | .increment n e => .increment n.unspanned e.unspanned
  | .decrement n e => .decrement n.unspanned e.unspanned
  | .member n e name => .member n.unspanned e.unspanned name
  | .lambda n head body => .lambda n.unspanned head body
  | .spawn n e mode => .spawn n.unspanned e.unspanned mode
  | .sync n e isArray => .sync n.unspanned e.unspanned isArray

/-- The expressions of a list without places. -/
def exprsUnspanned : List Expr → List Expr
  | [] => []
  | e :: es => e.unspanned :: exprsUnspanned es

end

end ThreadRegions
