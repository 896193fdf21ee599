import ThreadRegions.Token
import ThreadRegions.Tree

/-!
# What a token begins

Which kind of type, expression or statement a token begins, and how tightly an operator binds.

## Main Definitions

* `BindingPower`: the levels of operators
* `TypeForm`, `StartForm`, `InfixForm`, `StmtForm`: the readers that a token can ask for
* `Tables`: the tables that the grammar consults

## Design Notes

`Tables.none` is the grammar without any entry.  It is there for readers that are run one by one,
where the choice of a reader by the next token is not wanted.
-/

namespace ThreadRegions

/-- How tightly an operator holds its operands, loosest first. -/
inductive BindingPower where
  | default | comma | assignment | logical | relational | range | additive | multiplicative
  | unary | call | member | primary
  deriving DecidableEq, Repr

namespace BindingPower

/-- The place of a level among the others. -/
def rank : BindingPower → Nat
  | default => 0
  | comma => 1
  | assignment => 2
  | logical => 3
  | relational => 4
  | range => 5
  | additive => 6
  | multiplicative => 7
  | unary => 8
  | call => 9
  | member => 10
  | primary => 11

/-- The name of a level. -/
def name : BindingPower → String
  | default => "Default"
  | comma => "Comma"
  | assignment => "Assignment"
  | logical => "Logical"
  | relational => "Relational"
  | range => "Range"
  | additive => "Additive"
  | multiplicative => "Multiplicative"
  | unary => "Unary"
  | call => "Call"
  | member => "Member"
  | primary => "Primary"

/-- All levels. -/
def all : List BindingPower :=
  [default, comma, assignment, logical, relational, range, additive, multiplicative,
   unary, call, member, primary]

/-- The level with the given name. -/
def ofName? (s : String) : Option BindingPower := all.find? fun b => b.name = s

end BindingPower

/-- How a type can begin. -/
inductive TypeForm where
  | builtin | named | function
  deriving DecidableEq, Repr

/-- How an expression can begin. -/
inductive StartForm where
  | primary | unary | group | arrayLiteral | arraySync | spawn | lambda
  deriving DecidableEq, Repr

/-- How an expression can go on. -/
inductive InfixForm where
  | binary | range | assignment | call | index | count | sync | member
  deriving DecidableEq, Repr

/-- How a statement that is not an expression can begin. -/
inductive StmtForm where
  | declare | importModule | cond | whileLoop | forLoop | block | shared | isolated | function
  | ret | leave | next
  deriving DecidableEq, Repr

/-- The tables of the language, or no tables at all. -/
inductive Tables where
  | language | none
  deriving DecidableEq, Repr

/-- The operator that a token stands for between two operands. -/
def BinaryOp.ofKind? : TokenKind → Option BinaryOp
  | .punct .plus => some .add
  | .punct .dash => some .subtract
  | .punct .star => some .multiply
  | .punct .slash => some .divide
  | .punct .percent => some .modulo
  | .punct .equals => some .equal
  | .punct .notEquals => some .notEqual
  | .punct .less => some .less
  | .punct .lessEquals => some .lessEqual
  | .punct .greater => some .greater
  | .punct .greaterEquals => some .greaterEqual
  | .punct .and => some .and
  | .punct .or => some .or
  | _ => none

/-- The type that a reserved word names. -/
def Ty.ofKind? : TokenKind → Option Ty
  | .word .int => some .int
  | .word .long => some .long
  | .word .double => some .double
  | .word .char => some .char
  | .word .str => some .str
  | .word .bool => some .bool
  | .word .byte => some .byte
  | .word .void => some .void
  | _ => none

/-- How a type that begins with the given token is read. -/
def TypeForm.ofKind? : TokenKind → Option TypeForm
  | .identifier => some .named
  | .word .fn => some .function
  | kind => if kind.namesType then some .builtin else none

/-- How an expression that begins with the given token is read. -/
def StartForm.ofKind? : TokenKind → Option StartForm
  | .number | .longNumber | .charLiteral | .string | .identifier => some .primary
  | .word .true_ | .word .false_ | .word .nil => some .primary
  | .punct .dash | .punct .not => some .unary
  | .punct .openParen => some .group
  | .punct .openCurly => some .arrayLiteral
  | .punct .openBracket => some .arraySync
  | .punct .ampersand => some .spawn
  | .word .fn => some .lambda
  | _ => none

/-- How an expression goes on at the given token, and how tightly. -/
def InfixForm.ofKind? : TokenKind → Option (BindingPower × InfixForm)
  | .punct .assignment => some (.assignment, .assignment)
  | .punct .and | .punct .or => some (.logical, .binary)
  | .punct .less | .punct .lessEquals | .punct .greater | .punct .greaterEquals
  | .punct .equals | .punct .notEquals => some (.relational, .binary)
  | .punct .dotDot => some (.range, .range)
  | .punct .plus | .punct .dash => some (.additive, .binary)
  | .punct .star | .punct .slash | .punct .percent => some (.multiplicative, .binary)
  | .punct .openParen => some (.call, .call)
  | .punct .openBracket => some (.call, .index)
  | .punct .plusPlus | .punct .minusMinus => some (.call, .count)
  | .punct .not => some (.call, .sync)
  | .punct .dot => some (.member, .member)
  | _ => none

/-- How a statement that begins with the given token is read, if it is no expression. -/
def StmtForm.ofKind? : TokenKind → Option StmtForm
  | .word .var => some .declare
  | .word .import_ => some .importModule
  | .word .if_ => some .cond
  | .word .while_ => some .whileLoop
  | .word .for_ => some .forLoop
  | .punct .openCurly => some .block
  | .word .shared => some .shared
  | .word .private_ => some .isolated
  | .word .fn => some .function
  | .word .return_ => some .ret
  | .word .break_ => some .leave
  | .word .continue_ => some .next
  | _ => none

namespace Tables

/-- How a type begins. -/
def typeForm? : Tables → TokenKind → Option TypeForm
  | language, kind => TypeForm.ofKind? kind
  | none, _ => .none

/-- How tightly a token that follows a type binds to it. -/
def typePower : Tables → TokenKind → BindingPower
  | language, .punct .openBracket => .call
  | _, _ => .default

/-- How an expression begins. -/
def startForm? : Tables → TokenKind → Option StartForm
  | language, kind => StartForm.ofKind? kind
  | none, _ => .none

/-- How an expression goes on. -/
def infixForm? : Tables → TokenKind → Option (BindingPower × InfixForm)
  | language, kind => InfixForm.ofKind? kind
  | none, _ => .none

/-- How a statement begins. -/
def stmtForm? : Tables → TokenKind → Option StmtForm
  | language, kind => StmtForm.ofKind? kind
  | none, _ => .none

end Tables

end ThreadRegions
