import ThreadRegions.Text.Position
import ThreadRegions.Ty

/-!
# Syntax trees

Expressions and statements, with room for what the checker finds out about them.

## Main Definitions

* `Literal`, `BinaryOp`, `UnaryOp`: the leaves and operators of expressions
* `Expr`, `Body`, `Stmt`: the trees
* `Module`: the statements of one file

## Design Notes

A tree is built by the grammar without annotations.  The checker gives back the same tree with the
type of every expression, the symbol of every declaration, the captures of every lambda and the
mode of every spawned thread filled in.  One type serves for both, since a tree that failed to
check is annotated in part, and since a checked tree can be checked again.
-/

namespace ThreadRegions

/-- The number of a symbol in the symbol table. -/
abbrev SymbolId := Nat

/-- A value that is written out. -/
inductive Literal where
  | int (value : Int)
  | long (value : Int)
  /-- A number of the format binary64, by its bits. -/
  | double (bits : UInt64)
  | char (value : Char)
  | str (value : String)
  | bool (value : Bool)
  | nil
  deriving DecidableEq, Repr

/-- The type of a literal. -/
def Literal.type : Literal → Ty
  | int _ => .int
  | long _ => .long
  | double _ => .double
  | char _ => .char
  | str _ => .str
  | bool _ => .bool
  | nil => .nil

/-- Operators between two operands. -/
inductive BinaryOp where
  | add | subtract | multiply | divide | modulo
  | equal | notEqual | less | lessEqual | greater | greaterEqual
  | and | or
  deriving DecidableEq, Repr

namespace BinaryOp

/-- All operators. -/
def all : List BinaryOp :=
  [add, subtract, multiply, divide, modulo,
   equal, notEqual, less, lessEqual, greater, greaterEqual, and, or]

/-- The name of an operator. -/
def name : BinaryOp → String
  | add => "Add"
  | subtract => "Subtract"
  | multiply => "Multiply"
  | divide => "Divide"
  | modulo => "Modulo"
  | equal => "Equal"
  | notEqual => "NotEqual"
  | less => "Less"
  | lessEqual => "LessEqual"
  | greater => "Greater"
  | greaterEqual => "GreaterEqual"
  | and => "And"
  | or => "Or"

/-- Operators that compare their operands. -/
def isComparison : BinaryOp → Bool
  | equal | notEqual | less | lessEqual | greater | greaterEqual => true
  | _ => false

/-- Operators on numbers only.  Addition also joins strings and is not one of them. -/
def isArithmetic : BinaryOp → Bool
  | subtract | multiply | divide | modulo => true
  | _ => false

end BinaryOp

/-- Operators before one operand. -/
inductive UnaryOp where
  | negate | not
  deriving DecidableEq, Repr

/-- The name of an operator. -/
def UnaryOp.name : UnaryOp → String
  | negate => "Negate"
  | not => "Not"

/-- What is known about an expression: where it stands and, once it has been checked, its type. -/
structure Node where
  /-- The text it was read from. -/
  span : Span
  /-- Its type. -/
  type : Option Ty
  deriving DecidableEq, Repr

/-- An expression that has not been checked. -/
def Node.at (span : Span) : Node := ⟨span, none⟩

/-- A variable that a lambda uses from outside. -/
structure Capture where
  /-- Its name. -/
  name : String
  /-- Its type when it was first used. -/
  type : Ty
  /-- Its symbol. -/
  symbol : SymbolId
  deriving DecidableEq, Repr

/-- A parameter of a function or a lambda. -/
structure Param where
  /-- Its name. -/
  name : String
  /-- Its type, if it is written or has been inferred. -/
  type : Option Ty
  /-- How it is passed. -/
  qualifier : Qualifier
  /-- The text it was read from. -/
  span : Span
  /-- Its symbol, once it has been declared. -/
  symbol : Option SymbolId
  deriving DecidableEq, Repr

/-- A lambda without its body. -/
structure LambdaHead where
  /-- Its parameters. -/
  params : List Param
  /-- What it returns, if that is written or has been inferred. -/
  ret : Option Ty
  /-- The region it works in. -/
  modifier : Modifier
  /-- The variables it uses from outside. -/
  captures : List Capture
  deriving DecidableEq, Repr

/-- A function declaration without its body. -/
structure FunctionHead where
  /-- Its name. -/
  name : String
  /-- Its parameters. -/
  params : List Param
  /-- What it returns. -/
  ret : Ty
  /-- The modifier it is declared with. -/
  modifier : Modifier
  /-- The modifier it works with. -/
  effective : Option Modifier
  /-- Its symbol, once it has been declared. -/
  symbol : Option SymbolId
  deriving DecidableEq, Repr

/-- A variable declaration without its initial value. -/
structure VariableHead where
  /-- Its name. -/
  name : String
  /-- Its type, if it is written or has been inferred. -/
  type : Option Ty
  /-- How it holds its value. -/
  qualifier : Qualifier
  /-- Its symbol, once it has been declared. -/
  symbol : Option SymbolId
  deriving DecidableEq, Repr

mutual

/-- Expressions. -/
inductive Expr where
  | literal (node : Node) (value : Literal)
  | var (node : Node) (name : String)
  | binary (node : Node) (op : BinaryOp) (left right : Expr)
  | unary (node : Node) (op : UnaryOp) (operand : Expr)
  | assign (node : Node) (name : String) (value : Expr)
  | indexAssign (node : Node) (array index value : Expr)
  | call (node : Node) (callee : Expr) (args : List Expr)
  | array (node : Node) (elements : List Expr)
  | access (node : Node) (array index : Expr)
  | range (node : Node) (first last : Expr)
  | increment (node : Node) (operand : Expr)
  | decrement (node : Node) (operand : Expr)
  | member (node : Node) (object : Expr) (name : String)
  | lambda (node : Node) (head : LambdaHead) (body : Body)
  /-- A call that runs as a thread, with the modifier of the function it runs. -/
  | spawn (node : Node) (call : Expr) (mode : Option Modifier)
  /-- Waiting for one thread, or for each thread of an array literal. -/
  | sync (node : Node) (handle : Expr) (isArray : Bool)

/-- What a lambda does: it gives the value of an expression, or runs statements. -/
inductive Body where
  | expr (value : Expr)
  | block (statements : List Stmt)

/-- Statements. -/
inductive Stmt where
  | expression (span : Span) (value : Expr)
  | declare (span : Span) (head : VariableHead) (init : Option Expr)
  | function (span : Span) (head : FunctionHead) (body : List Stmt)
  | ret (span : Span) (value : Option Expr)
  | block (span : Span) (modifier : Modifier) (body : List Stmt)
  | cond (span : Span) (condition : Expr) (yes : Stmt) (no : Option Stmt)
  | whileLoop (span : Span) (condition : Expr) (body : Stmt) (shared : Bool)
  | forLoop (span : Span) (init : Option Stmt) (condition step : Option Expr) (body : Stmt)
      (shared : Bool)
  | forEach (span : Span) (name : String) (symbol : Option SymbolId) (iterable : Expr)
      (body : Stmt) (shared : Bool)
  | leave (span : Span)
  | next (span : Span)
  /-- An import.  One with a namespace holds the statements of its module. -/
  | importModule (span : Span) (module : String) (space : Option String)
      (statements : List Stmt)

end

namespace Expr

/-- What is known about an expression. -/
def node : Expr → Node
  | literal n _ | var n _ | binary n _ _ _ | unary n _ _ | assign n _ _
  | indexAssign n _ _ _ | call n _ _ | array n _ | access n _ _ | range n _ _
  | increment n _ | decrement n _ | member n _ _ | lambda n _ _ | spawn n _ _ | sync n _ _ => n

/-- The expression with something else known about it. -/
def withNode (n : Node) : Expr → Expr
  | literal _ v => literal n v
  | var _ x => var n x
  | binary _ op l r => binary n op l r
  | unary _ op e => unary n op e
  | assign _ x e => assign n x e
  | indexAssign _ a i e => indexAssign n a i e
  | call _ f args => call n f args
  | array _ es => array n es
  | access _ a i => access n a i
  | range _ a b => range n a b
  | increment _ e => increment n e
  | decrement _ e => decrement n e
  | member _ o m => member n o m
  | lambda _ h b => lambda n h b
  | spawn _ c m => spawn n c m
  | sync _ h a => sync n h a

/-- Where an expression stands. -/
def span (e : Expr) : Span := e.node.span

/-- The place an expression begins at, where its errors are reported. -/
def start (e : Expr) : Position := e.span.start

/-- The type of an expression, once it is known. -/
def type? (e : Expr) : Option Ty := e.node.type

/-- The expression with its type noted down. -/
def withType (t : Ty) (e : Expr) : Expr := e.withNode { e.node with type := some t }

/-- The name, if the expression is a bare variable. -/
def name? : Expr → Option String
  | var _ name => some name
  | _ => none

/-- Whether the expression starts a thread. -/
def isSpawn : Expr → Bool
  | spawn .. => true
  | _ => false

/-- Whether the expression is a range. -/
def isRange : Expr → Bool
  | range .. => true
  | _ => false

/-- Whether the expression is an array literal. -/
def isArrayLiteral : Expr → Bool
  | array .. => true
  | _ => false

@[simp] theorem node_withNode (n : Node) (e : Expr) : (e.withNode n).node = n := by
  cases e <;> rfl

@[simp] theorem type?_withType (t : Ty) (e : Expr) : (e.withType t).type? = some t := by
  simp [type?, withType]

end Expr

/-- Where a statement stands. -/
def Stmt.span : Stmt → Span
  | .expression s _ | .declare s _ _ | .function s _ _ | .ret s _ | .block s _ _
  | .cond s _ _ _ | .whileLoop s _ _ _ | .forLoop s _ _ _ _ _ | .forEach s _ _ _ _ _
  | .leave s | .next s | .importModule s _ _ _ => s

/-- The place a statement begins at. -/
def Stmt.start (s : Stmt) : Position := s.span.start

/-- The statements of one file. -/
structure Module where
  /-- Its statements, in order. -/
  statements : List Stmt
  /-- The name of the file. -/
  file : String

end ThreadRegions
