import ThreadRegions.Tree

/-!
# Lambdas and the names in them

A tree that has been checked has a number for each declaration.  What a name in it stands for can
then be told from the tree alone: it is the latest declaration in the innermost scope that has one.
This module walks over a tree and collects, for each of its lambdas, which declarations stand around
the lambda, what the names in its body stand for, and which captures have been noted down.

## Main Definitions

* `Binding`: a name and the number of its declaration
* `Declares`: some scopes have a declaration of the given number
* `Enclosing`, `Closure`: a lambda around a place of the tree, and one that has been left
* `Naming`: what can be seen at a place of the tree
* `closuresIn`: the lambdas of a program

## Design Notes

The global scope is not followed.  It is around all other scopes, so a name stands for a global
declaration, or for nothing, exactly if no other scope has it, and no lambda captures such a name.
The name of a function and the names of its parameters are declared like those of variables.
-/

namespace ThreadRegions

/-- A declared name. -/
structure Binding where
  /-- The name. -/
  name : String
  /-- The number that has been noted down for the declaration. -/
  symbol : Option SymbolId
  deriving DecidableEq, Repr

/-- The declaration of a parameter. -/
def Param.binding (p : Param) : Binding := ⟨p.name, p.symbol⟩

/-- One of the scopes has a declaration of the given number. -/
def Declares (scopes : List (List Binding)) (a : SymbolId) : Prop :=
  ∃ ds ∈ scopes, ∃ b ∈ ds, b.symbol = some a

instance (scopes : List (List Binding)) (a : SymbolId) : Decidable (Declares scopes a) :=
  inferInstanceAs (Decidable (∃ ds ∈ scopes, ∃ b ∈ ds, b.symbol = some a))

/-- The numbers of what has been captured. -/
def capturedSymbols (captures : List Capture) : List SymbolId := captures.map Capture.symbol

/-- A lambda around a place of the tree. -/
structure Enclosing where
  /-- The declarations around the lambda, in the scopes other than the global one.  The innermost
  scope and the latest declaration come first. -/
  around : List (List Binding)
  /-- The declarations that the names in its body stand for, up to the place. -/
  uses : List SymbolId
  /-- The captures of the lambdas in its body, up to the place. -/
  nested : List (List Capture)

/-- A lambda of the tree, with all that is in its body. -/
structure Closure extends Enclosing where
  /-- The captures that have been noted down for it. -/
  captures : List Capture

/-- What can be seen at a place of the tree, and the lambdas before it. -/
structure Naming where
  /-- The declarations in the scopes around other than the global one, the innermost scope and the
  latest declaration first. -/
  inner : List (List Binding)
  /-- The lambdas around, the innermost first. -/
  lambdas : List Enclosing
  /-- The lambdas that have been left. -/
  closures : List Closure

/-- The declaration that a name stands for in some scopes, of which the innermost is the first. -/
def lookupBinding (scopes : List (List Binding)) (name : String) : Option SymbolId :=
  (scopes.findSome? fun ds => ds.find? fun b => b.name = name).bind Binding.symbol

/-- A name is declared in the innermost of some scopes. -/
def declareBinding (scopes : List (List Binding)) (b : Binding) : List (List Binding) :=
  match scopes with
  | [] => []
  | ds :: outer => (b :: ds) :: outer

namespace Naming

/-- At the beginning only the global scope is open. -/
def initial : Naming := ⟨[], [], []⟩

/-- A name is declared in the innermost scope. -/
def declare (l : Naming) (name : String) (symbol : Option SymbolId) : Naming :=
  { l with inner := declareBinding l.inner ⟨name, symbol⟩ }

/-- A name is read or written to, in all lambdas around. -/
def use (l : Naming) (name : String) : Naming :=
  { l with
    lambdas := l.lambdas.map fun e =>
      { e with uses := e.uses ++ (lookupBinding l.inner name).toList } }

/-- A scope begins that has the given parameters. -/
def openScope (l : Naming) (params : List Param) : Naming :=
  { l with inner := (params.map Param.binding).reverse :: l.inner }

/-- The innermost scope ends. -/
def closeScope (l : Naming) : Naming := { l with inner := l.inner.tail }

/-- A lambda begins. -/
def pushLambda (l : Naming) : Naming :=
  { l with lambdas := ⟨l.inner, [], []⟩ :: l.lambdas }

/-- The innermost lambda ends, for which the given captures have been noted down. -/
def popLambda (l : Naming) (captures : List Capture) : Naming :=
  match l.lambdas with
  | [] => l
  | e :: outer =>
    { l with
      lambdas := outer.map fun e' => { e' with nested := e'.nested ++ [captures] }
      closures := l.closures ++ [⟨e, captures⟩] }

end Naming

/-! ### The walk over a tree -/

mutual

/-- Goes on to the end of an expression. -/
def Expr.traverse : Expr → Naming → Naming
  | .literal .., l => l
  | .var _ name, l => l.use name
  | .unary _ _ e, l | .increment _ e, l | .decrement _ e, l | .member _ e _, l | .spawn _ e _, l
  | .sync _ e _, l => e.traverse l
  | .binary _ _ a b, l | .access _ a b, l | .range _ a b, l => b.traverse (a.traverse l)
  | .assign _ name value, l => value.traverse (l.use name)
  | .indexAssign _ a i value, l => value.traverse (i.traverse (a.traverse l))
  | .call _ callee args, l => traverseExprs args (callee.traverse l)
  | .array _ elements, l => traverseExprs elements l
  | .lambda _ head body, l =>
    (body.traverse (l.pushLambda.openScope head.params)).closeScope.popLambda head.captures

/-- Goes on to the end of several expressions. -/
def traverseExprs : List Expr → Naming → Naming
  | [], l => l
  | e :: es, l => traverseExprs es (e.traverse l)

/-- Goes on to the end of an expression, if there is one. -/
def traverseExpr? : Option Expr → Naming → Naming
  | none, l => l
  | some e, l => e.traverse l

/-- Goes on to the end of the body of a lambda. -/
def Body.traverse : Body → Naming → Naming
  | .expr value, l => value.traverse l
  | .block statements, l => traverseStmts statements l

/-- Goes on to the end of a statement. -/
def Stmt.traverse : Stmt → Naming → Naming
  | .expression _ value, l => value.traverse l
  | .declare _ head init, l => (traverseExpr? init l).declare head.name head.symbol
  | .function _ head body, l =>
    (traverseStmts body ((l.declare head.name head.symbol).openScope head.params)).closeScope
  | .ret _ value, l => traverseExpr? value l
  | .block _ _ body, l => (traverseStmts body (l.openScope [])).closeScope
  | .cond _ condition yes no, l => traverseStmt? no (yes.traverse (condition.traverse l))
  | .whileLoop _ condition body _, l => body.traverse (condition.traverse l)
  | .forLoop _ init condition step body _, l =>
    (body.traverse (traverseExpr? step (traverseExpr? condition
      (traverseStmt? init (l.openScope []))))).closeScope
  | .forEach _ name symbol iterable body _, l =>
    (body.traverse (((iterable.traverse l).openScope []).declare name symbol)).closeScope
  | .leave _, l | .next _, l => l
  | .importModule _ _ none statements, l => traverseStmts statements l
  | .importModule _ _ (some _) statements, l =>
    (traverseStmts statements (l.openScope [])).closeScope

/-- Goes on to the end of a statement, if there is one. -/
def traverseStmt? : Option Stmt → Naming → Naming
  | none, l => l
  | some st, l => st.traverse l

/-- Goes on to the end of several statements. -/
def traverseStmts : List Stmt → Naming → Naming
  | [], l => l
  | st :: sts, l => traverseStmts sts (st.traverse l)

end

/-- The lambdas of a program, in the order in which they end. -/
def closuresIn (statements : List Stmt) : List Closure :=
  (traverseStmts statements .initial).closures

/-- The type of an expression has no part in the walk. -/
@[simp] theorem Expr.traverse_withType (e : Expr) (t : Ty) :
    (e.withType t).traverse = e.traverse := by
  cases e <;> rfl

end ThreadRegions
