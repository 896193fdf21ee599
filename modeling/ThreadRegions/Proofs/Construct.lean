import ThreadRegions.Proofs.Visit

/-!
# What a tree has that the symbol table sees

Most of a program only looks at names.  The table of symbols grows by declarations, by the scopes
that are opened and by the namespaces of imported modules.  Here these constructs of a tree are
listed, so that a proof can speak of trees that are without some of them.

## Main Definitions

* `Construct`: the constructs that leave something in the table
* `Expr.constructs`, `Stmt.constructs`, `Visit.constructs`: those of a tree, at any depth
-/

namespace ThreadRegions

/-- A construct that leaves something in the symbol table. -/
inductive Construct where
  /-- The declaration of a variable. -/
  | variable
  /-- The declaration of a function. -/
  | function
  /-- A lambda. -/
  | lambda
  /-- A block, or a loop with a scope of its own. -/
  | scope
  /-- An import with a namespace. -/
  | module
  deriving DecidableEq, Repr

mutual

/-- The constructs inside of an expression, in order. -/
@[simp] def Expr.constructs : Expr → List Construct
  | .literal .. | .var .. => []
  | .unary _ _ e | .assign _ _ e | .increment _ e | .decrement _ e | .member _ e _ | .spawn _ e _
  | .sync _ e _ => e.constructs
  | .binary _ _ a b | .access _ a b | .range _ a b => a.constructs ++ b.constructs
  | .indexAssign _ a i v => a.constructs ++ i.constructs ++ v.constructs
  | .call _ callee args => callee.constructs ++ exprsConstructs args
  | .array _ elements => exprsConstructs elements
  | .lambda _ _ body => .lambda :: body.constructs

/-- The constructs inside of a list of expressions. -/
@[simp] def exprsConstructs : List Expr → List Construct
  | [] => []
  | e :: es => e.constructs ++ exprsConstructs es

/-- The constructs inside of an expression, if there is one. -/
@[simp] def exprConstructs? : Option Expr → List Construct
  | none => []
  | some e => e.constructs

/-- The constructs inside of the body of a lambda. -/
@[simp] def Body.constructs : Body → List Construct
  | .expr value => value.constructs
  | .block statements => stmtsConstructs statements

/-- The constructs inside of a statement, with the statement itself.  An import without a namespace
is not walked over. -/
@[simp] def Stmt.constructs : Stmt → List Construct
  | .expression _ value => value.constructs
  | .declare _ _ init => .variable :: exprConstructs? init
  | .function _ _ body => .function :: stmtsConstructs body
  | .ret _ value => exprConstructs? value
  | .block _ _ body => .scope :: stmtsConstructs body
  | .cond _ condition yes no => condition.constructs ++ yes.constructs ++ stmtConstructs? no
  | .whileLoop _ condition body _ => condition.constructs ++ body.constructs
  | .forLoop _ init condition step body _ =>
    .scope :: (stmtConstructs? init ++ exprConstructs? condition ++ exprConstructs? step ++
      body.constructs)
  | .forEach _ _ _ iterable body _ => .scope :: (iterable.constructs ++ body.constructs)
  | .leave _ | .next _ => []
  | .importModule _ _ none _ => []
  | .importModule _ _ (some _) statements => .module :: stmtsConstructs statements

/-- The constructs inside of a statement, if there is one. -/
@[simp] def stmtConstructs? : Option Stmt → List Construct
  | none => []
  | some st => st.constructs

/-- The constructs inside of a list of statements. -/
@[simp] def stmtsConstructs : List Stmt → List Construct
  | [] => []
  | st :: sts => st.constructs ++ stmtsConstructs sts

end

/-- The constructs inside of the tree that a visit walks over. -/
@[simp] def Visit.constructs : Visit → List Construct
  | .expr _ e => e.constructs
  | .args _ _ _ es | .elements _ _ es => exprsConstructs es
  | .body _ _ b => b.constructs
  | .stmt _ st => st.constructs
  | .stmts _ sts => stmtsConstructs sts
  | .wait .. => []

end ThreadRegions
