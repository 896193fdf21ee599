import ThreadRegions.Proofs.Relocate

/-!
# Trees without the numbers of symbols

The checker notes down in the tree which symbol a declaration has made and what a lambda captures.
No rule looks at these notes.  Two runs whose tables number their symbols in different ways make
trees that differ in nothing but these notes, so for a *rough* comparison they are taken away.

## Main Definitions

* `Expr.strip`, `Body.strip`, `Stmt.strip`: a tree without the numbers of symbols

## Main Results

* `Expr.type?_strip`, `Expr.name?_strip` and others like them: what the checker asks of a tree
* `Expr.strip_false`, `stmtsStrip_false`: if the comparison is not rough, everything stays
-/

namespace ThreadRegions

section Heads

variable (rough : Bool)

/-- The parameter without its symbol. -/
def Param.strip (p : Param) : Param := { p with symbol := if rough then none else p.symbol }

/-- The lambda without the symbols of its parameters and without what it captures. -/
def LambdaHead.strip (h : LambdaHead) : LambdaHead :=
  { h with
    params := h.params.map (Param.strip rough)
    captures := if rough then [] else h.captures }

/-- The function without its symbol and those of its parameters. -/
def FunctionHead.strip (h : FunctionHead) : FunctionHead :=
  { h with
    params := h.params.map (Param.strip rough)
    symbol := if rough then none else h.symbol }

/-- The variable without its symbol. -/
def VariableHead.strip (h : VariableHead) : VariableHead :=
  { h with symbol := if rough then none else h.symbol }

end Heads

mutual

/-- The expression without the numbers of symbols. -/
@[simp] def Expr.strip (rough : Bool) : Expr → Expr
  | .literal n v => .literal n v
  | .var n name => .var n name
  | .binary n op a b => .binary n op (a.strip rough) (b.strip rough)
  | .unary n op e => .unary n op (e.strip rough)
  | .assign n name e => .assign n name (e.strip rough)
  | .indexAssign n a i v => .indexAssign n (a.strip rough) (i.strip rough) (v.strip rough)
  | .call n callee args => .call n (callee.strip rough) (exprsStrip rough args)
  | .array n elements => .array n (exprsStrip rough elements)
  | .access n a i => .access n (a.strip rough) (i.strip rough)
  | .range n a b => .range n (a.strip rough) (b.strip rough)
  | .increment n e => .increment n (e.strip rough)
  | .decrement n e => .decrement n (e.strip rough)
  | .member n e name => .member n (e.strip rough) name
  | .lambda n head body => .lambda n (head.strip rough) (body.strip rough)
  | .spawn n call mode => .spawn n (call.strip rough) mode
  | .sync n e isArray => .sync n (e.strip rough) isArray

/-- The expressions without the numbers of symbols. -/
@[simp] def exprsStrip (rough : Bool) : List Expr → List Expr
  | [] => []
  | e :: es => e.strip rough :: exprsStrip rough es

/-- The expression, if there is one, without the numbers of symbols. -/
@[simp] def exprStrip? (rough : Bool) : Option Expr → Option Expr
  | none => none
  | some e => some (e.strip rough)

/-- The body without the numbers of symbols. -/
@[simp] def Body.strip (rough : Bool) : Body → Body
  | .expr value => .expr (value.strip rough)
  | .block statements => .block (stmtsStrip rough statements)

/-- The statement without the numbers of symbols. -/
@[simp] def Stmt.strip (rough : Bool) : Stmt → Stmt
  | .expression span value => .expression span (value.strip rough)
  | .declare span head init => .declare span (head.strip rough) (exprStrip? rough init)
  | .function span head body => .function span (head.strip rough) (stmtsStrip rough body)
  | .ret span value => .ret span (exprStrip? rough value)
  | .block span modifier body => .block span modifier (stmtsStrip rough body)
  | .cond span condition yes no =>
    .cond span (condition.strip rough) (yes.strip rough) (stmtStrip? rough no)
  | .whileLoop span condition body shared =>
    .whileLoop span (condition.strip rough) (body.strip rough) shared
  | .forLoop span init condition step body shared =>
    .forLoop span (stmtStrip? rough init) (exprStrip? rough condition) (exprStrip? rough step)
      (body.strip rough) shared
  | .forEach span name symbol iterable body shared =>
    .forEach span name (if rough then none else symbol) (iterable.strip rough) (body.strip rough)
      shared
  | .leave span => .leave span
  | .next span => .next span
  | .importModule span module space statements =>
    .importModule span module space (stmtsStrip rough statements)

/-- The statement, if there is one, without the numbers of symbols. -/
@[simp] def stmtStrip? (rough : Bool) : Option Stmt → Option Stmt
  | none => none
  | some st => some (st.strip rough)

/-- The statements without the numbers of symbols. -/
@[simp] def stmtsStrip (rough : Bool) : List Stmt → List Stmt
  | [] => []
  | st :: sts => st.strip rough :: stmtsStrip rough sts

end

/-- Calls are checked for the number of their arguments. -/
@[simp] theorem length_exprsStrip (rough : Bool) (es : List Expr) :
    (exprsStrip rough es).length = es.length := by
  induction es with
  | nil => rfl
  | cons e es ih => rw [exprsStrip, List.length_cons, ih, List.length_cons]

/-! ### What the checker asks of a tree -/

namespace Expr

variable (rough : Bool) (e : Expr)

/-- The number of a symbol is never in a node. -/
@[simp] theorem node_strip : (e.strip rough).node = e.node := by
  cases e <;> simp [node]

/-- Places stay, so that errors stay where they are. -/
@[simp] theorem start_strip : (e.strip rough).start = e.start := by
  rw [start, span, node_strip, start, span]

/-- A type holds no numbers of symbols. -/
@[simp] theorem type?_strip : (e.strip rough).type? = e.type? := by
  rw [type?, node_strip, type?]

/-- Giving an expression its type changes its node, and taking the numbers away does not. -/
theorem strip_withType (t : Ty) : (e.withType t).strip rough = (e.strip rough).withType t := by
  rw [withType, withType, node_strip]
  cases e <;> simp [withNode, node]

@[simp] theorem name?_strip : (e.strip rough).name? = e.name? := by
  cases e <;> simp [name?]

@[simp] theorem isSpawn_strip : (e.strip rough).isSpawn = e.isSpawn := by
  cases e <;> simp [isSpawn]

@[simp] theorem isRange_strip : (e.strip rough).isRange = e.isRange := by
  cases e <;> simp [isRange]

@[simp] theorem isArrayLiteral_strip : (e.strip rough).isArrayLiteral = e.isArrayLiteral := by
  cases e <;> simp [isArrayLiteral]

/-- The name that a call is reported under. -/
@[simp] theorem calleeName_strip : (e.strip rough).calleeName = e.calleeName := by
  cases e <;> simp [calleeName]

/-- How a callee takes its parameters is read off its type. -/
@[simp] theorem calleeQualifiers_strip : (e.strip rough).calleeQualifiers = e.calleeQualifiers := by
  rw [calleeQualifiers, type?_strip, calleeQualifiers]

/-- A mutating method of a variable is known by two names. -/
@[simp] theorem mutation?_strip : (e.strip rough).mutation? = e.mutation? := by
  cases e with
  | member n object name => cases object <;> simp [mutation?]
  | _ => simp [mutation?]

/-- An array literal is given the declared element type where that says more. -/
theorem strip_refineArray (element : Ty) :
    (e.refineArray element).strip rough = (e.strip rough).refineArray element := by
  unfold refineArray
  rw [type?_strip, isArrayLiteral_strip]
  split
  · exact strip_withType rough e _
  · split
    · exact strip_withType rough e _
    · rfl
  · rfl

end Expr

/-- The modifier of a function is looked up by its name, and that of a lambda stands in its head. -/
theorem declaredModifier_strip (rough : Bool) (t : Table) (callee : Expr) :
    declaredModifier t (callee.strip rough) = declaredModifier t callee := by
  cases callee with
  | member n object name => simp [declaredModifier]
  | _ => rfl

/-- What a thread looks at is found by the names of the arguments, in the table and not in the tree.
-/
theorem sharedArgs_strip (rough : Bool) (t : Table) (quals : Option (List Qualifier)) (index : Nat)
    (known : List SymbolId) (args : List Expr) :
    sharedArgs t quals index known (exprsStrip rough args) =
      sharedArgs t quals index known args := by
  induction args generalizing index known with
  | nil => rfl
  | cons arg others ih =>
    rw [exprsStrip, sharedArgs, sharedArgs, sharedArg?, Expr.name?_strip, sharedArg?]
    split
    · exact ih _ _
    · exact ih _ _

theorem frozenBy_strip (rough : Bool) (s : Checker) (callee : Expr) (args : List Expr) :
    s.frozenBy (callee.strip rough) (exprsStrip rough args) = s.frozenBy callee args := by
  unfold Checker.frozenBy Checker.callsBuiltin
  rw [sharedArgs_strip, Expr.name?_strip, Expr.calleeQualifiers_strip]

/-- Starting a thread, the checker does not look at the numbers in the tree. -/
theorem recordSpawn_strip (rough : Bool) (handle : SymbolId) (init : Expr) (p : Position) :
    CheckM.recordSpawn handle (init.strip rough) p = CheckM.recordSpawn handle init p := by
  cases init with
  | spawn n call mode =>
    cases call with
    -- only a call leaves a record
    | call m callee args =>
      simp only [Expr.strip, CheckM.recordSpawn, frozenBy_strip]
    | _ => rfl
  | _ => rfl

/-! ### Leaving everything as it is -/

@[simp] theorem Param.strip_false (p : Param) : p.strip false = p := rfl

/-- Parameters hold their symbols themselves. -/
theorem map_strip_false (ps : List Param) : ps.map (Param.strip false) = ps := by
  have hid : Param.strip false = id := by
    funext p
    exact p.strip_false
  rw [hid, List.map_id]

@[simp] theorem LambdaHead.strip_false (h : LambdaHead) : h.strip false = h := by
  rw [strip, map_strip_false]
  rfl

@[simp] theorem FunctionHead.strip_false (h : FunctionHead) : h.strip false = h := by
  rw [strip, map_strip_false]
  rfl

@[simp] theorem VariableHead.strip_false (h : VariableHead) : h.strip false = h := rfl

mutual

/-- If the comparison is not rough, trees are compared as they are. -/
theorem Expr.strip_false (e : Expr) : e.strip false = e := by
  cases e with
  | literal | var => simp
  | binary _ _ a b | access _ a b | range _ a b => simp [a.strip_false, b.strip_false]
  | unary _ _ a | assign _ _ a | increment _ a | decrement _ a | member _ a _ | spawn _ a _
  | sync _ a _ => simp [a.strip_false]
  | indexAssign _ a i v => simp [a.strip_false, i.strip_false, v.strip_false]
  | call _ callee args => simp [callee.strip_false, exprsStrip_false args]
  | array _ elements => simp [exprsStrip_false elements]
  | lambda _ _ body => simp [body.strip_false]

theorem exprsStrip_false (es : List Expr) : exprsStrip false es = es := by
  cases es with
  | nil => rfl
  | cons e es => simp [e.strip_false, exprsStrip_false es]

theorem exprStrip?_false (e : Option Expr) : exprStrip? false e = e := by
  cases e with
  | none => rfl
  | some e => simp [e.strip_false]

theorem Body.strip_false (body : Body) : body.strip false = body := by
  cases body with
  | expr value => simp [value.strip_false]
  | block statements => simp [stmtsStrip_false statements]

theorem Stmt.strip_false (st : Stmt) : st.strip false = st := by
  cases st with
  | expression _ value => simp [value.strip_false]
  | declare _ _ init => simp [exprStrip?_false init]
  | function _ _ body | block _ _ body => simp [stmtsStrip_false body]
  | ret _ value => simp [exprStrip?_false value]
  | cond _ condition yes no =>
    simp [condition.strip_false, yes.strip_false, stmtStrip?_false no]
  | whileLoop _ condition body _ => simp [condition.strip_false, body.strip_false]
  | forLoop _ init condition step body _ =>
    simp [stmtStrip?_false init, exprStrip?_false condition, exprStrip?_false step,
      body.strip_false]
  | forEach _ _ _ iterable body _ => simp [iterable.strip_false, body.strip_false]
  | leave | next => rfl
  | importModule _ _ _ statements => simp [stmtsStrip_false statements]

theorem stmtStrip?_false (st : Option Stmt) : stmtStrip? false st = st := by
  cases st with
  | none => rfl
  | some st => simp [st.strip_false]

/-- A whole program stays as it is. -/
theorem stmtsStrip_false (sts : List Stmt) : stmtsStrip false sts = sts := by
  cases sts with
  | nil => rfl
  | cons st sts => simp [st.strip_false, stmtsStrip_false sts]

end

end ThreadRegions
