import ThreadRegions.Check.Thread
import ThreadRegions.Grammar.Cursor

/-!
# Things at other places

Tokens, trees and errors say where they stand in the source.  Here all these places are moved by a
function on positions, and nothing else is changed.  If the function takes every position to the
same one, what is left is the thing without its places.

## Main Definitions

* `Token.relocate`, `Cursor.relocate`: tokens at other places
* `Expr.relocate`, `Body.relocate`, `Stmt.relocate`: trees at other places
* `Diagnostic.relocate`: an error at another place

## Main Results

* `Expr.type?_relocate`, `Expr.name?_relocate` and others like them: what the checker asks of a tree
  besides its places
* `Expr.relocate_id`, `stmtsRelocate_id`: leaving all places as they are
-/

namespace ThreadRegions

/-! ### Tokens and errors -/

section Tokens

variable (g : Position → Position)

/-- The span with its ends moved. -/
def Span.relocate (s : Span) : Span := ⟨g s.start, g s.stop⟩

/-- The token at another place. -/
def Token.relocate (t : Token) : Token := { t with span := t.span.relocate g }

/-- The end mark at another place. -/
def EndMark.relocate (e : EndMark) : EndMark := { e with span := e.span.relocate g }

/-- The cursor in the same tokens at other places. -/
def Cursor.relocate (c : Cursor) : Cursor := ⟨c.ahead.map (Token.relocate g), c.closing.relocate g⟩

/-- The error at another place. -/
def Diagnostic.relocate (d : Diagnostic) : Diagnostic := { d with position := g d.position }

end Tokens

namespace Cursor

variable (g : Position → Position) (c : Cursor)

/-- The token under the cursor is moved with the others, also where it is the end mark. -/
@[simp] theorem current_relocate : (c.relocate g).current = c.current.relocate g := by
  obtain ⟨ahead, closing⟩ := c
  cases ahead <;> rfl

/-- Readers choose by the kind of the token that comes next, and so choose alike. -/
@[simp] theorem kind_relocate : (c.relocate g).kind = c.kind := by
  rw [kind, current_relocate]
  rfl

/-- Looking further ahead finds the same kinds too. -/
@[simp] theorem kindAhead_relocate (n : Nat) : (c.relocate g).kindAhead n = c.kindAhead n := by
  have hahead : (c.relocate g).ahead = c.ahead.map (Token.relocate g) := rfl
  unfold kindAhead
  rw [hahead, List.getElem?_map]
  cases c.ahead[n]? <;> rfl

@[simp] theorem position_relocate : (c.relocate g).position = g c.position := by
  rw [position, current_relocate]
  rfl

/-- A span that is closed at the cursor is moved as a whole, if its beginning has been moved. -/
@[simp] theorem spanFrom_relocate (start : Position) :
    (c.relocate g).spanFrom (g start) = (c.spanFrom start).relocate g := by
  rw [spanFrom, position_relocate]
  rfl

/-- As above, for a beginning that is that of a token. -/
theorem spanFrom_token_relocate (t : Token) :
    (c.relocate g).spanFrom (t.relocate g).span.start = (c.spanFrom t.span.start).relocate g :=
  spanFrom_relocate g c t.span.start

/-- The error about a token names it by its value, so only the place of the error is moved. -/
@[simp] theorem unexpected_relocate : (c.relocate g).unexpected = c.unexpected.relocate g := by
  rw [unexpected, current_relocate, position_relocate]
  rfl

@[simp] theorem unexpectedBut_relocate (message : String) :
    (c.relocate g).unexpectedBut message = (c.unexpectedBut message).relocate g := by
  rw [unexpectedBut, current_relocate, position_relocate]
  rfl

end Cursor

/-! ### Trees -/

section Heads

variable (g : Position → Position)

/-- The same is known, at another place. -/
def Node.relocate (n : Node) : Node := { n with span := n.span.relocate g }

/-- The parameter at another place. -/
def Param.relocate (p : Param) : Param := { p with span := p.span.relocate g }

/-- The lambda with its parameters at other places. -/
def LambdaHead.relocate (h : LambdaHead) : LambdaHead :=
  { h with params := h.params.map (Param.relocate g) }

/-- The function with its parameters at other places. -/
def FunctionHead.relocate (h : FunctionHead) : FunctionHead :=
  { h with params := h.params.map (Param.relocate g) }

end Heads

mutual

/-- The expression with all places in it moved. -/
@[simp] def Expr.relocate (g : Position → Position) : Expr → Expr
  | .literal n v => .literal (n.relocate g) v
  | .var n name => .var (n.relocate g) name
  | .binary n op a b => .binary (n.relocate g) op (a.relocate g) (b.relocate g)
  | .unary n op e => .unary (n.relocate g) op (e.relocate g)
  | .assign n name e => .assign (n.relocate g) name (e.relocate g)
  | .indexAssign n a i v =>
    .indexAssign (n.relocate g) (a.relocate g) (i.relocate g) (v.relocate g)
  | .call n callee args => .call (n.relocate g) (callee.relocate g) (exprsRelocate g args)
  | .array n elements => .array (n.relocate g) (exprsRelocate g elements)
  | .access n a i => .access (n.relocate g) (a.relocate g) (i.relocate g)
  | .range n a b => .range (n.relocate g) (a.relocate g) (b.relocate g)
  | .increment n e => .increment (n.relocate g) (e.relocate g)
  | .decrement n e => .decrement (n.relocate g) (e.relocate g)
  | .member n e name => .member (n.relocate g) (e.relocate g) name
  | .lambda n head body => .lambda (n.relocate g) (head.relocate g) (body.relocate g)
  | .spawn n call mode => .spawn (n.relocate g) (call.relocate g) mode
  | .sync n e isArray => .sync (n.relocate g) (e.relocate g) isArray

/-- The expressions with all places in them moved. -/
@[simp] def exprsRelocate (g : Position → Position) : List Expr → List Expr
  | [] => []
  | e :: es => e.relocate g :: exprsRelocate g es

/-- The expression, if there is one, with all places in it moved. -/
@[simp] def exprRelocate? (g : Position → Position) : Option Expr → Option Expr
  | none => none
  | some e => some (e.relocate g)

/-- The body with all places in it moved. -/
@[simp] def Body.relocate (g : Position → Position) : Body → Body
  | .expr value => .expr (value.relocate g)
  | .block statements => .block (stmtsRelocate g statements)

/-- The statement with all places in it moved. -/
@[simp] def Stmt.relocate (g : Position → Position) : Stmt → Stmt
  | .expression span value => .expression (span.relocate g) (value.relocate g)
  | .declare span head init => .declare (span.relocate g) head (exprRelocate? g init)
  | .function span head body =>
    .function (span.relocate g) (head.relocate g) (stmtsRelocate g body)
  | .ret span value => .ret (span.relocate g) (exprRelocate? g value)
  | .block span modifier body => .block (span.relocate g) modifier (stmtsRelocate g body)
  | .cond span condition yes no =>
    .cond (span.relocate g) (condition.relocate g) (yes.relocate g) (stmtRelocate? g no)
  | .whileLoop span condition body shared =>
    .whileLoop (span.relocate g) (condition.relocate g) (body.relocate g) shared
  | .forLoop span init condition step body shared =>
    .forLoop (span.relocate g) (stmtRelocate? g init) (exprRelocate? g condition)
      (exprRelocate? g step) (body.relocate g) shared
  | .forEach span name symbol iterable body shared =>
    .forEach (span.relocate g) name symbol (iterable.relocate g) (body.relocate g) shared
  | .leave span => .leave (span.relocate g)
  | .next span => .next (span.relocate g)
  | .importModule span module space statements =>
    .importModule (span.relocate g) module space (stmtsRelocate g statements)

/-- The statement, if there is one, with all places in it moved. -/
@[simp] def stmtRelocate? (g : Position → Position) : Option Stmt → Option Stmt
  | none => none
  | some st => some (st.relocate g)

/-- The statements with all places in them moved. -/
@[simp] def stmtsRelocate (g : Position → Position) : List Stmt → List Stmt
  | [] => []
  | st :: sts => st.relocate g :: stmtsRelocate g sts

end

/-- Calls are checked for the number of their arguments. -/
@[simp] theorem length_exprsRelocate (g : Position → Position) (es : List Expr) :
    (exprsRelocate g es).length = es.length := by
  induction es with
  | nil => rfl
  | cons e es ih => rw [exprsRelocate, List.length_cons, ih, List.length_cons]

@[simp] theorem length_stmtsRelocate (g : Position → Position) (sts : List Stmt) :
    (stmtsRelocate g sts).length = sts.length := by
  induction sts with
  | nil => rfl
  | cons st sts ih => rw [stmtsRelocate, List.length_cons, ih, List.length_cons]

/-- The function on options is there for the recursion only. -/
theorem exprRelocate?_eq_map (g : Position → Position) (e : Option Expr) :
    exprRelocate? g e = e.map (Expr.relocate g) := by
  cases e <;> rfl

theorem stmtRelocate?_eq_map (g : Position → Position) (st : Option Stmt) :
    stmtRelocate? g st = st.map (Stmt.relocate g) := by
  cases st <;> rfl

/-! ### What does not depend on places -/

namespace Expr

variable (g : Position → Position) (e : Expr)

/-- What is known about an expression is moved in its node. -/
@[simp] theorem node_relocate : (e.relocate g).node = e.node.relocate g := by
  cases e <;> simp [node]

@[simp] theorem span_relocate : (e.relocate g).span = e.span.relocate g := by
  rw [span, node_relocate]
  rfl

@[simp] theorem start_relocate : (e.relocate g).start = g e.start := by
  rw [start, span_relocate]
  rfl

/-- A type has no place. -/
@[simp] theorem type?_relocate : (e.relocate g).type? = e.type? := by
  rw [type?, node_relocate]
  rfl

/-- Giving an expression its type changes its node only, and there not the place. -/
theorem relocate_withType (t : Ty) :
    (e.withType t).relocate g = (e.relocate g).withType t := by
  rw [withType, withType, node_relocate]
  cases e <;> simp [withNode, node, Node.relocate]

/-- The name of a variable has no place. -/
@[simp] theorem name?_relocate : (e.relocate g).name? = e.name? := by
  cases e <;> simp [name?]

@[simp] theorem isSpawn_relocate : (e.relocate g).isSpawn = e.isSpawn := by
  cases e <;> simp [isSpawn]

@[simp] theorem isRange_relocate : (e.relocate g).isRange = e.isRange := by
  cases e <;> simp [isRange]

@[simp] theorem isArrayLiteral_relocate : (e.relocate g).isArrayLiteral = e.isArrayLiteral := by
  cases e <;> simp [isArrayLiteral]

/-- The name that a call is reported under. -/
@[simp] theorem calleeName_relocate : (e.relocate g).calleeName = e.calleeName := by
  cases e <;> simp [calleeName]

/-- How a callee takes its parameters is read off its type. -/
@[simp] theorem calleeQualifiers_relocate :
    (e.relocate g).calleeQualifiers = e.calleeQualifiers := by
  rw [calleeQualifiers, type?_relocate, calleeQualifiers]

/-- A call of a method that changes an array is known by two names: that of the array and that of
the method. -/
@[simp] theorem mutation?_relocate : (e.relocate g).mutation? = e.mutation? := by
  cases e with
  -- only a member of a variable is looked at twice
  | member n object name => cases object <;> simp [mutation?]
  | _ => simp [mutation?]

/-- The variable that an element is reached from.  The way to it is as long as the indices are many.
-/
@[simp] theorem root?_relocate (g : Position → Position) (e : Expr) :
    (e.relocate g).root? = e.root? := by
  match e with
  | access n a i => simpa [root?] using root?_relocate g a
  | var n name => simp [root?]
  | literal .. | binary .. | unary .. | assign .. | indexAssign .. | call .. | array .. | range ..
  | increment .. | decrement .. | member .. | lambda .. | spawn .. | sync .. => simp [root?]

/-- An array literal is given the declared element type where that says more. -/
theorem relocate_refineArray (element : Ty) :
    (e.refineArray element).relocate g = (e.relocate g).refineArray element := by
  unfold refineArray
  rw [type?_relocate, isArrayLiteral_relocate]
  split
  · exact relocate_withType g e _
  · split
    · exact relocate_withType g e _
    · rfl
  · rfl

end Expr

/-! ### Leaving all places as they are -/

@[simp] theorem Node.relocate_id (n : Node) : n.relocate id = n := rfl

@[simp] theorem Param.relocate_id (p : Param) : p.relocate id = p := rfl

/-- Parameters hold their places themselves. -/
theorem map_relocate_id (ps : List Param) : ps.map (Param.relocate id) = ps := by
  have hid : Param.relocate id = id := by
    funext p
    exact p.relocate_id
  rw [hid, List.map_id]

@[simp] theorem LambdaHead.relocate_id (h : LambdaHead) : h.relocate id = h := by
  rw [relocate, map_relocate_id]

@[simp] theorem FunctionHead.relocate_id (h : FunctionHead) : h.relocate id = h := by
  rw [relocate, map_relocate_id]

mutual

/-- Every place in a tree is moved by the function, and by nothing else. -/
theorem Expr.relocate_id (e : Expr) : e.relocate id = e := by
  match e with
  | .literal .. | .var .. => simp
  | .binary _ _ a b | .access _ a b | .range _ a b => simp [a.relocate_id, b.relocate_id]
  | .unary _ _ a | .assign _ _ a | .increment _ a | .decrement _ a | .member _ a _ | .spawn _ a _
  | .sync _ a _ => simp [a.relocate_id]
  | .indexAssign _ a i v => simp [a.relocate_id, i.relocate_id, v.relocate_id]
  | .call _ callee args => simp [callee.relocate_id, exprsRelocate_id args]
  | .array _ elements => simp [exprsRelocate_id elements]
  | .lambda _ _ body => simp [body.relocate_id]

theorem exprsRelocate_id (es : List Expr) : exprsRelocate id es = es := by
  match es with
  | [] => rfl
  | e :: es => simp [e.relocate_id, exprsRelocate_id es]

theorem exprRelocate?_id (e : Option Expr) : exprRelocate? id e = e := by
  match e with
  | none => rfl
  | some e => simp [e.relocate_id]

theorem Body.relocate_id (body : Body) : body.relocate id = body := by
  match body with
  | .expr value => simp [value.relocate_id]
  | .block statements => simp [stmtsRelocate_id statements]

theorem Stmt.relocate_id (st : Stmt) : st.relocate id = st := by
  match st with
  | .expression _ value => simp [value.relocate_id, Span.relocate]
  | .declare _ _ init => simp [exprRelocate?_id init, Span.relocate]
  | .function _ _ body | .block _ _ body => simp [stmtsRelocate_id body, Span.relocate]
  | .ret _ value => simp [exprRelocate?_id value, Span.relocate]
  | .cond _ condition yes no =>
    simp [condition.relocate_id, yes.relocate_id, stmtRelocate?_id no, Span.relocate]
  | .whileLoop _ condition body _ => simp [condition.relocate_id, body.relocate_id, Span.relocate]
  | .forLoop _ init condition step body _ =>
    simp [stmtRelocate?_id init, exprRelocate?_id condition, exprRelocate?_id step,
      body.relocate_id, Span.relocate]
  | .forEach _ _ _ iterable body _ => simp [iterable.relocate_id, body.relocate_id, Span.relocate]
  | .leave _ | .next _ => rfl
  | .importModule _ _ _ statements => simp [stmtsRelocate_id statements, Span.relocate]

theorem stmtRelocate?_id (st : Option Stmt) : stmtRelocate? id st = st := by
  match st with
  | none => rfl
  | some st => simp [st.relocate_id]

theorem stmtsRelocate_id (sts : List Stmt) : stmtsRelocate id sts = sts := by
  match sts with
  | [] => rfl
  | st :: sts => simp [st.relocate_id, stmtsRelocate_id sts]

end

end ThreadRegions
