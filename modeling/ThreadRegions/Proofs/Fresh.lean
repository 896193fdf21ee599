import ThreadRegions.Import

/-!
# Trees as the grammar gives them

The grammar builds trees without annotations: no expression has a type yet, and an import without a
namespace holds no statements.  The body of a loop is a block, which is what the regions of loops
rely on.  Resolving imports puts such trees together and adds nothing of its own.

## Main Definitions

* `Expr.Fresh`, `Body.Fresh`, `Stmt.Fresh`: trees without annotations
* `Step.Ends`, `Step.Yields`: a reader answers only with values, and leaves only cursors, that have
  a property
* `Module.IsProgram`: what is read from tokens, with all imports resolved
* `Module.ofSource?`: the program that is read from a text

## Main Results

* `Grammar.fresh_parse`: the grammar gives fresh trees
* `fresh_resolveImports`: resolving imports keeps trees fresh
* `Module.IsProgram.fresh`: a program is made of fresh trees

## Design Notes

The lemmas on the grammar are mutually recursive in the same way as its readers, with the same
measure, one for each reader.
-/

namespace ThreadRegions

/-! ### Fresh trees -/

/-- Whether the statement is a block. -/
def Stmt.isBlock : Stmt → Bool
  | .block .. => true
  | _ => false

mutual

/-- No expression inside has a type, and all statements inside are fresh. -/
def Expr.Fresh : Expr → Prop
  | .literal n _ | .var n _ => n.type = none
  | .unary n _ e | .assign n _ e | .increment n e | .decrement n e | .member n e _ | .spawn n e _
  | .sync n e _ => n.type = none ∧ e.Fresh
  | .binary n _ a b | .access n a b | .range n a b => n.type = none ∧ a.Fresh ∧ b.Fresh
  | .indexAssign n a i v => n.type = none ∧ a.Fresh ∧ i.Fresh ∧ v.Fresh
  | .call n callee args => n.type = none ∧ callee.Fresh ∧ exprsFresh args
  | .array n elements => n.type = none ∧ exprsFresh elements
  | .lambda n _ body => n.type = none ∧ body.Fresh

/-- All expressions of a list are fresh. -/
def exprsFresh : List Expr → Prop
  | [] => True
  | e :: es => e.Fresh ∧ exprsFresh es

/-- The expression is fresh, if there is one. -/
def exprFresh? : Option Expr → Prop
  | none => True
  | some e => e.Fresh

/-- The body of a lambda is fresh. -/
def Body.Fresh : Body → Prop
  | .expr value => value.Fresh
  | .block statements => stmtsFresh statements

/-- All expressions inside are fresh, the bodies of loops are blocks, and an import without a
namespace holds no statements. -/
def Stmt.Fresh : Stmt → Prop
  | .expression _ value => value.Fresh
  | .declare _ _ init => exprFresh? init
  | .function _ _ body | .block _ _ body => stmtsFresh body
  | .ret _ value => exprFresh? value
  | .cond _ condition yes no => condition.Fresh ∧ yes.Fresh ∧ stmtFresh? no
  | .whileLoop _ condition body _ => condition.Fresh ∧ body.Fresh ∧ body.isBlock
  | .forLoop _ init condition step body _ =>
    stmtFresh? init ∧ exprFresh? condition ∧ exprFresh? step ∧ body.Fresh ∧ body.isBlock
  | .forEach _ _ _ iterable body _ => iterable.Fresh ∧ body.Fresh ∧ body.isBlock
  | .leave _ | .next _ => True
  | .importModule _ _ none statements => statements = []
  | .importModule _ _ (some _) statements => stmtsFresh statements

/-- The statement is fresh, if there is one. -/
def stmtFresh? : Option Stmt → Prop
  | none => True
  | some st => st.Fresh

/-- All statements of a list are fresh. -/
def stmtsFresh : List Stmt → Prop
  | [] => True
  | st :: sts => st.Fresh ∧ stmtsFresh sts

end

/-- The type of a fresh expression is not known, so that the checker does look at it. -/
theorem Expr.Fresh.type?_eq_none {e : Expr} (h : e.Fresh) : e.type? = none := by
  cases e <;> simp_all [Expr.Fresh, Expr.type?, Expr.node]

theorem stmtsFresh_append {front others : List Stmt} (hf : stmtsFresh front)
    (ho : stmtsFresh others) : stmtsFresh (front ++ others) := by
  induction front with
  | nil => exact ho
  | cons st front ih => exact ⟨hf.1, ih hf.2⟩

/-! ### Readers and what they answer -/

namespace Step

variable {α β : Type} {start : Cursor} {least more : Nat}

section

variable {Q Q' : α → Cursor → Prop} {R : β → Cursor → Prop}

/-- If the reader succeeds, its value and the cursor that it leaves have the property `Q`. -/
def Ends (Q : α → Cursor → Prop) : Step α start least → Prop
  | done value rest _ => Q value rest
  | stop .. => True

/-- A reader that has succeeded has left some cursor. -/
theorem Ends.of_result {s : Step α start least} {value : α} (h : s.Ends Q)
    (hs : s.result = .ok value) : ∃ rest, Q value rest := by
  cases s with
  | done found rest left => cases hs; exact ⟨rest, h⟩
  | stop error rest left => cases hs

theorem ends_pure {value : α} (h : Q value start) : (pure value : Step α start 0).Ends Q := h

theorem ends_fail (error : Diagnostic) : (fail error : Step α start least).Ends Q := trivial

theorem Ends.any {s : Step α start least} (h : s.Ends Q) : s.any.Ends Q := by
  cases s with
  | done value rest left => exact h
  | stop error rest left => trivial

theorem Ends.mono {s : Step α start least} (h : s.Ends Q)
    (hq : ∀ value rest, Q value rest → Q' value rest) : s.Ends Q' := by
  cases s with
  | done value rest left => exact hq value rest h
  | stop error rest left => trivial

/-- The cursor stays the same when the value is made into another one. -/
theorem Ends.map {s : Step α start least} {f : α → β} (h : s.Ends Q)
    (hf : ∀ value rest, Q value rest → R (f value) rest) : (s.map f).Ends R := by
  cases s with
  | done value rest left => exact hf value rest h
  | stop error rest left => trivial

/-- Two readers in a row.  The second one may use what is known of the first. -/
theorem Ends.andThen {s : Step α start least}
    {next : (value : α) → (rest : Cursor) → rest.remaining + least ≤ start.remaining →
      Step β rest more} (h : s.Ends Q)
    (hn : ∀ value rest left, Q value rest → (next value rest left).Ends R) :
    (s.andThen next).Ends R := by
  cases s with
  | stop error rest left => trivial
  | done value rest left =>
    have hv := hn value rest left.remaining_le h
    unfold Step.andThen
    dsimp only
    split
    · next hs => rw [hs] at hv; exact hv
    · trivial

theorem Ends.andThenRead {kind : TokenKind} {s : Step α start kind.width}
    {next : (value : α) → (rest : Cursor) → rest.remaining + kind.width ≤ start.remaining →
      Step β rest more} (h : s.Ends Q) (hk : kind.width = 1)
    (hn : ∀ value rest left, rest.remaining < start.remaining → Q value rest →
      (next value rest left).Ends R) : (s.andThen next).Ends R :=
  h.andThen fun value rest left hv => hn value rest left (by omega) hv

end

section

variable {Q : α → Prop} {Q' : β → Prop}

/-- If the reader succeeds, its value has the property. -/
def Yields (Q : α → Prop) : Step α start least → Prop
  | done value _ _ => Q value
  | stop .. => True

/-- What is said of the value alone is said of the value and any cursor. -/
theorem yields_iff_ends {s : Step α start least} : s.Yields Q ↔ s.Ends fun value _ => Q value := by
  cases s <;> rfl

theorem Yields.of_result {s : Step α start least} {value : α} (h : s.Yields Q)
    (hs : s.result = .ok value) : Q value := by
  obtain ⟨-, hq⟩ := (yields_iff_ends.1 h).of_result hs
  exact hq

theorem yields_pure {value : α} (h : Q value) : (pure value : Step α start 0).Yields Q := h

theorem yields_fail (error : Diagnostic) : (fail error : Step α start least).Yields Q := trivial

theorem Yields.any {s : Step α start least} (h : s.Yields Q) : s.any.Yields Q :=
  yields_iff_ends.2 (yields_iff_ends.1 h).any

theorem Yields.map {s : Step α start least} {f : α → β} (h : s.Yields Q)
    (hf : ∀ value, Q value → Q' (f value)) : (s.map f).Yields Q' :=
  yields_iff_ends.2 ((yields_iff_ends.1 h).map fun value _ => hf value)

theorem Yields.mono {P : α → Prop} {s : Step α start least} (h : s.Yields Q)
    (hp : ∀ value, Q value → P value) : s.Yields P :=
  yields_iff_ends.2 ((yields_iff_ends.1 h).mono fun value _ => hp value)

theorem Yields.andThen {s : Step α start least}
    {next : (value : α) → (rest : Cursor) → rest.remaining + least ≤ start.remaining →
      Step β rest more} (h : s.Yields Q)
    (hn : ∀ value rest left, Q value → (next value rest left).Yields Q') :
    (s.andThen next).Yields Q' :=
  yields_iff_ends.2 ((yields_iff_ends.1 h).andThen fun value rest left hq =>
    yields_iff_ends.1 (hn value rest left hq))

theorem yields_true (s : Step α start least) : s.Yields fun _ => True := by
  cases s <;> trivial

/-- What is made of the value of a reader has the property, whatever the value is. -/
theorem yields_map {s : Step α start least} {f : α → β} (hf : ∀ value, Q' (f value)) :
    (s.map f).Yields Q' :=
  s.yields_true.map fun value _ => hf value

/-- Going on after a reader whose value does not matter. -/
theorem yields_andThen {s : Step α start least}
    {next : (value : α) → (rest : Cursor) → rest.remaining + least ≤ start.remaining →
      Step β rest more} (hn : ∀ value rest left, (next value rest left).Yields Q') :
    (s.andThen next).Yields Q' :=
  s.yields_true.andThen fun value rest left _ => hn value rest left

theorem yields_read {kind : TokenKind} {s : Step α start kind.width}
    {next : (value : α) → (rest : Cursor) → rest.remaining + kind.width ≤ start.remaining →
      Step β rest more} (hk : kind.width = 1)
    (hn : ∀ value rest left, rest.remaining < start.remaining → (next value rest left).Yields Q') :
    (s.andThen next).Yields Q' :=
  yields_andThen fun value rest left => hn value rest left (by omega)

end

end Step

/-! ### The grammar -/

namespace Grammar

open Step

/-- A literal or a name is made without a type. -/
theorem fresh_primary (c : Cursor) : (primary c).Yields Expr.Fresh := by
  unfold primary
  split
  · exact yields_fail _
  · next t ts closing =>
    split
    · next e he =>
      -- a name, or a literal that can be read
      unfold primaryOf at he
      split at he
      · cases he; exact rfl
      · cases hl : literal? t with
        | error cause => rw [hl] at he; cases he
        | ok value => rw [hl] at he; cases he; exact rfl
    · exact yields_fail _

theorem fresh_counted {left : Expr} (h : left.Fresh) (operator : Token) :
    (counted left operator).Fresh := by
  unfold counted
  split
  · exact ⟨rfl, h⟩
  · exact ⟨rfl, h⟩

theorem fresh_sync {left : Expr} (h : left.Fresh) (c : Cursor) :
    (sync left c).Yields Expr.Fresh :=
  yields_map fun _ => ⟨rfl, h⟩

theorem fresh_member {left : Expr} (h : left.Fresh) (c : Cursor) :
    (member left c).Yields Expr.Fresh :=
  yields_andThen fun _ _ _ => yields_map fun _ => ⟨rfl, h⟩

/-- The statements of a module are not there before imports are resolved. -/
theorem fresh_importStmt (c : Cursor) : (importStmt c).Yields Stmt.Fresh := by
  refine yields_andThen fun first rest _ => yields_andThen fun module rest _ => ?_
  refine yields_andThen fun space rest _ => yields_andThen fun _ rest _ => ?_
  cases space with
  | none => exact rfl
  | some space => exact trivial

/-- A word and a semicolon, with nothing inside. -/
theorem fresh_wordStmt (word : Keyword) (make : Span → Stmt) (hmake : ∀ span, (make span).Fresh)
    (c : Cursor) : (wordStmt word make c).Yields Stmt.Fresh :=
  yields_andThen fun _ _ _ => yields_andThen fun _ _ _ => yields_pure (hmake _)

/-- The array and the index of an assignment come from an element that was fresh. -/
theorem fresh_assignTo? {target value e : Expr} {span : Span} (ht : target.Fresh)
    (hv : value.Fresh) (h : target.assignTo? (.at span) value = some e) : e.Fresh := by
  cases target with
  | var n name => cases h; exact ⟨rfl, hv⟩
  | access n a i => cases h; exact ⟨rfl, ht.2.1, ht.2.2, hv⟩
  | _ => cases h

/-- A loop stays fresh when it is marked as shared. -/
theorem fresh_asShared {st : Stmt} (h : st.Fresh) (span : Span) : (asShared span st).Fresh := by
  cases st <;> exact h

/-- A fresh block. -/
def FreshBlock (st : Stmt) : Prop := st.Fresh ∧ st.isBlock

mutual

/-- Whatever stands at the beginning of an expression is fresh, and operators keep it so. -/
theorem fresh_expr (t : Tables) (bp : BindingPower) (c : Cursor) :
    (expr t bp c).Yields Expr.Fresh := by
  rw [expr]
  exact (fresh_startExpr t c).andThen fun left rest _ hl => fresh_operators t bp hl rest
termination_by 8 * c.remaining + 2
decreasing_by all_goals omega

/-- The loop over the operators, with the left operand as the invariant. -/
theorem fresh_operators (t : Tables) (bp : BindingPower) {left : Expr} (hl : left.Fresh)
    (c : Cursor) : (operators t bp left c).Yields Expr.Fresh := by
  rw [operators]
  split
  · exact hl
  · next power form _ =>
    split
    · exact hl
    · refine ((fresh_infixExpr t form power hl c).andThen fun left rest _ hl => ?_).any
      exact fresh_operators t bp hl rest
termination_by 8 * c.remaining + 2
decreasing_by all_goals omega

theorem fresh_startExpr (t : Tables) (c : Cursor) : (startExpr t c).Yields Expr.Fresh := by
  rw [startExpr]
  split
  · exact yields_fail _
  · exact fresh_primary c
  · exact fresh_unary t c
  · exact fresh_group t c
  · exact fresh_arrayLiteral t c
  · exact fresh_arraySync t c
  · exact fresh_spawn t c
  · exact fresh_lambda t c
termination_by 8 * c.remaining + 1
decreasing_by all_goals omega

theorem fresh_infixExpr (t : Tables) (form : InfixForm) (power : BindingPower) {left : Expr}
    (hl : left.Fresh) (c : Cursor) : (infixExpr t form power left c).Yields Expr.Fresh := by
  rw [infixExpr.eq_def]
  split
  · exact fresh_binary t power hl c
  · exact fresh_range t power hl c
  · exact fresh_assignment t hl c
  · exact fresh_call t hl c
  · exact fresh_index t hl c
  · exact yields_map fun operator => fresh_counted hl operator
  · exact fresh_sync hl c
  · exact fresh_member hl c
termination_by 8 * c.remaining + 1
decreasing_by all_goals omega

theorem fresh_unary (t : Tables) (c : Cursor) : (unary t c).Yields Expr.Fresh := by
  rw [unary]
  refine yields_andThen fun operator rest _ => ?_
  exact (fresh_expr t .unary rest).map fun operand ho => ⟨rfl, ho⟩
termination_by 8 * c.remaining
decreasing_by all_goals omega

/-- Parentheses leave no trace. -/
theorem fresh_group (t : Tables) (c : Cursor) : (group t c).Yields Expr.Fresh := by
  rw [group]
  refine yields_read rfl fun _ rest _ _ => ?_
  exact (fresh_expr t .default rest).andThen fun inner rest _ hi => yields_map fun _ => hi
termination_by 8 * c.remaining
decreasing_by all_goals omega

theorem fresh_exprList (t : Tables) (close : TokenKind) (c : Cursor) :
    (exprList t close c).Yields exprsFresh := by
  rw [exprList]
  split
  · exact (yields_map fun _ => trivial).any
  · refine ((fresh_expr t .comma c).andThen fun item rest _ hi => ?_).any
    refine yields_andThen fun more rest _ => ?_
    split
    · exact (fresh_exprList t close rest).map fun others ho => ⟨hi, ho⟩
    · exact (yields_map fun _ => ⟨hi, trivial⟩).any
termination_by 8 * c.remaining + 3
decreasing_by all_goals omega

theorem fresh_arrayLiteral (t : Tables) (c : Cursor) : (arrayLiteral t c).Yields Expr.Fresh := by
  rw [arrayLiteral]
  refine yields_read rfl fun first rest _ _ => ?_
  exact (fresh_exprList t _ rest).andThen fun elements rest _ he => ⟨rfl, he⟩
termination_by 8 * c.remaining
decreasing_by all_goals omega

/-- The array of handles has no type either. -/
theorem fresh_arraySync (t : Tables) (c : Cursor) : (arraySync t c).Yields Expr.Fresh := by
  rw [arraySync]
  refine yields_read rfl fun first rest _ _ => ?_
  exact (fresh_exprList t _ rest).andThen fun handles rest _ hh =>
    yields_map fun _ => ⟨rfl, rfl, hh⟩
termination_by 8 * c.remaining
decreasing_by all_goals omega

theorem fresh_spawn (t : Tables) (c : Cursor) : (spawn t c).Yields Expr.Fresh := by
  rw [spawn]
  refine yields_read rfl fun first rest _ _ => ?_
  exact (fresh_expr t .unary rest).map fun call hc => ⟨rfl, hc⟩
termination_by 8 * c.remaining
decreasing_by all_goals omega

/-- The head of a lambda holds no expressions. -/
theorem fresh_lambda (t : Tables) (c : Cursor) : (lambda t c).Yields Expr.Fresh := by
  rw [lambda]
  refine yields_read rfl fun first rest _ _ => yields_andThen fun params rest _ => ?_
  refine yields_andThen fun modifier rest _ => yields_andThen fun ret rest _ => ?_
  exact (fresh_lambdaBody t rest).andThen fun body rest _ hb => ⟨rfl, hb⟩
termination_by 8 * c.remaining
decreasing_by all_goals omega

theorem fresh_lambdaBody (t : Tables) (c : Cursor) : (lambdaBody t c).Yields Body.Fresh := by
  rw [lambdaBody]
  split
  · refine yields_andThen fun _ rest _ => ?_
    exact (fresh_expr t .comma rest).map fun value hv => hv
  · exact (fresh_block t c).map fun body hb => hb
  · exact yields_fail _
termination_by 8 * c.remaining + 1
decreasing_by all_goals omega

theorem fresh_binary (t : Tables) (power : BindingPower) {left : Expr} (hl : left.Fresh)
    (c : Cursor) : (binary t power left c).Yields Expr.Fresh := by
  rw [binary]
  refine yields_andThen fun operator rest _ => ?_
  split
  · exact yields_fail _
  · exact (fresh_expr t power rest).map fun right hr => ⟨rfl, hl, hr⟩
termination_by 8 * c.remaining
decreasing_by all_goals omega

theorem fresh_range (t : Tables) (power : BindingPower) {left : Expr} (hl : left.Fresh)
    (c : Cursor) : (range t power left c).Yields Expr.Fresh := by
  rw [range]
  refine yields_read rfl fun _ rest _ _ => ?_
  exact (fresh_expr t power rest).map fun right hr => ⟨rfl, hl, hr⟩
termination_by 8 * c.remaining
decreasing_by all_goals omega

/-- The target has been read as an expression. -/
theorem fresh_assignment (t : Tables) {left : Expr} (hl : left.Fresh) (c : Cursor) :
    (assignment t left c).Yields Expr.Fresh := by
  rw [assignment]
  refine yields_andThen fun operator rest _ => ?_
  refine (fresh_expr t .comma rest).andThen fun value rest _ hv => ?_
  split
  · next e he => exact fresh_assignTo? hl hv he
  · exact yields_fail _
termination_by 8 * c.remaining
decreasing_by all_goals omega

theorem fresh_call (t : Tables) {left : Expr} (hl : left.Fresh) (c : Cursor) :
    (call t left c).Yields Expr.Fresh := by
  rw [call]
  refine yields_read rfl fun _ rest _ _ => ?_
  exact (fresh_exprList t _ rest).andThen fun args rest _ ha => ⟨rfl, hl, ha⟩
termination_by 8 * c.remaining
decreasing_by all_goals omega

theorem fresh_index (t : Tables) {left : Expr} (hl : left.Fresh) (c : Cursor) :
    (index t left c).Yields Expr.Fresh := by
  rw [index]
  refine yields_read rfl fun _ rest _ _ => ?_
  refine (fresh_expr t .default rest).andThen fun position rest _ hp => ?_
  exact yields_andThen fun _ rest _ => ⟨rfl, hl, hp⟩
termination_by 8 * c.remaining
decreasing_by all_goals omega

theorem fresh_stmt (t : Tables) (c : Cursor) : (stmt t c).Yields Stmt.Fresh := by
  rw [stmt]
  split
  · exact fresh_exprStmt t c
  · split
    · exact fresh_exprStmt t c
    · exact fresh_declareStmt t c
    · exact fresh_importStmt c
    · exact fresh_condStmt t c
    · exact fresh_whileStmt t c
    · exact fresh_forStmt t c
    · exact (fresh_blockStmt t .default c).mono fun st hst => hst.1
    · exact fresh_sharedStmt t c
    · exact fresh_isolatedStmt t c
    · exact fresh_functionStmt t c
    · exact fresh_returnStmt t c
    · exact fresh_wordStmt .break_ .leave (fun _ => trivial) c
    · exact fresh_wordStmt .continue_ .next (fun _ => trivial) c
termination_by 8 * c.remaining + 4
decreasing_by all_goals omega

theorem fresh_stmts (t : Tables) (c : Cursor) : (stmts t c).Yields stmtsFresh := by
  rw [stmts]
  split
  · exact yields_pure trivial
  · refine ((fresh_stmt t c).andThen fun first rest _ hf => ?_).any
    exact (fresh_stmts t rest).map fun others ho => ⟨hf, ho⟩
termination_by 8 * c.remaining + 5
decreasing_by all_goals omega

theorem fresh_block (t : Tables) (c : Cursor) : (block t c).Yields stmtsFresh := by
  rw [block]
  refine yields_read rfl fun _ rest _ _ => ?_
  exact (fresh_stmts t rest).andThen fun body rest _ hb => yields_map fun _ => hb
termination_by 8 * c.remaining
decreasing_by all_goals omega

theorem fresh_blockStmt (t : Tables) (modifier : Modifier) (c : Cursor) :
    (blockStmt t modifier c).Yields FreshBlock := by
  rw [blockStmt]
  exact (fresh_block t c).andThen fun body rest _ hb => ⟨hb, rfl⟩
termination_by 8 * c.remaining + 1
decreasing_by all_goals omega

theorem fresh_exprStmt (t : Tables) (c : Cursor) : (exprStmt t c).Yields Stmt.Fresh := by
  rw [exprStmt]
  exact (fresh_expr t .default c).andThen fun value rest _ hv => yields_map fun _ => hv
termination_by 8 * c.remaining + 3
decreasing_by all_goals omega

theorem fresh_declareStmt (t : Tables) (c : Cursor) : (declareStmt t c).Yields Stmt.Fresh := by
  rw [declareStmt]
  refine yields_read rfl fun first rest _ _ => yields_andThen fun name rest _ => ?_
  refine yields_andThen fun type rest _ => yields_andThen fun q rest _ => ?_
  refine (fresh_initialValue t rest).andThen fun init rest _ hi => ?_
  exact yields_andThen fun _ rest _ => hi
termination_by 8 * c.remaining
decreasing_by all_goals omega

theorem fresh_initialValue (t : Tables) (c : Cursor) : (initialValue t c).Yields exprFresh? := by
  rw [initialValue]
  split
  · refine (yields_andThen fun _ rest _ => ?_).any
    exact (fresh_expr t .default rest).map fun value hv => hv
  · exact yields_pure trivial
termination_by 8 * c.remaining
decreasing_by all_goals omega

theorem fresh_optionalExpr (t : Tables) (close : TokenKind) (c : Cursor) :
    (optionalExpr t close c).Yields exprFresh? := by
  rw [optionalExpr]
  split
  · exact yields_pure trivial
  · exact Yields.any ((fresh_expr t .default c).map fun value hv => hv)
termination_by 8 * c.remaining + 3
decreasing_by all_goals omega

theorem fresh_isolatedStmt (t : Tables) (c : Cursor) : (isolatedStmt t c).Yields Stmt.Fresh := by
  rw [isolatedStmt]
  refine yields_read rfl fun _ rest _ _ => ?_
  exact (fresh_blockStmt t .isolated rest).mono fun st hst => hst.1
termination_by 8 * c.remaining
decreasing_by all_goals omega

/-- A shared loop is a loop with another mark. -/
theorem fresh_sharedStmt (t : Tables) (c : Cursor) : (sharedStmt t c).Yields Stmt.Fresh := by
  rw [sharedStmt]
  refine yields_read rfl fun first rest _ _ => ?_
  split
  · exact (fresh_blockStmt t .shared rest).mono fun st hst => hst.1
  · exact (fresh_whileStmt t rest).andThen fun loop rest _ hl => fresh_asShared hl _
  · exact (fresh_forStmt t rest).andThen fun loop rest _ hl => fresh_asShared hl _
  · exact yields_fail _
termination_by 8 * c.remaining
decreasing_by all_goals omega

theorem fresh_condStmt (t : Tables) (c : Cursor) : (condStmt t c).Yields Stmt.Fresh := by
  rw [condStmt]
  refine yields_read rfl fun first rest _ _ => ?_
  refine (fresh_expr t .default rest).andThen fun condition rest _ hc => ?_
  refine (fresh_blockStmt t .default rest).andThen fun yes rest _ hy => ?_
  exact (fresh_elseBranch t rest).andThen fun no rest _ hn => ⟨hc, hy.1, hn⟩
termination_by 8 * c.remaining
decreasing_by all_goals omega

/-- Another choice or a block.  It need not be known that a block is one. -/
theorem fresh_elseBranch (t : Tables) (c : Cursor) : (elseBranch t c).Yields stmtFresh? := by
  rw [elseBranch]
  split
  · refine (yields_andThen fun _ rest _ => ?_).any
    split
    · exact (fresh_condStmt t rest).map fun branch hb => hb
    · exact (fresh_blockStmt t .default rest).map fun branch hb => hb.1
  · exact yields_pure trivial
termination_by 8 * c.remaining
decreasing_by all_goals omega

/-- The body of a loop has been read as a block. -/
theorem fresh_whileStmt (t : Tables) (c : Cursor) : (whileStmt t c).Yields Stmt.Fresh := by
  rw [whileStmt]
  refine yields_read rfl fun first rest _ _ => ?_
  refine (fresh_expr t .default rest).andThen fun condition rest _ hc => ?_
  exact (fresh_blockStmt t .default rest).andThen fun body rest _ hb => ⟨hc, hb⟩
termination_by 8 * c.remaining
decreasing_by all_goals omega

theorem fresh_forStmt (t : Tables) (c : Cursor) : (forStmt t c).Yields Stmt.Fresh := by
  rw [forStmt]
  refine yields_read rfl fun first rest _ _ => ?_
  split
  · exact (fresh_forEachTail t _ rest).any
  · exact (fresh_forLoopTail t _ rest).any
termination_by 8 * c.remaining
decreasing_by all_goals omega

theorem fresh_forEachTail (t : Tables) (start : Position) (c : Cursor) :
    (forEachTail t start c).Yields Stmt.Fresh := by
  rw [forEachTail]
  refine yields_read rfl fun name rest _ _ => yields_andThen fun _ rest _ => ?_
  refine (fresh_expr t .default rest).andThen fun iterable rest _ hi => ?_
  exact (fresh_blockStmt t .default rest).andThen fun body rest _ hb => ⟨hi, hb⟩
termination_by 8 * c.remaining
decreasing_by all_goals omega

theorem fresh_forLoopTail (t : Tables) (start : Position) (c : Cursor) :
    (forLoopTail t start c).Yields Stmt.Fresh := by
  rw [forLoopTail]
  refine (fresh_forInit t c).andThen fun init rest _ hi => ?_
  refine (fresh_optionalExpr t _ rest).andThen fun condition rest _ hc => ?_
  refine yields_andThen fun _ rest _ => ?_
  refine (fresh_optionalExpr t _ rest).andThen fun step rest _ hs => ?_
  exact (fresh_blockStmt t .default rest).andThen fun body rest _ hb => ⟨hi, hc, hs, hb⟩
termination_by 8 * c.remaining + 5
decreasing_by all_goals omega

theorem fresh_forInit (t : Tables) (c : Cursor) : (forInit t c).Yields stmtFresh? := by
  rw [forInit]
  split
  · exact yields_map fun _ => trivial
  · exact Yields.any ((fresh_declareStmt t c).map fun st hst => hst)
  · exact Yields.any ((fresh_exprStmt t c).map fun st hst => hst)
termination_by 8 * c.remaining + 4
decreasing_by all_goals omega

/-- The parameters of a function hold no expressions. -/
theorem fresh_functionStmt (t : Tables) (c : Cursor) : (functionStmt t c).Yields Stmt.Fresh := by
  rw [functionStmt]
  refine yields_read rfl fun first rest _ _ => yields_andThen fun name rest _ => ?_
  refine yields_andThen fun params rest _ => yields_andThen fun modifier rest _ => ?_
  refine yields_andThen fun ret rest _ => ?_
  exact (fresh_block t rest).andThen fun body rest _ hb => hb
termination_by 8 * c.remaining
decreasing_by all_goals omega

theorem fresh_returnStmt (t : Tables) (c : Cursor) : (returnStmt t c).Yields Stmt.Fresh := by
  rw [returnStmt]
  refine yields_read rfl fun first rest _ _ => ?_
  refine (fresh_optionalExpr t _ rest).andThen fun value rest _ hv => ?_
  exact yields_andThen fun _ rest _ => hv
termination_by 8 * c.remaining
decreasing_by all_goals omega

end

theorem fresh_statements (t : Tables) (c : Cursor) : (statements t c).Yields stmtsFresh := by
  rw [statements]
  split
  · exact yields_pure trivial
  · refine ((fresh_stmt t c).andThen fun first rest _ hf => ?_).any
    exact (fresh_statements t rest).map fun others ho => ⟨hf, ho⟩
termination_by c.remaining

/-- The grammar gives fresh trees. -/
theorem fresh_parse {tokens : List Token} {file : String} {m : Module}
    (h : (parse tokens file).result = .ok m) : stmtsFresh m.statements := by
  have hp : (parse tokens file).Yields fun m => stmtsFresh m.statements :=
    (fresh_statements .language _).map fun body hb => hb
  exact hp.of_result h

end Grammar

/-! ### Imports -/

theorem fresh_readModule {module text : String} {statements : List Stmt}
    (h : readModule module text = .ok statements) : stmtsFresh statements := by
  unfold readModule at h
  dsimp only at h
  split at h
  · cases h
  · next tokens _ =>
    cases hp : (Grammar.parse tokens (moduleFileName module)).result with
    | error d => rw [hp] at h; cases h
    | ok m =>
      rw [hp] at h
      cases h
      exact Grammar.fresh_parse hp

/-- If the resolution succeeds, its statements are fresh. -/
def Resolution.Fresh (r : Resolution) : Prop :=
  ∀ statements, r.2 = .ok statements → stmtsFresh statements

theorem Resolution.fresh_error (s : ImportState) (d : Diagnostic) :
    Resolution.Fresh (s, .error d) := nofun

/-- Statements before those of a resolution. -/
theorem fresh_prepend {front : List Stmt} {r : Resolution} (hf : stmtsFresh front)
    (hr : Resolution.Fresh r) : Resolution.Fresh (prepend front r) := by
  intro statements h
  unfold prepend at h
  cases hs : r.2 with
  | error d => rw [hs] at h; cases h
  | ok others =>
    rw [hs] at h
    cases h
    exact stmtsFresh_append hf (hr others hs)

/-- If entering modules keeps statements fresh, so does resolving the imports among some statements.
-/
theorem fresh_resolveEach {lib : Library} {loading : List String} {enter : Enter lib loading}
    (henter : ∀ module text found fresh body s, stmtsFresh body →
      Resolution.Fresh (enter module text found fresh body s))
    {statements : List Stmt} (hs : stmtsFresh statements) (s : ImportState) :
    Resolution.Fresh (resolveEach lib loading enter statements s) := by
  induction statements generalizing s with
  | nil =>
    intro statements h
    cases h
    trivial
  | cons st others ih =>
    obtain ⟨hst, hothers⟩ := hs
    cases st with
    | importModule span module space inside =>
      rw [resolveEach]
      split
      -- a module that is being read or has been merged adds nothing
      · exact ih hothers _
      · split
        · exact ih hothers _
        · dsimp only
          split
          · exact Resolution.fresh_error _ _
          · next text found _ =>
            cases hread : readModule module text with
            | error d => exact Resolution.fresh_error _ _
            | ok body =>
              have hbody := henter module text found (Bool.eq_false_iff.mpr ‹_›) body
              dsimp only
              cases space with
              -- with a namespace the module becomes one statement, without one its statements are
              -- merged
              | some space =>
                dsimp only
                split
                · exact Resolution.fresh_error _ _
                · next hin =>
                  exact fresh_prepend ⟨hbody _ (fresh_readModule hread) _ hin, trivial⟩
                    (ih hothers _)
              | none =>
                dsimp only
                split
                · exact Resolution.fresh_error _ _
                · next hin =>
                  exact fresh_prepend (hbody _ (fresh_readModule hread) _ hin) (ih hothers _)
    | _ => exact fresh_prepend ⟨hst, trivial⟩ (ih hothers s)

/-- Each module that is entered leaves fewer to be entered, which is what the recursion is on. -/
theorem fresh_resolveFrom (lib : Library) (loading : List String) {statements : List Stmt}
    (hs : stmtsFresh statements) (s : ImportState) :
    Resolution.Fresh (resolveFrom lib loading statements s) := by
  rw [resolveFrom]
  refine fresh_resolveEach (fun module text found fresh body s hb => ?_) hs s
  have hlt := Library.unloaded_lt found fresh
  exact fresh_resolveFrom lib (module :: loading) hb s
termination_by lib.unloaded loading

/-- Resolving imports keeps trees fresh. -/
theorem fresh_resolveImports {lib : Library} {statements resolved : List Stmt}
    (hs : stmtsFresh statements) (h : (resolveImports lib statements).2 = .ok resolved) :
    stmtsFresh resolved :=
  fresh_resolveFrom lib [] hs .empty resolved h

/-! ### Programs -/

/-- The module is what the grammar reads from some tokens, with the imports resolved in some
library. -/
def Module.IsProgram (m : Module) : Prop :=
  ∃ (lib : Library) (tokens : List Token) (read : Module),
    (Grammar.parse tokens m.file).result = .ok read ∧
      (resolveImports lib read.statements).2 = .ok m.statements

/-- The program that is read from a text, unless something is wrong with it or one of its
modules. -/
def Module.ofSource? (lib : Library) (source file : String) : Option Module :=
  match tokenize source file with
  | .error _ => none
  | .ok tokens =>
    match (Grammar.parse tokens file).result with
    | .error _ => none
    | .ok read => (resolveImports lib read.statements).2.toOption.map fun sts => ⟨sts, file⟩

/-- What is read from a text is read from its tokens. -/
theorem Module.isProgram_of_source {lib : Library} {source file : String} {m : Module}
    (h : ofSource? lib source file = some m) : m.IsProgram := by
  unfold ofSource? at h
  split at h
  · cases h
  · next tokens _ =>
    split at h
    · cases h
    · next read hread =>
      obtain ⟨sts, hsts, rfl⟩ := Option.map_eq_some_iff.1 h
      refine ⟨lib, tokens, read, hread, ?_⟩
      cases hr : (resolveImports lib read.statements).2 with
      | error d => rw [hr] at hsts; cases hsts
      | ok found =>
        rw [hr] at hsts
        cases hsts
        rfl

theorem Module.IsProgram.fresh {m : Module} (h : m.IsProgram) : stmtsFresh m.statements := by
  obtain ⟨lib, tokens, read, hread, hresolved⟩ := h
  exact fresh_resolveImports (Grammar.fresh_parse hread) hresolved

end ThreadRegions
