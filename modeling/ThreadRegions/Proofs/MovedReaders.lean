import ThreadRegions.Grammar.Phrase
import ThreadRegions.Proofs.Relocate

/-!
# Reading tokens at other places

The grammar looks at the kinds and the texts of tokens and never at their places.  If the places of
all tokens are moved, it reads the same trees, with their places moved in the same way, and it stops
with the same errors.

## Main Definitions

* `Step.Moved`: two readers that do the same at different places

## Main Results

* `Grammar.moved_expr`, `Grammar.moved_stmt`: expressions and statements
* `Grammar.moved_statements`: all statements of a file

## Design Notes

There is one lemma for each reader.  The lemmas are mutually recursive in the same way as the
readers, with the same measure.
-/

namespace ThreadRegions

namespace Step

variable {α α' β β' : Type} {start : Cursor} {least more : Nat} {g : Position → Position}
  {f : α → α'} {f' : β → β'}

/-- The two readers do the same, the second one at the places that `g` says. -/
def Moved (g : Position → Position) (f : α → α') :
    Step α start least → Step α' (start.relocate g) least → Prop
  | done a rest _, done a' rest' _ => a' = f a ∧ rest' = rest.relocate g
  | stop e rest _, stop e' rest' _ => e' = e.relocate g ∧ rest' = rest.relocate g
  | _, _ => False

theorem Moved.result_eq {s : Step α start least} {s' : Step α' (start.relocate g) least}
    (h : s.Moved g f s') : s'.result = (s.result.map f).mapError (Diagnostic.relocate g) := by
  cases s <;> cases s'
  · exact congrArg Except.ok h.1
  · exact h.elim
  · exact h.elim
  · exact congrArg Except.error h.1

theorem moved_pure {a : α} {a' : α'} (h : a' = f a) :
    (pure a : Step α start 0).Moved g f (pure a' : Step α' (start.relocate g) 0) :=
  ⟨h, rfl⟩

/-- Errors differ in their places only, and readers that give up leave the cursor where it is. -/
theorem moved_fail {error error' : Diagnostic} (h : error' = error.relocate g) :
    (fail error : Step α start least).Moved g f
      (fail error' : Step α' (start.relocate g) least) :=
  ⟨h, rfl⟩

theorem Moved.any {s : Step α start least} {s' : Step α' (start.relocate g) least}
    (h : s.Moved g f s') : s.any.Moved g f s'.any := by
  cases s <;> cases s' <;> exact h

/-- A value may be made into another one if that can be done before or after the move. -/
theorem Moved.map {s : Step α start least} {s' : Step α' (start.relocate g) least} {make : α → β}
    {make' : α' → β'} (h : s.Moved g f s') (hm : ∀ a, make' (f a) = f' (make a)) :
    (s.map make).Moved g f' (s'.map make') := by
  cases s <;> cases s'
  · obtain ⟨rfl, hrest⟩ := h
    exact ⟨hm _, hrest⟩
  · exact h.elim
  · exact h.elim
  · exact h

/-- Two readers in a row.  The second one begins where the first one ends, which has been moved too.
-/
theorem Moved.andThen {s : Step α start least} {s' : Step α' (start.relocate g) least}
    {next : (value : α) → (rest : Cursor) → rest.remaining + least ≤ start.remaining →
      Step β rest more}
    {next' : (value : α') → (rest : Cursor) →
      rest.remaining + least ≤ (start.relocate g).remaining → Step β' rest more}
    (h : s.Moved g f s')
    (hn : ∀ a rest hle hle',
      (next a rest hle).Moved g f' (next' (f a) (rest.relocate g) hle')) :
    (s.andThen next).Moved g f' (s'.andThen next') := by
  cases s with
  | stop error rest left =>
    cases s' with
    | stop error' rest' left' => exact h
    | done a' rest' left' => exact h.elim
  | done a rest left =>
    cases s' with
    | stop error' rest' left' => exact h.elim
    | done a' rest' left' =>
      obtain ⟨rfl, rfl⟩ := h
      -- both have gone on, so all is up to the readers that follow
      have hnext := hn a rest left.remaining_le left'.remaining_le
      unfold Step.andThen
      dsimp only
      generalize next a rest left.remaining_le = r at hnext
      generalize next' (f a) (rest.relocate g) left'.remaining_le = r' at hnext
      cases r <;> cases r' <;> exact hnext

theorem Moved.andThenRead {kind : TokenKind} {s : Step α start kind.width}
    {s' : Step α' (start.relocate g) kind.width}
    {next : (value : α) → (rest : Cursor) → rest.remaining + kind.width ≤ start.remaining →
      Step β rest more}
    {next' : (value : α') → (rest : Cursor) →
      rest.remaining + kind.width ≤ (start.relocate g).remaining → Step β' rest more}
    (h : s.Moved g f s') (hk : kind.width = 1)
    (hn : ∀ a rest hle hle', rest.remaining < start.remaining →
      (next a rest hle).Moved g f' (next' (f a) (rest.relocate g) hle')) :
    (s.andThen next).Moved g f' (s'.andThen next') :=
  h.andThen fun a rest hle hle' => hn a rest hle hle' (by omega)

theorem moved_ite {p : Prop} [Decidable p] {s u : Step α start least}
    {s' u' : Step α' (start.relocate g) least} (hs : p → s.Moved g f s')
    (hu : ¬ p → u.Moved g f u') :
    (if p then s else u).Moved g f (if p then s' else u') := by
  by_cases hp : p
  · rw [if_pos hp, if_pos hp]
    exact hs hp
  · rw [if_neg hp, if_neg hp]
    exact hu hp

end Step

/-! ### Single tokens -/

namespace Cursor

open Step

variable (g : Position → Position) (c : Cursor)

/-- Reading past the end mark leaves the cursor at it. -/
theorem moved_read : c.read.Moved g (Token.relocate g) (c.relocate g).read := by
  obtain ⟨ahead, closing⟩ := c
  cases ahead <;> exact ⟨rfl, rfl⟩

theorem moved_take : c.take.Moved g (Token.relocate g) (c.relocate g).take := by
  obtain ⟨ahead, closing⟩ := c
  cases ahead <;> exact ⟨rfl, rfl⟩

/-- The error is given from outside, and has to be moved there. -/
theorem moved_expectOr (wanted : TokenKind) {error error' : Diagnostic}
    (h : error' = error.relocate g) : (c.expectOr wanted error).Moved g (Token.relocate g)
      ((c.relocate g).expectOr wanted error') := by
  obtain ⟨ahead, closing⟩ := c
  cases ahead with
  -- at the end mark nothing else can be read
  | nil => cases wanted <;> first | exact moved_fail h | exact ⟨rfl, rfl⟩
  | cons t ts => exact moved_ite (fun _ => ⟨rfl, rfl⟩) fun _ => moved_fail h

theorem moved_expect (wanted : TokenKind) :
    (c.expect wanted).Moved g (Token.relocate g) ((c.relocate g).expect wanted) :=
  moved_expectOr g c wanted (c.unexpected_relocate g)

theorem moved_expectBut (wanted : TokenKind) (message : String) :
    (c.expectBut wanted message).Moved g (Token.relocate g)
      ((c.relocate g).expectBut wanted message) :=
  moved_expectOr g c wanted (c.unexpectedBut_relocate g message)

/-- Whether the token is there does not depend on places. -/
theorem moved_eat (wanted : TokenKind) :
    (c.eat wanted).Moved g (fun found => found) ((c.relocate g).eat wanted) := by
  unfold eat
  rw [kind_relocate]
  exact moved_ite (fun _ => (c.moved_read g).map fun _ => rfl) fun _ => moved_pure rfl

end Cursor

namespace Grammar

open Step Cursor

/-! ### Types and marks -/

section Types

variable (g : Position → Position)

/-- Types have no places, so they are read as they are.  An unknown one is reported at its token. -/
theorem moved_builtinType (c : Cursor) :
    (builtinType c).Moved g (fun t => t) (builtinType (c.relocate g)) := by
  obtain ⟨ahead, closing⟩ := c
  cases ahead with
  | nil => exact ⟨rfl, rfl⟩
  | cons t ts =>
    -- the cursor is opened on both sides, so that both readers see their first token
    show @Moved _ _ ⟨t :: ts, closing⟩ 1 g (fun ty => ty) (builtinType ⟨t :: ts, closing⟩)
      (builtinType ⟨t.relocate g :: ts.map (Token.relocate g), closing.relocate g⟩)
    unfold builtinType
    dsimp only
    rw [show (t.relocate g).kind = t.kind from rfl]
    cases Ty.ofKind? t.kind <;> exact ⟨rfl, rfl⟩

theorem moved_namedType (c : Cursor) :
    (namedType c).Moved g (fun t => t) (namedType (c.relocate g)) :=
  (moved_expect g c .identifier).andThen fun _ _ _ _ => moved_fail rfl

/-- `as val`, `as ref`, or nothing. -/
theorem moved_qualifier (c : Cursor) :
    (qualifier c).Moved g (fun q => q) (qualifier (c.relocate g)) := by
  refine (moved_eat g c _).andThen fun found rest _ _ => ?_
  refine moved_ite (fun _ => ?_) fun _ => moved_pure rfl
  rw [kind_relocate]
  split
  · exact (moved_read g rest).map fun _ => rfl
  · exact (moved_read g rest).map fun _ => rfl
  · exact moved_fail (unexpectedBut_relocate g rest _)

theorem moved_modifier (c : Cursor) :
    (modifier c).Moved g (fun m => m) (modifier (c.relocate g)) := by
  unfold modifier
  rw [kind_relocate]
  split
  · exact (moved_read g c).map fun _ => rfl
  · exact (moved_read g c).map fun _ => rfl
  · exact moved_pure rfl

theorem moved_arrayType (element : Ty) (c : Cursor) :
    (arrayType element c).Moved g (fun t => t) (arrayType element (c.relocate g)) :=
  (moved_expect g c _).andThen fun _ rest _ _ => (moved_expect g rest _).map fun _ => rfl

/-- The loop over the brackets behind a type, which ends as the tokens do. -/
theorem moved_typeSuffixes (t : Tables) (bp : BindingPower) (left : Ty) (c : Cursor) :
    (typeSuffixes t bp left c).Moved g (fun t => t) (typeSuffixes t bp left (c.relocate g)) := by
  rw [typeSuffixes, typeSuffixes, kind_relocate]
  refine moved_ite (fun _ => moved_pure rfl) fun _ => ?_
  exact ((moved_arrayType g left c).andThen fun left rest _ _ =>
    moved_typeSuffixes t bp left rest).any
termination_by c.remaining

mutual

theorem moved_type (t : Tables) (bp : BindingPower) (c : Cursor) :
    (type t bp c).Moved g (fun t => t) (type t bp (c.relocate g)) := by
  rw [type, type]
  exact (moved_startType t c).andThen fun left rest _ _ => moved_typeSuffixes g t bp left rest
termination_by 4 * c.remaining + 2

theorem moved_startType (t : Tables) (c : Cursor) :
    (startType t c).Moved g (fun t => t) (startType t (c.relocate g)) := by
  rw [startType, startType, kind_relocate]
  split
  · exact moved_fail (unexpectedBut_relocate g c _)
  · exact moved_builtinType g c
  · exact moved_namedType g c
  · exact moved_functionType t c
termination_by 4 * c.remaining + 1

/-- A function type may be inside of another one, so the lemmas on types call each other. -/
theorem moved_functionType (t : Tables) (c : Cursor) :
    (functionType t c).Moved g (fun t => t) (functionType t (c.relocate g)) := by
  rw [functionType, functionType]
  refine (moved_expect g c _).andThenRead rfl fun _ rest _ _ _ => ?_
  refine (moved_expect g rest _).andThenRead rfl fun _ rest _ _ _ => ?_
  refine (moved_parameterTypes t rest).andThen fun params rest _ _ => ?_
  refine (moved_expect g rest _).andThen fun _ rest _ _ => ?_
  refine (moved_eat g rest _).andThen fun found rest _ _ => ?_
  refine moved_ite (fun _ => ?_) fun _ => moved_pure rfl
  exact Moved.any ((moved_type t .default rest).map fun _ => rfl)
termination_by 4 * c.remaining

theorem moved_parameterTypes (t : Tables) (c : Cursor) :
    (parameterTypes t c).Moved g (fun ps => ps) (parameterTypes t (c.relocate g)) := by
  rw [parameterTypes, parameterTypes, kind_relocate]
  refine moved_ite (fun _ => moved_pure rfl) fun _ => ?_
  refine ((moved_type t .default c).andThen fun param rest _ _ => ?_).any
  refine (moved_qualifier g rest).andThen fun q rest _ _ => ?_
  refine (moved_eat g rest _).andThen fun more rest _ _ => ?_
  refine moved_ite (fun _ => ?_) fun _ => moved_pure rfl
  exact (moved_parameterTypes t rest).map fun _ => rfl
termination_by 4 * c.remaining + 3

end

theorem moved_typeMark (t : Tables) (c : Cursor) :
    (typeMark t c).Moved g (fun t => t) (typeMark t (c.relocate g)) := by
  refine (moved_eat g c _).andThen fun found rest _ _ => ?_
  refine moved_ite (fun _ => ?_) fun _ => moved_pure rfl
  exact Moved.any ((moved_type g t .default rest).map fun _ => rfl)

/-- A parameter is the first thing with a place of its own: from its name to the next token. -/
theorem moved_parameter (t : Tables) (c : Cursor) :
    (parameter t c).Moved g (Param.relocate g) (parameter t (c.relocate g)) := by
  refine (moved_expectBut g c _ _).andThen fun name rest _ _ => ?_
  refine (moved_typeMark g t rest).andThen fun type rest _ _ => ?_
  refine (moved_qualifier g rest).andThen fun q rest _ _ => moved_pure ?_
  rw [spanFrom_token_relocate]
  rfl

theorem moved_parameterList (t : Tables) (c : Cursor) :
    (parameterList t c).Moved g (List.map (Param.relocate g)) (parameterList t (c.relocate g)) := by
  rw [parameterList, parameterList, kind_relocate]
  refine moved_ite (fun _ => moved_pure rfl) fun _ => ?_
  refine ((moved_parameter g t c).andThen fun param rest _ _ => ?_).any
  refine (moved_eat g rest _).andThen fun more rest _ _ => ?_
  refine moved_ite (fun _ => ?_) fun _ => moved_pure rfl
  exact (moved_parameterList t rest).map fun _ => rfl
termination_by c.remaining

theorem moved_parameters (t : Tables) (c : Cursor) :
    (parameters t c).Moved g (List.map (Param.relocate g)) (parameters t (c.relocate g)) := by
  refine (moved_expect g c _).andThen fun _ rest _ _ => ?_
  refine (moved_parameterList g t rest).andThen fun params rest _ _ => ?_
  exact (moved_expect g rest _).map fun _ => rfl

end Types

/-! ### Expressions of one or two tokens -/

section Primary

variable (g : Position → Position)

/-- A literal is read off the text of its token. -/
theorem primaryOf_relocate (t : Token) :
    primaryOf (t.relocate g) = (primaryOf t).map (Expr.relocate g) := by
  unfold primaryOf
  rw [show (t.relocate g).kind = t.kind from rfl,
    show literal? (t.relocate g) = literal? t from rfl]
  split
  · rfl
  · cases literal? t <;> rfl

/-- A literal or a name is as long as its token. -/
theorem moved_primary (c : Cursor) :
    (primary c).Moved g (Expr.relocate g) (primary (c.relocate g)) := by
  obtain ⟨ahead, closing⟩ := c
  cases ahead with
  | nil => exact ⟨rfl, rfl⟩
  | cons t ts =>
    -- the cursor is opened on both sides, so that both readers see their first token
    show @Moved _ _ ⟨t :: ts, closing⟩ 1 g (Expr.relocate g) (primary ⟨t :: ts, closing⟩)
      (primary ⟨t.relocate g :: ts.map (Token.relocate g), closing.relocate g⟩)
    unfold primary
    dsimp only
    rw [primaryOf_relocate]
    cases primaryOf t <;> exact ⟨rfl, rfl⟩

theorem spanTo_relocate (left : Expr) (t : Token) :
    spanTo (left.relocate g) (t.relocate g) = (spanTo left t).relocate g := by
  rw [spanTo, Expr.start_relocate]
  rfl

/-- Which of the two signs it is does not depend on its place. -/
theorem counted_relocate (left : Expr) (operator : Token) :
    counted (left.relocate g) (operator.relocate g) = (counted left operator).relocate g := by
  unfold counted
  rw [spanTo_relocate, show (operator.relocate g).kind = operator.kind from rfl]
  split <;> rfl

theorem moved_sync (left : Expr) (c : Cursor) :
    (sync left c).Moved g (Expr.relocate g) (sync (left.relocate g) (c.relocate g)) := by
  refine (moved_expect g c _).map fun bang => ?_
  rw [spanTo_relocate]
  rfl

theorem moved_member (left : Expr) (c : Cursor) :
    (member left c).Moved g (Expr.relocate g) (member (left.relocate g) (c.relocate g)) := by
  refine (moved_expect g c _).andThen fun _ rest _ _ => ?_
  refine (moved_expectBut g rest _ _).map fun name => ?_
  rw [spanTo_relocate]
  rfl

/-- Whether an expression can be assigned to does not depend on places. -/
theorem assignTo?_relocate (target value : Expr) (n : Node) :
    (target.relocate g).assignTo? (n.relocate g) (value.relocate g) =
      (target.assignTo? n value).map (Expr.relocate g) := by
  cases target <;> rfl

end Primary

/-! ### Statements of a few tokens -/

section Simple

variable (g : Position → Position)

/-- A reserved word is let through by its text. -/
theorem moved_namespaceName (c : Cursor) :
    (namespaceName c).Moved g (fun name => name) (namespaceName (c.relocate g)) := by
  refine (moved_eat g c _).andThen fun found rest _ _ => ?_
  refine moved_ite (fun _ => ?_) fun _ => moved_pure rfl
  rw [kind_relocate, current_relocate]
  refine moved_ite (fun _ => ?_) fun _ => moved_fail (unexpectedBut_relocate g rest _)
  exact (moved_read g rest).map fun _ => rfl

/-- An import holds no statements yet. -/
theorem moved_importStmt (c : Cursor) :
    (importStmt c).Moved g (Stmt.relocate g) (importStmt (c.relocate g)) := by
  refine (moved_expect g c _).andThen fun first rest _ _ => ?_
  refine (moved_expectBut g rest _ _).andThen fun module rest _ _ => ?_
  refine (moved_namespaceName g rest).andThen fun space rest _ _ => ?_
  refine (moved_expect g rest _).andThen fun _ rest _ _ => moved_pure ?_
  rw [spanFrom_token_relocate]
  rfl

/-- A word and a semicolon, for a statement that holds no more than its place. -/
theorem moved_wordStmt {make : Span → Stmt}
    (hmake : ∀ span, (make span).relocate g = make (span.relocate g)) (word : Keyword)
    (c : Cursor) :
    (wordStmt word make c).Moved g (Stmt.relocate g) (wordStmt word make (c.relocate g)) := by
  refine (moved_expect g c _).andThen fun first rest _ _ => ?_
  refine (moved_expect g rest _).andThen fun _ rest _ _ => moved_pure ?_
  rw [spanFrom_token_relocate, hmake]

/-- A shared loop begins at the word before it. -/
theorem asShared_relocate (span : Span) (st : Stmt) :
    asShared (span.relocate g) (st.relocate g) = (asShared span st).relocate g := by
  cases st <;> rfl

end Simple

/-! ### Expressions and statements -/

section Phrases

variable (g : Position → Position)

mutual

/-- An expression is read by its beginning and the operators behind it. -/
theorem moved_expr (t : Tables) (bp : BindingPower) (c : Cursor) :
    (expr t bp c).Moved g (Expr.relocate g) (expr t bp (c.relocate g)) := by
  rw [expr, expr]
  exact (moved_startExpr t c).andThen fun left rest _ _ => moved_operators t bp left rest
termination_by 8 * c.remaining + 2
decreasing_by all_goals omega

/-- The loop over the operators, each with a power that depends on the kind of its token. -/
theorem moved_operators (t : Tables) (bp : BindingPower) (left : Expr) (c : Cursor) :
    (operators t bp left c).Moved g (Expr.relocate g)
      (operators t bp (left.relocate g) (c.relocate g)) := by
  rw [operators, operators, kind_relocate]
  split
  · exact moved_pure rfl
  · next power form _ =>
    refine moved_ite (fun _ => moved_pure rfl) fun _ => ?_
    -- the new left operand has been moved, and is what the loop goes on with
    exact ((moved_infixExpr t form power left c).andThen fun left rest _ _ =>
      moved_operators t bp left rest).any
termination_by 8 * c.remaining + 2
decreasing_by all_goals omega

theorem moved_startExpr (t : Tables) (c : Cursor) :
    (startExpr t c).Moved g (Expr.relocate g) (startExpr t (c.relocate g)) := by
  rw [startExpr, startExpr, kind_relocate]
  split
  · exact moved_fail (unexpected_relocate g c)
  · exact moved_primary g c
  · exact moved_unary t c
  · exact moved_group t c
  · exact moved_arrayLiteral t c
  · exact moved_arraySync t c
  · exact moved_spawn t c
  · exact moved_lambda t c
termination_by 8 * c.remaining + 1
decreasing_by all_goals omega

/-- The way in which an expression goes on has been chosen by its token. -/
theorem moved_infixExpr (t : Tables) (form : InfixForm) (power : BindingPower) (left : Expr)
    (c : Cursor) : (infixExpr t form power left c).Moved g (Expr.relocate g)
      (infixExpr t form power (left.relocate g) (c.relocate g)) := by
  rw [infixExpr.eq_def, infixExpr.eq_def]
  split
  · exact moved_binary t power left c
  · exact moved_range t power left c
  · exact moved_assignment t left c
  · exact moved_call t left c
  · exact moved_index t left c
  · exact (moved_take g c).map fun operator => counted_relocate g left operator
  · exact moved_sync g left c
  · exact moved_member g left c
termination_by 8 * c.remaining + 1
decreasing_by all_goals omega

/-- From the operator to the end of the operand. -/
theorem moved_unary (t : Tables) (c : Cursor) :
    (unary t c).Moved g (Expr.relocate g) (unary t (c.relocate g)) := by
  rw [unary, unary]
  refine (moved_take g c).andThen fun operator rest _ _ => ?_
  refine (moved_expr t .unary rest).map fun operand => ?_
  rw [Expr.span_relocate]
  rfl
termination_by 8 * c.remaining
decreasing_by all_goals omega

/-- Parentheses leave no trace, so there is nothing to be moved but what is inside. -/
theorem moved_group (t : Tables) (c : Cursor) :
    (group t c).Moved g (Expr.relocate g) (group t (c.relocate g)) := by
  rw [group, group]
  refine (moved_expect g c _).andThenRead rfl fun _ rest _ _ _ => ?_
  refine (moved_expr t .default rest).andThen fun inner rest _ _ => ?_
  exact (moved_expect g rest _).map fun _ => rfl
termination_by 8 * c.remaining
decreasing_by all_goals omega

theorem moved_exprList (t : Tables) (close : TokenKind) (c : Cursor) :
    (exprList t close c).Moved g (exprsRelocate g) (exprList t close (c.relocate g)) := by
  rw [exprList, exprList, kind_relocate]
  refine moved_ite (fun _ => Moved.any ((moved_expect g c close).map fun _ => rfl)) fun _ => ?_
  refine ((moved_expr t .comma c).andThen fun item rest _ _ => ?_).any
  refine (moved_eat g rest _).andThen fun more rest _ _ => ?_
  refine moved_ite (fun _ => ?_) fun _ => Moved.any ((moved_expect g rest close).map fun _ => rfl)
  exact (moved_exprList t close rest).map fun others => rfl
termination_by 8 * c.remaining + 3
decreasing_by all_goals omega

theorem moved_arrayLiteral (t : Tables) (c : Cursor) :
    (arrayLiteral t c).Moved g (Expr.relocate g) (arrayLiteral t (c.relocate g)) := by
  rw [arrayLiteral, arrayLiteral]
  refine (moved_expect g c _).andThenRead rfl fun first rest _ _ _ => ?_
  refine (moved_exprList t _ rest).andThen fun elements rest _ _ => moved_pure ?_
  rw [spanFrom_token_relocate]
  rfl
termination_by 8 * c.remaining
decreasing_by all_goals omega

/-- Here are two places: that of the array, which ends before the exclamation mark, and that of the
whole. -/
theorem moved_arraySync (t : Tables) (c : Cursor) :
    (arraySync t c).Moved g (Expr.relocate g) (arraySync t (c.relocate g)) := by
  rw [arraySync, arraySync]
  refine (moved_expect g c _).andThenRead rfl fun first rest _ _ _ => ?_
  refine (moved_exprList t _ rest).andThen fun handles rest _ _ => ?_
  refine (moved_expectBut g rest _ _).map fun bang => ?_
  rw [spanFrom_token_relocate]
  rfl
termination_by 8 * c.remaining
decreasing_by all_goals omega

theorem moved_spawn (t : Tables) (c : Cursor) :
    (spawn t c).Moved g (Expr.relocate g) (spawn t (c.relocate g)) := by
  rw [spawn, spawn]
  refine (moved_expect g c _).andThenRead rfl fun first rest _ _ _ => ?_
  refine (moved_expr t .unary rest).map fun call => ?_
  rw [Expr.span_relocate]
  rfl
termination_by 8 * c.remaining
decreasing_by all_goals omega

theorem moved_lambda (t : Tables) (c : Cursor) :
    (lambda t c).Moved g (Expr.relocate g) (lambda t (c.relocate g)) := by
  rw [lambda, lambda]
  refine (moved_expect g c _).andThenRead rfl fun first rest _ _ _ => ?_
  refine (moved_parameters g t rest).andThen fun params rest _ _ => ?_
  refine (moved_modifier g rest).andThen fun modifier rest _ _ => ?_
  refine (moved_typeMark g t rest).andThen fun ret rest _ _ => ?_
  refine (moved_lambdaBody t rest).andThen fun body rest _ _ => moved_pure ?_
  rw [spanFrom_token_relocate]
  rfl
termination_by 8 * c.remaining
decreasing_by all_goals omega

theorem moved_lambdaBody (t : Tables) (c : Cursor) :
    (lambdaBody t c).Moved g (Body.relocate g) (lambdaBody t (c.relocate g)) := by
  rw [lambdaBody, lambdaBody, kind_relocate]
  split
  · refine (moved_take g c).andThen fun _ rest _ _ => ?_
    exact (moved_expr t .comma rest).map fun value => rfl
  · exact (moved_block t c).map fun body => rfl
  · exact moved_fail (unexpectedBut_relocate g c _)
termination_by 8 * c.remaining + 1
decreasing_by all_goals omega

/-- From the beginning of the left operand to the end of the right one. -/
theorem moved_binary (t : Tables) (power : BindingPower) (left : Expr) (c : Cursor) :
    (binary t power left c).Moved g (Expr.relocate g)
      (binary t power (left.relocate g) (c.relocate g)) := by
  rw [binary, binary]
  refine (moved_take g c).andThen fun operator rest _ _ => ?_
  rw [show (operator.relocate g).kind = operator.kind from rfl]
  split
  -- the table of operators has been asked already, but the reader asks it again
  · exact moved_fail rfl
  · refine (moved_expr t power rest).map fun right => ?_
    rw [Expr.span_relocate, Expr.start_relocate]
    rfl
termination_by 8 * c.remaining
decreasing_by all_goals omega

theorem moved_range (t : Tables) (power : BindingPower) (left : Expr) (c : Cursor) :
    (range t power left c).Moved g (Expr.relocate g)
      (range t power (left.relocate g) (c.relocate g)) := by
  rw [range, range]
  refine (moved_expect g c _).andThenRead rfl fun _ rest _ _ _ => ?_
  refine (moved_expr t power rest).map fun right => ?_
  rw [Expr.span_relocate, Expr.start_relocate]
  rfl
termination_by 8 * c.remaining
decreasing_by all_goals omega

/-- The left side has been read as an expression, and becomes the target now. -/
theorem moved_assignment (t : Tables) (left : Expr) (c : Cursor) :
    (assignment t left c).Moved g (Expr.relocate g)
      (assignment t (left.relocate g) (c.relocate g)) := by
  rw [assignment, assignment]
  refine (moved_take g c).andThen fun operator rest _ _ => ?_
  refine (moved_expr t .comma rest).andThen fun value rest _ _ => ?_
  have hassign := assignTo?_relocate g left value (.at ⟨left.start, value.span.stop⟩)
  rw [Expr.span_relocate, Expr.start_relocate]
  -- both sides have to show the same span before they can be compared
  dsimp only [Node.relocate, Node.at, Span.relocate] at hassign ⊢
  rw [hassign]
  cases left.assignTo? _ value with
  | none => exact moved_fail rfl
  | some e => exact moved_pure rfl
termination_by 8 * c.remaining
decreasing_by all_goals omega

/-- From the beginning of the callee to the token behind the closing parenthesis. -/
theorem moved_call (t : Tables) (left : Expr) (c : Cursor) :
    (call t left c).Moved g (Expr.relocate g) (call t (left.relocate g) (c.relocate g)) := by
  rw [call, call]
  refine (moved_expect g c _).andThenRead rfl fun _ rest _ _ _ => ?_
  refine (moved_exprList t _ rest).andThen fun args rest _ _ => moved_pure ?_
  rw [Expr.start_relocate, spanFrom_relocate]
  rfl
termination_by 8 * c.remaining
decreasing_by all_goals omega

theorem moved_index (t : Tables) (left : Expr) (c : Cursor) :
    (index t left c).Moved g (Expr.relocate g) (index t (left.relocate g) (c.relocate g)) := by
  rw [index, index]
  refine (moved_expect g c _).andThenRead rfl fun _ rest _ _ _ => ?_
  refine (moved_expr t .default rest).andThen fun position rest _ _ => ?_
  refine (moved_expect g rest _).andThen fun _ rest _ _ => moved_pure ?_
  rw [Expr.start_relocate, spanFrom_relocate]
  rfl
termination_by 8 * c.remaining
decreasing_by all_goals omega

/-- The form of a statement is chosen by its first token, and for `fn` by the one behind it too. -/
theorem moved_stmt (t : Tables) (c : Cursor) :
    (stmt t c).Moved g (Stmt.relocate g) (stmt t (c.relocate g)) := by
  rw [stmt, stmt, kind_relocate, kindAhead_relocate]
  refine moved_ite (fun _ => moved_exprStmt t c) fun _ => ?_
  split
  · exact moved_exprStmt t c
  · exact moved_declareStmt t c
  · exact moved_importStmt g c
  · exact moved_condStmt t c
  · exact moved_whileStmt t c
  · exact moved_forStmt t c
  · exact moved_blockStmt t .default c
  · exact moved_sharedStmt t c
  · exact moved_isolatedStmt t c
  · exact moved_functionStmt t c
  · exact moved_returnStmt t c
  -- `break` and `continue`
  · exact moved_wordStmt g (fun _ => rfl) _ c
  · exact moved_wordStmt g (fun _ => rfl) _ c
termination_by 8 * c.remaining + 4
decreasing_by all_goals omega

theorem moved_stmts (t : Tables) (c : Cursor) :
    (stmts t c).Moved g (stmtsRelocate g) (stmts t (c.relocate g)) := by
  rw [stmts, stmts, kind_relocate]
  refine moved_ite (fun _ => moved_pure rfl) fun _ => ?_
  refine ((moved_stmt t c).andThen fun first rest _ _ => ?_).any
  exact (moved_stmts t rest).map fun others => rfl
termination_by 8 * c.remaining + 5
decreasing_by all_goals omega

/-- Braces leave no trace in the list of statements. -/
theorem moved_block (t : Tables) (c : Cursor) :
    (block t c).Moved g (stmtsRelocate g) (block t (c.relocate g)) := by
  rw [block, block]
  refine (moved_expectBut g c _ _).andThenRead rfl fun _ rest _ _ _ => ?_
  refine (moved_stmts t rest).andThen fun body rest _ _ => ?_
  exact (moved_expect g rest _).map fun _ => rfl
termination_by 8 * c.remaining
decreasing_by all_goals omega

/-- The block begins where the cursor stands. -/
theorem moved_blockStmt (t : Tables) (modifier : Modifier) (c : Cursor) :
    (blockStmt t modifier c).Moved g (Stmt.relocate g) (blockStmt t modifier (c.relocate g)) := by
  rw [blockStmt, blockStmt]
  refine (moved_block t c).andThen fun body rest _ _ => moved_pure ?_
  rw [position_relocate, spanFrom_relocate]
  rfl
termination_by 8 * c.remaining + 1
decreasing_by all_goals omega

/-- The statement is as long as its expression, without the semicolon. -/
theorem moved_exprStmt (t : Tables) (c : Cursor) :
    (exprStmt t c).Moved g (Stmt.relocate g) (exprStmt t (c.relocate g)) := by
  rw [exprStmt, exprStmt]
  refine (moved_expr t .default c).andThen fun value rest _ _ => ?_
  refine (moved_expect g rest _).map fun _ => ?_
  rw [Expr.span_relocate]
  rfl
termination_by 8 * c.remaining + 3
decreasing_by all_goals omega

/-- From `var` to the token behind the semicolon. -/
theorem moved_declareStmt (t : Tables) (c : Cursor) :
    (declareStmt t c).Moved g (Stmt.relocate g) (declareStmt t (c.relocate g)) := by
  rw [declareStmt, declareStmt]
  refine (moved_expect g c _).andThenRead rfl fun first rest _ _ _ => ?_
  refine (moved_expectBut g rest _ _).andThen fun name rest _ _ => ?_
  refine (moved_typeMark g t rest).andThen fun type rest _ _ => ?_
  refine (moved_qualifier g rest).andThen fun q rest _ _ => ?_
  refine (moved_initialValue t rest).andThen fun init rest _ _ => ?_
  refine (moved_expect g rest _).andThen fun _ rest _ _ => moved_pure ?_
  rw [spanFrom_token_relocate]
  rfl
termination_by 8 * c.remaining
decreasing_by all_goals omega

theorem moved_initialValue (t : Tables) (c : Cursor) :
    (initialValue t c).Moved g (exprRelocate? g) (initialValue t (c.relocate g)) := by
  rw [initialValue, initialValue, kind_relocate]
  refine moved_ite (fun _ => ?_) fun _ => moved_pure rfl
  refine ((moved_take g c).andThen fun _ rest _ _ => ?_).any
  exact (moved_expr t .default rest).map fun value => rfl
termination_by 8 * c.remaining
decreasing_by all_goals omega

/-- Whether there is an expression is told by the next token. -/
theorem moved_optionalExpr (t : Tables) (close : TokenKind) (c : Cursor) :
    (optionalExpr t close c).Moved g (exprRelocate? g) (optionalExpr t close (c.relocate g)) := by
  rw [optionalExpr, optionalExpr, kind_relocate]
  refine moved_ite (fun _ => moved_pure rfl) fun _ => ?_
  exact Moved.any ((moved_expr t .default c).map fun value => rfl)
termination_by 8 * c.remaining + 3
decreasing_by all_goals omega

theorem moved_isolatedStmt (t : Tables) (c : Cursor) :
    (isolatedStmt t c).Moved g (Stmt.relocate g) (isolatedStmt t (c.relocate g)) := by
  rw [isolatedStmt, isolatedStmt]
  refine (moved_expect g c _).andThenRead rfl fun _ rest _ _ _ => ?_
  exact moved_blockStmt t .isolated rest
termination_by 8 * c.remaining
decreasing_by all_goals omega

/-- A block is read as it is, and a loop is given its new beginning. -/
theorem moved_sharedStmt (t : Tables) (c : Cursor) :
    (sharedStmt t c).Moved g (Stmt.relocate g) (sharedStmt t (c.relocate g)) := by
  rw [sharedStmt, sharedStmt]
  refine (moved_expect g c _).andThenRead rfl fun first rest _ _ _ => ?_
  have hshared (loop : Stmt) (rest : Cursor) :
      asShared ((rest.relocate g).spanFrom (first.relocate g).span.start) (loop.relocate g) =
        (asShared (rest.spanFrom first.span.start) loop).relocate g := by
    rw [spanFrom_token_relocate, asShared_relocate]
  rw [kind_relocate]
  split
  · exact moved_blockStmt t .shared rest
  · exact (moved_whileStmt t rest).andThen fun loop rest _ _ => moved_pure (hshared loop rest)
  · exact (moved_forStmt t rest).andThen fun loop rest _ _ => moved_pure (hshared loop rest)
  · exact moved_fail (unexpectedBut_relocate g rest _)
termination_by 8 * c.remaining
decreasing_by all_goals omega

theorem moved_condStmt (t : Tables) (c : Cursor) :
    (condStmt t c).Moved g (Stmt.relocate g) (condStmt t (c.relocate g)) := by
  rw [condStmt, condStmt]
  refine (moved_expect g c _).andThenRead rfl fun first rest _ _ _ => ?_
  refine (moved_expr t .default rest).andThen fun condition rest _ _ => ?_
  refine (moved_blockStmt t .default rest).andThen fun yes rest _ _ => ?_
  refine (moved_elseBranch t rest).andThen fun no rest _ _ => moved_pure ?_
  rw [spanFrom_token_relocate]
  rfl
termination_by 8 * c.remaining
decreasing_by all_goals omega

/-- Behind `else` there is a block or another choice. -/
theorem moved_elseBranch (t : Tables) (c : Cursor) :
    (elseBranch t c).Moved g (stmtRelocate? g) (elseBranch t (c.relocate g)) := by
  rw [elseBranch, elseBranch, kind_relocate]
  refine moved_ite (fun _ => ?_) fun _ => moved_pure rfl
  refine ((moved_take g c).andThen fun _ rest _ _ => ?_).any
  rw [kind_relocate]
  refine moved_ite (fun _ => ?_) fun _ => ?_
  · exact (moved_condStmt t rest).map fun branch => rfl
  · exact (moved_blockStmt t .default rest).map fun branch => rfl
termination_by 8 * c.remaining
decreasing_by all_goals omega

theorem moved_whileStmt (t : Tables) (c : Cursor) :
    (whileStmt t c).Moved g (Stmt.relocate g) (whileStmt t (c.relocate g)) := by
  rw [whileStmt, whileStmt]
  refine (moved_expect g c _).andThenRead rfl fun first rest _ _ _ => ?_
  refine (moved_expr t .default rest).andThen fun condition rest _ _ => ?_
  refine (moved_blockStmt t .default rest).andThen fun body rest _ _ => moved_pure ?_
  rw [spanFrom_token_relocate]
  rfl
termination_by 8 * c.remaining
decreasing_by all_goals omega

/-- Which of the two loops it is depends on the next two tokens. -/
theorem moved_forStmt (t : Tables) (c : Cursor) :
    (forStmt t c).Moved g (Stmt.relocate g) (forStmt t (c.relocate g)) := by
  rw [forStmt, forStmt]
  refine (moved_expect g c _).andThenRead rfl fun first rest _ _ _ => ?_
  rw [kind_relocate, kindAhead_relocate]
  refine moved_ite (fun _ => ?_) fun _ => ?_
  · exact (moved_forEachTail t first.span.start rest).any
  · exact (moved_forLoopTail t first.span.start rest).any
termination_by 8 * c.remaining
decreasing_by all_goals omega

/-- The place of the word `for` is handed over, and has to be moved on the way. -/
theorem moved_forEachTail (t : Tables) (start : Position) (c : Cursor) :
    (forEachTail t start c).Moved g (Stmt.relocate g)
      (forEachTail t (g start) (c.relocate g)) := by
  rw [forEachTail, forEachTail]
  refine (moved_expect g c _).andThenRead rfl fun name rest _ _ _ => ?_
  refine (moved_expect g rest _).andThen fun _ rest _ _ => ?_
  refine (moved_expr t .default rest).andThen fun iterable rest _ _ => ?_
  refine (moved_blockStmt t .default rest).andThen fun body rest _ _ => moved_pure ?_
  rw [spanFrom_relocate]
  rfl
termination_by 8 * c.remaining
decreasing_by all_goals omega

/-- The three clauses of a loop with a counter, each of which may be missing. -/
theorem moved_forLoopTail (t : Tables) (start : Position) (c : Cursor) :
    (forLoopTail t start c).Moved g (Stmt.relocate g)
      (forLoopTail t (g start) (c.relocate g)) := by
  rw [forLoopTail, forLoopTail]
  refine (moved_forInit t c).andThen fun init rest _ _ => ?_
  refine (moved_optionalExpr t _ rest).andThen fun condition rest _ _ => ?_
  refine (moved_expect g rest _).andThen fun _ rest _ _ => ?_
  refine (moved_optionalExpr t _ rest).andThen fun step rest _ _ => ?_
  refine (moved_blockStmt t .default rest).andThen fun body rest _ _ => moved_pure ?_
  rw [spanFrom_relocate]
  rfl
termination_by 8 * c.remaining + 5
decreasing_by all_goals omega

theorem moved_forInit (t : Tables) (c : Cursor) :
    (forInit t c).Moved g (stmtRelocate? g) (forInit t (c.relocate g)) := by
  rw [forInit, forInit, kind_relocate]
  split
  · exact (moved_read g c).map fun _ => rfl
  · exact Moved.any ((moved_declareStmt t c).map fun st => rfl)
  · exact Moved.any ((moved_exprStmt t c).map fun st => rfl)
termination_by 8 * c.remaining + 4
decreasing_by all_goals omega

theorem moved_functionStmt (t : Tables) (c : Cursor) :
    (functionStmt t c).Moved g (Stmt.relocate g) (functionStmt t (c.relocate g)) := by
  rw [functionStmt, functionStmt]
  refine (moved_expect g c _).andThenRead rfl fun first rest _ _ _ => ?_
  refine (moved_expectBut g rest _ _).andThen fun name rest _ _ => ?_
  refine (moved_parameters g t rest).andThen fun params rest _ _ => ?_
  refine (moved_modifier g rest).andThen fun modifier rest _ _ => ?_
  refine (moved_typeMark g t rest).andThen fun ret rest _ _ => ?_
  refine (moved_block t rest).andThen fun body rest _ _ => moved_pure ?_
  rw [spanFrom_token_relocate]
  rfl
termination_by 8 * c.remaining
decreasing_by all_goals omega

theorem moved_returnStmt (t : Tables) (c : Cursor) :
    (returnStmt t c).Moved g (Stmt.relocate g) (returnStmt t (c.relocate g)) := by
  rw [returnStmt, returnStmt]
  refine (moved_expect g c _).andThenRead rfl fun first rest _ _ _ => ?_
  refine (moved_optionalExpr t _ rest).andThen fun value rest _ _ => ?_
  refine (moved_expect g rest _).andThen fun _ rest _ _ => moved_pure ?_
  rw [spanFrom_token_relocate]
  rfl
termination_by 8 * c.remaining
decreasing_by all_goals omega

end

/-- All statements of a file, where a closing brace is no end. -/
theorem moved_statements (t : Tables) (c : Cursor) :
    (statements t c).Moved g (stmtsRelocate g) (statements t (c.relocate g)) := by
  rw [statements, statements, kind_relocate]
  refine moved_ite (fun _ => moved_pure rfl) fun _ => ?_
  refine ((moved_stmt g t c).andThen fun first rest _ _ => ?_).any
  exact (moved_statements t rest).map fun others => rfl
termination_by c.remaining

end Phrases

end Grammar

end ThreadRegions
