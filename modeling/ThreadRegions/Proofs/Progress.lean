import ThreadRegions.Proofs.Layers

/-!
# Reading goes forward and comes to an end

The readers on a tape follow those of the grammar.  So they come to an end on every list of tokens,
never look at a token that is not there, and move forward with every type, expression and statement.

## Main Definitions

* `Readers.Follow`: readers that follow the grammar, as long as few enough tokens are left
* `GoesForward`: a reader that ends, further on if it succeeds

## Main Results

* `Readers.Follow.next`: what holds of one layer of calls holds of the next one
* `Readers.follow_upTo`: as many layers as calls are nested follow the grammar
* `parse_goes_forward`: a run over any list of tokens ends, and the cursor only goes forward

## Design Notes

There is one lemma for each reader, and none of them is recursive: it says that a reader follows the
grammar if the readers that it calls do.  The induction is on the number of layers.

At an end mark the cursor stays where it is, so a reader that moves past whatever it finds need not
go forward.  Such a reader is only chosen at a token that is no end mark (`follows_take`).
-/

namespace ThreadRegions

namespace Limited

variable {α : Type} {c : Cursor}

/-! ### Types -/

/-- The token is read whether it names a type or not. -/
theorem follows_builtinType (c : Cursor) : Follows builtinType (Grammar.builtinType c) := by
  intro p hp
  obtain ⟨_ | ⟨t, ts⟩, closing⟩ := c
  -- at the end mark the tape does not move, and no type is named
  · obtain ⟨p', hanswer, hafter⟩ := follows_advance_nil p hp
    exact ⟨p', answer_bind_of_ok hanswer, hafter⟩
  · obtain ⟨p', hanswer, hafter⟩ := follows_advance_cons .one_of_cons p hp
    unfold Grammar.builtinType
    dsimp only
    refine ⟨p', (answer_bind_of_ok hanswer).trans ?_, ?_⟩
    · cases Ty.ofKind? t.kind with
      | none => rfl
      | some ty => rfl
    · cases Ty.ofKind? t.kind with
      | none => exact hafter
      | some ty => exact hafter

theorem follows_namedType (c : Cursor) : Follows namedType (Grammar.namedType c) :=
  (follows_expect .identifier c).andThen fun _ _ _ => follows_fail _

/-- `as val`, `as ref`, or nothing. -/
theorem follows_qualifier (c : Cursor) : Follows qualifier (Grammar.qualifier c) := by
  refine (follows_eat (.word .as_) c).andThen fun found rest _ => ?_
  refine follows_ite (fun _ => (sees_kind rest).andThen ?_) fun _ => follows_pure _
  -- the grammar matches on the kind, the tape compares it with one word after the other
  by_cases hval : rest.kind = .word .val
  · rw [if_pos hval, hval]
    exact (follows_read rest).map _
  by_cases href : rest.kind = .word .ref
  · rw [if_neg hval, if_pos href, href]
    exact (follows_read rest).map _
  rw [if_neg hval, if_neg href]
  split
  · contradiction
  · contradiction
  · exact follows_refuseBut _ rest

/-- `shared`, `private`, or nothing. -/
theorem follows_modifier (c : Cursor) : Follows modifier (Grammar.modifier c) := by
  refine (sees_kind c).andThen ?_
  unfold Grammar.modifier
  by_cases hshared : c.kind = .word .shared
  · rw [if_pos hshared, hshared]
    exact (follows_read c).map _
  by_cases hprivate : c.kind = .word .private_
  · rw [if_neg hshared, if_pos hprivate, hprivate]
    exact (follows_read c).map _
  rw [if_neg hshared, if_neg hprivate]
  split
  · contradiction
  · contradiction
  · exact follows_pure _

theorem follows_arrayType (element : Ty) (c : Cursor) :
    Follows (arrayType element) (Grammar.arrayType element c) :=
  (follows_expect _ c).andThen fun _ rest _ => (follows_expect _ rest).map _

/-! ### Expressions and statements that call no others -/

/-- A token that is neither a literal nor a name is left unread. -/
theorem follows_primary (c : Cursor) : Follows primary (Grammar.primary c) := by
  refine (sees_current c).andThen ?_
  obtain ⟨_ | ⟨t, ts⟩, closing⟩ := c
  -- the end mark is neither
  · exact follows_fail _
  · unfold Grammar.primary
    dsimp only [Cursor.current, List.headD_cons]
    cases Grammar.primaryOf t with
    | error cause => exact follows_fail _
    | ok e => exact (follows_advance_cons .one_of_cons).map fun _ => e

theorem follows_sync (left : Expr) (c : Cursor) : Follows (sync left) (Grammar.sync left c) :=
  (follows_expect _ c).map _

theorem follows_member (left : Expr) (c : Cursor) :
    Follows (member left) (Grammar.member left c) :=
  (follows_expect _ c).andThen fun _ rest _ => (follows_expectBut _ _ rest).map _

/-- Here the tape looks at the token and not only at its kind, as the grammar does. -/
theorem follows_namespaceName (c : Cursor) :
    Follows namespaceName (Grammar.namespaceName c) := by
  refine (follows_eat _ c).andThen fun found rest _ => ?_
  refine follows_ite (fun _ => (sees_current rest).andThen ?_) fun _ => follows_pure _
  exact follows_ite (fun _ => (follows_read rest).map _) fun _ => follows_refuseBut _ rest

theorem follows_importStmt (c : Cursor) : Follows importStmt (Grammar.importStmt c) := by
  refine (follows_expect _ c).andThen fun first rest _ => ?_
  refine (follows_expectBut _ _ rest).andThen fun module rest _ => ?_
  refine (follows_namespaceName rest).andThen fun space rest _ => ?_
  refine (follows_expect _ rest).andThen fun _ rest _ => ?_
  exact (sees_spanFrom _ rest).andThen (follows_pure _)

theorem follows_wordStmt (word : Keyword) (make : Span → Stmt) (c : Cursor) :
    Follows (wordStmt word make) (Grammar.wordStmt word make c) := by
  refine (follows_expect _ c).andThen fun first rest _ => ?_
  refine (follows_expect _ rest).andThen fun _ rest _ => ?_
  exact (sees_spanFrom _ rest).andThen (follows_pure _)

/-! ### One layer of calls

The readers of a layer follow the grammar if those that they call do.  A call is made with fewer
tokens left, or with as many tokens left by a reader further up in the order expressions and types,
lists of them and statements, lists of statements. -/

/-- The readers follow the grammar as long as calls nested less than `n` deep are enough for the
tokens that are left. -/
structure Readers.Follow (r : Readers) (n : Nat) : Prop where
  type : ∀ bp c, 3 * c.remaining < n → Follows (r.type bp) (Grammar.type .language bp c)
  typeSuffixes : ∀ bp left c, 3 * c.remaining < n →
    Follows (r.typeSuffixes bp left) (Grammar.typeSuffixes .language bp left c)
  parameterTypes : ∀ c, 3 * c.remaining + 1 < n →
    Follows r.parameterTypes (Grammar.parameterTypes .language c)
  parameterList : ∀ c, 3 * c.remaining < n →
    Follows r.parameterList (Grammar.parameterList .language c)
  expr : ∀ bp c, 3 * c.remaining < n → Follows (r.expr bp) (Grammar.expr .language bp c)
  operators : ∀ bp left c, 3 * c.remaining < n →
    Follows (r.operators bp left) (Grammar.operators .language bp left c)
  exprList : ∀ close c, 3 * c.remaining + 1 < n →
    Follows (r.exprList close) (Grammar.exprList .language close c)
  condStmt : ∀ c, 3 * c.remaining < n → Follows r.condStmt (Grammar.condStmt .language c)
  stmt : ∀ c, 3 * c.remaining + 1 < n → Follows r.stmt (Grammar.stmt .language c)
  stmts : ∀ c, 3 * c.remaining + 2 < n → Follows r.stmts (Grammar.stmts .language c)
  statements : ∀ c, 3 * c.remaining + 2 < n →
    Follows r.statements (Grammar.statements .language c)

section Layer

variable {r : Readers} {n : Nat} (h : r.Follow n)

include h

/-- The first parenthesis has been read, so that the types inside have fewer tokens left. -/
theorem follows_functionType (hn : 3 * c.remaining ≤ n) :
    Follows (functionType r) (Grammar.functionType .language c) := by
  rw [Grammar.functionType]
  refine (follows_expect _ c).readThen rfl fun _ rest _ _ => ?_
  refine (follows_expect _ rest).andThen fun _ rest _ => ?_
  refine (h.parameterTypes rest (by omega)).andThen fun params rest _ => ?_
  refine (follows_expect _ rest).andThen fun _ rest _ => ?_
  refine (follows_eat _ rest).andThen fun found rest _ => ?_
  refine follows_ite (fun _ => Follows.any ?_) fun _ => follows_pure _
  exact (h.type .default rest (by omega)).map _

theorem follows_startType (hn : 3 * c.remaining ≤ n) :
    Follows (startType r) (Grammar.startType .language c) := by
  rw [Grammar.startType]
  refine (sees_kind c).andThen ?_
  cases Tables.language.typeForm? c.kind with
  | none => exact follows_refuseBut _ c
  | some form =>
    cases form with
    | builtin => exact follows_builtinType c
    | named => exact follows_namedType c
    | function => exact follows_functionType h hn

/-- The brackets behind a type may be as many as there are tokens, so they are left to the next
layer. -/
theorem follows_type (bp : BindingPower) (hn : 3 * c.remaining ≤ n) :
    Follows (type r bp) (Grammar.type .language bp c) := by
  rw [Grammar.type]
  refine (follows_startType h hn).andThen fun left rest _ => ?_
  exact h.typeSuffixes bp left rest (by omega)

theorem follows_typeSuffixes (bp : BindingPower) (left : Ty) (hn : 3 * c.remaining ≤ n) :
    Follows (typeSuffixes r bp left) (Grammar.typeSuffixes .language bp left c) := by
  rw [Grammar.typeSuffixes]
  refine (sees_kind c).andThen (follows_ite (fun _ => follows_pure _) fun _ => Follows.any ?_)
  refine (follows_arrayType left c).andThen fun left rest _ => ?_
  exact h.typeSuffixes bp left rest (by omega)

/-- The first type is read with all tokens left, by a reader further up in the order. -/
theorem follows_parameterTypes (hn : 3 * c.remaining + 1 ≤ n) :
    Follows (parameterTypes r) (Grammar.parameterTypes .language c) := by
  rw [Grammar.parameterTypes]
  refine (sees_kind c).andThen (follows_ite (fun _ => follows_pure _) fun _ => Follows.any ?_)
  refine (h.type .default c (by omega)).andThen fun param rest _ => ?_
  refine (follows_qualifier rest).andThen fun q rest _ => ?_
  refine (follows_eat _ rest).andThen fun more rest _ => ?_
  refine follows_ite (fun _ => ?_) fun _ => follows_pure _
  exact (h.parameterTypes rest (by omega)).map _

theorem follows_typeMark (hn : 3 * c.remaining < n) :
    Follows (typeMark r) (Grammar.typeMark .language c) := by
  refine (follows_eat _ c).andThen fun found rest _ => ?_
  refine follows_ite (fun _ => Follows.any ?_) fun _ => follows_pure _
  exact (h.type .default rest (by omega)).map some

/-- The name has been read, so that the type has fewer tokens left. -/
theorem follows_parameter (hn : 3 * c.remaining ≤ n) :
    Follows (parameter r) (Grammar.parameter .language c) := by
  refine (follows_expectBut _ _ c).readThen rfl fun name rest _ _ => ?_
  refine (follows_typeMark h (by omega)).andThen fun type rest _ => ?_
  refine (follows_qualifier rest).andThen fun q rest _ => ?_
  exact (sees_spanFrom _ rest).andThen (follows_pure _)

theorem follows_parameterList (hn : 3 * c.remaining ≤ n) :
    Follows (parameterList r) (Grammar.parameterList .language c) := by
  rw [Grammar.parameterList]
  refine (sees_kind c).andThen (follows_ite (fun _ => follows_pure _) fun _ => Follows.any ?_)
  refine (follows_parameter h hn).andThen fun param rest _ => ?_
  refine (follows_eat _ rest).andThen fun more rest _ => ?_
  refine follows_ite (fun _ => ?_) fun _ => follows_pure _
  exact (h.parameterList rest (by omega)).map _

theorem follows_parameters (hn : 3 * c.remaining ≤ n) :
    Follows (parameters r) (Grammar.parameters .language c) := by
  refine (follows_expect _ c).readThen rfl fun _ rest _ _ => ?_
  refine (h.parameterList rest (by omega)).andThen fun params rest _ => ?_
  exact (follows_expect _ rest).map _

/-- The reader moves past whatever it finds, so it must not be at the end mark. -/
theorem follows_unary (hkind : c.kind ≠ .eof) (hn : 3 * c.remaining ≤ n) :
    Follows (unary r) (Grammar.unary .language c) := by
  rw [Grammar.unary]
  refine (follows_take hkind).andThen fun operator rest _ => ?_
  exact (h.expr .unary rest (by omega)).map _

/-- An expression in parentheses is read by the next layer, with fewer tokens left. -/
theorem follows_group (hn : 3 * c.remaining ≤ n) :
    Follows (group r) (Grammar.group .language c) := by
  rw [Grammar.group]
  refine (follows_expect _ c).readThen rfl fun _ rest _ _ => ?_
  refine (h.expr .default rest (by omega)).andThen fun inner rest _ => ?_
  exact (follows_expect _ rest).map _

theorem follows_arrayLiteral (hn : 3 * c.remaining ≤ n) :
    Follows (arrayLiteral r) (Grammar.arrayLiteral .language c) := by
  rw [Grammar.arrayLiteral]
  refine (follows_expect _ c).readThen rfl fun first rest _ _ => ?_
  refine (h.exprList _ rest (by omega)).andThen fun elements rest _ => ?_
  exact (sees_spanFrom _ rest).andThen (follows_pure _)

/-- The span of the array is seen before the exclamation mark is read. -/
theorem follows_arraySync (hn : 3 * c.remaining ≤ n) :
    Follows (arraySync r) (Grammar.arraySync .language c) := by
  rw [Grammar.arraySync]
  refine (follows_expect _ c).readThen rfl fun first rest _ _ => ?_
  refine (h.exprList _ rest (by omega)).andThen fun handles rest _ => ?_
  exact (sees_spanFrom _ rest).andThen ((follows_expectBut _ _ rest).map _)

theorem follows_spawn (hn : 3 * c.remaining ≤ n) :
    Follows (spawn r) (Grammar.spawn .language c) := by
  rw [Grammar.spawn]
  refine (follows_expect _ c).readThen rfl fun first rest _ _ => ?_
  exact (h.expr .unary rest (by omega)).map _

theorem follows_block (hn : 3 * c.remaining ≤ n) :
    Follows (block r) (Grammar.block .language c) := by
  rw [Grammar.block]
  refine (follows_expectBut _ _ c).readThen rfl fun _ rest _ _ => ?_
  refine (h.stmts rest (by omega)).andThen fun body rest _ => ?_
  exact (follows_expect _ rest).map _

theorem follows_lambdaBody (hn : 3 * c.remaining ≤ n) :
    Follows (lambdaBody r) (Grammar.lambdaBody .language c) := by
  rw [Grammar.lambdaBody]
  refine (sees_kind c).andThen ?_
  -- the kinds are compared in the order in which the tape compares them
  by_cases harrow : c.kind = .punct .fatArrow
  · have hkind : c.kind ≠ .eof := by rw [harrow]; decide
    rw [if_pos harrow, harrow]
    refine (follows_take hkind).andThen fun _ rest _ => ?_
    exact (h.expr .comma rest (by omega)).map _
  by_cases hcurly : c.kind = .punct .openCurly
  · rw [if_neg harrow, if_pos hcurly, hcurly]
    exact (follows_block h hn).map _
  rw [if_neg harrow, if_neg hcurly]
  split
  · contradiction
  · contradiction
  · exact follows_refuseBut _ c

/-- A lambda without its body is made of marks, each of which may be missing. -/
theorem follows_lambda (hn : 3 * c.remaining ≤ n) :
    Follows (lambda r) (Grammar.lambda .language c) := by
  rw [Grammar.lambda]
  refine (follows_expect _ c).readThen rfl fun first rest _ _ => ?_
  refine (follows_parameters h (by omega)).andThen fun params rest _ => ?_
  refine (follows_modifier rest).andThen fun modifier rest _ => ?_
  refine (follows_typeMark h (by omega)).andThen fun ret rest _ => ?_
  refine (follows_lambdaBody h (by omega)).andThen fun body rest _ => ?_
  exact (sees_spanFrom _ rest).andThen (follows_pure _)

/-- As with a prefix, the reader moves past whatever it finds. -/
theorem follows_binary (power : BindingPower) (left : Expr) (hkind : c.kind ≠ .eof)
    (hn : 3 * c.remaining ≤ n) :
    Follows (binary r power left) (Grammar.binary .language power left c) := by
  rw [Grammar.binary]
  refine (follows_take hkind).andThen fun operator rest _ => ?_
  cases BinaryOp.ofKind? operator.kind with
  | none => exact follows_fail _
  | some op => exact (h.expr power rest (by omega)).map _

theorem follows_range (power : BindingPower) (left : Expr) (hn : 3 * c.remaining ≤ n) :
    Follows (range r power left) (Grammar.range .language power left c) := by
  rw [Grammar.range]
  refine (follows_expect _ c).readThen rfl fun _ rest _ _ => ?_
  exact (h.expr power rest (by omega)).map _

/-- Whether the left side can be assigned to is asked when the value has been read. -/
theorem follows_assignment (left : Expr) (hkind : c.kind ≠ .eof) (hn : 3 * c.remaining ≤ n) :
    Follows (assignment r left) (Grammar.assignment .language left c) := by
  rw [Grammar.assignment]
  refine (follows_take hkind).andThen fun operator rest _ => ?_
  refine (h.expr .comma rest (by omega)).andThen fun value rest _ => ?_
  cases left.assignTo? (.at ⟨left.start, value.span.stop⟩) value with
  | none => exact follows_fail _
  | some e => exact follows_pure _

theorem follows_call (left : Expr) (hn : 3 * c.remaining ≤ n) :
    Follows (call r left) (Grammar.call .language left c) := by
  rw [Grammar.call]
  refine (follows_expect _ c).readThen rfl fun _ rest _ _ => ?_
  refine (h.exprList _ rest (by omega)).andThen fun args rest _ => ?_
  exact (sees_spanFrom _ rest).andThen (follows_pure _)

theorem follows_index (left : Expr) (hn : 3 * c.remaining ≤ n) :
    Follows (index r left) (Grammar.index .language left c) := by
  rw [Grammar.index]
  refine (follows_expect _ c).readThen rfl fun _ rest _ _ => ?_
  refine (h.expr .default rest (by omega)).andThen fun at_ rest _ => ?_
  refine (follows_expect _ rest).andThen fun _ rest _ => ?_
  exact (sees_spanFrom _ rest).andThen (follows_pure _)

/-- No form begins with an end mark, so the readers that take their first token unseen are safe. -/
theorem follows_startExpr (hn : 3 * c.remaining ≤ n) :
    Follows (startExpr r) (Grammar.startExpr .language c) := by
  rw [Grammar.startExpr]
  refine (sees_kind c).andThen ?_
  cases hform : Tables.language.startForm? c.kind with
  | none => exact follows_refuse c
  | some form =>
    have hkind : c.kind ≠ .eof := by
      intro hk
      rw [hk] at hform
      cases hform
    cases form with
    | primary => exact follows_primary c
    | unary => exact follows_unary h hkind hn
    | group => exact follows_group h hn
    | arrayLiteral => exact follows_arrayLiteral h hn
    | arraySync => exact follows_arraySync h hn
    | spawn => exact follows_spawn h hn
    | lambda => exact follows_lambda h hn

/-- The token that chose the form is no end mark. -/
theorem follows_infixExpr (form : InfixForm) (power : BindingPower) (left : Expr)
    (hkind : c.kind ≠ .eof) (hn : 3 * c.remaining ≤ n) :
    Follows (infixExpr r form power left) (Grammar.infixExpr .language form power left c) := by
  cases form with
  | binary => rw [Grammar.infixExpr]; exact follows_binary h power left hkind hn
  | range => rw [Grammar.infixExpr]; exact follows_range h power left hn
  | assignment => rw [Grammar.infixExpr]; exact follows_assignment h left hkind hn
  | call => rw [Grammar.infixExpr]; exact follows_call h left hn
  | index => rw [Grammar.infixExpr]; exact follows_index h left hn
  | count => rw [Grammar.infixExpr]; exact (follows_take hkind).map _
  | sync => rw [Grammar.infixExpr]; exact follows_sync left c
  | member => rw [Grammar.infixExpr]; exact follows_member left c

/-- The beginning of an expression, and the operators behind it by the next layer. -/
theorem follows_expr (bp : BindingPower) (hn : 3 * c.remaining ≤ n) :
    Follows (expr r bp) (Grammar.expr .language bp c) := by
  rw [Grammar.expr]
  refine (follows_startExpr h hn).andThen fun left rest _ => ?_
  exact h.operators bp left rest (by omega)

/-- One operator in this layer, and all that follow in the next one. -/
theorem follows_operators (bp : BindingPower) (left : Expr) (hn : 3 * c.remaining ≤ n) :
    Follows (operators r bp left) (Grammar.operators .language bp left c) := by
  rw [Grammar.operators]
  refine (sees_kind c).andThen ?_
  cases hform : Tables.language.infixForm? c.kind with
  | none => exact follows_pure _
  | some found =>
    -- the end mark is in no table
    have hkind : c.kind ≠ .eof := by
      intro hk
      rw [hk] at hform
      cases hform
    refine follows_ite (fun _ => follows_pure _) fun _ => Follows.any ?_
    refine (follows_infixExpr h found.2 found.1 left hkind hn).andThen fun left rest _ => ?_
    exact h.operators bp left rest (by omega)

/-- The first expression is read with all tokens left, so the list takes one call more than the
expression. -/
theorem follows_exprList (close : TokenKind) (hn : 3 * c.remaining + 1 ≤ n) :
    Follows (exprList r close) (Grammar.exprList .language close c) := by
  rw [Grammar.exprList]
  refine (sees_kind c).andThen (follows_ite (fun _ => Follows.any ?_) fun _ => Follows.any ?_)
  · exact (follows_expect close c).map _
  · refine (h.expr .comma c (by omega)).andThen fun item rest _ => ?_
    refine (follows_eat _ rest).andThen fun more rest _ => ?_
    refine follows_ite (fun _ => ?_) fun _ => Follows.any ?_
    · exact (h.exprList close rest (by omega)).map _
    · exact (follows_expect close rest).map _

/-- The beginning is seen before the block is read. -/
theorem follows_blockStmt (modifier : Modifier) (hn : 3 * c.remaining ≤ n) :
    Follows (blockStmt r modifier) (Grammar.blockStmt .language modifier c) := by
  rw [Grammar.blockStmt]
  refine (sees_position c).andThen ?_
  refine (follows_block h hn).andThen fun body rest _ => ?_
  exact (sees_spanFrom _ rest).andThen (follows_pure _)

/-- The expression is read with all tokens left, by the next layer. -/
theorem follows_exprStmt (hn : 3 * c.remaining < n) :
    Follows (exprStmt r) (Grammar.exprStmt .language c) := by
  rw [Grammar.exprStmt]
  refine (h.expr .default c hn).andThen fun value rest _ => ?_
  exact (follows_expect _ rest).map _

/-- The equals sign is there, so that there is something to move past. -/
theorem follows_initialValue (hn : 3 * c.remaining ≤ n) :
    Follows (initialValue r) (Grammar.initialValue .language c) := by
  rw [Grammar.initialValue]
  refine (sees_kind c).andThen (follows_ite (fun hk => Follows.any ?_) fun _ => follows_pure _)
  have hkind : c.kind ≠ .eof := by rw [hk]; decide
  refine (follows_take hkind).andThen fun _ rest _ => ?_
  exact (h.expr .default rest (by omega)).map _

theorem follows_optionalExpr (close : TokenKind) (hn : 3 * c.remaining < n) :
    Follows (optionalExpr r close) (Grammar.optionalExpr .language close c) := by
  rw [Grammar.optionalExpr]
  refine (sees_kind c).andThen (follows_ite (fun _ => follows_pure _) fun _ => Follows.any ?_)
  exact (h.expr .default c hn).map _

theorem follows_declareStmt (hn : 3 * c.remaining ≤ n) :
    Follows (declareStmt r) (Grammar.declareStmt .language c) := by
  rw [Grammar.declareStmt]
  refine (follows_expect _ c).readThen rfl fun first rest _ _ => ?_
  refine (follows_expectBut _ _ rest).andThen fun name rest _ => ?_
  refine (follows_typeMark h (by omega)).andThen fun type rest _ => ?_
  refine (follows_qualifier rest).andThen fun q rest _ => ?_
  refine (follows_initialValue h (by omega)).andThen fun init rest _ => ?_
  refine (follows_expect _ rest).andThen fun _ rest _ => ?_
  exact (sees_spanFrom _ rest).andThen (follows_pure _)

theorem follows_isolatedStmt (hn : 3 * c.remaining ≤ n) :
    Follows (isolatedStmt r) (Grammar.isolatedStmt .language c) := by
  rw [Grammar.isolatedStmt]
  refine (follows_expect _ c).readThen rfl fun _ rest _ _ => ?_
  exact follows_blockStmt h .isolated (by omega)

theorem follows_whileStmt (hn : 3 * c.remaining ≤ n) :
    Follows (whileStmt r) (Grammar.whileStmt .language c) := by
  rw [Grammar.whileStmt]
  refine (follows_expect _ c).readThen rfl fun first rest _ _ => ?_
  refine (h.expr .default rest (by omega)).andThen fun condition rest _ => ?_
  refine (follows_blockStmt h .default (by omega)).andThen fun body rest _ => ?_
  exact (sees_spanFrom _ rest).andThen (follows_pure _)

theorem follows_forEachTail (start : Position) (hn : 3 * c.remaining ≤ n) :
    Follows (forEachTail r start) (Grammar.forEachTail .language start c) := by
  rw [Grammar.forEachTail]
  refine (follows_expect _ c).readThen rfl fun name rest _ _ => ?_
  refine (follows_expect _ rest).andThen fun _ rest _ => ?_
  refine (h.expr .default rest (by omega)).andThen fun iterable rest _ => ?_
  refine (follows_blockStmt h .default (by omega)).andThen fun body rest _ => ?_
  exact (sees_spanFrom _ rest).andThen (follows_pure _)

/-- The first clause of a loop with a counter: nothing, a declaration or an expression. -/
theorem follows_forInit (hn : 3 * c.remaining < n) :
    Follows (forInit r) (Grammar.forInit .language c) := by
  rw [Grammar.forInit]
  refine (sees_kind c).andThen ?_
  -- as for the body of a lambda, in the order in which the tape compares
  by_cases hsemicolon : c.kind = .punct .semicolon
  · rw [if_pos hsemicolon, hsemicolon]
    exact (follows_read c).map _
  by_cases hvar : c.kind = .word .var
  · rw [if_neg hsemicolon, if_pos hvar, hvar]
    exact ((follows_declareStmt h (by omega)).map _).any
  rw [if_neg hsemicolon, if_neg hvar]
  split
  · contradiction
  · contradiction
  · exact ((follows_exprStmt h hn).map _).any

/-- The three clauses.  Only the first one is read with all tokens left. -/
theorem follows_forLoopTail (start : Position) (hn : 3 * c.remaining < n) :
    Follows (forLoopTail r start) (Grammar.forLoopTail .language start c) := by
  rw [Grammar.forLoopTail]
  refine (follows_forInit h hn).andThen fun init rest _ => ?_
  refine (follows_optionalExpr h _ (by omega)).andThen fun condition rest _ => ?_
  refine (follows_expect _ rest).andThen fun _ rest _ => ?_
  refine (follows_optionalExpr h _ (by omega)).andThen fun step rest _ => ?_
  refine (follows_blockStmt h .default (by omega)).andThen fun body rest _ => ?_
  exact (sees_spanFrom _ rest).andThen (follows_pure _)

/-- The tape looks two tokens ahead, and may look past the last one. -/
theorem follows_forStmt (hn : 3 * c.remaining ≤ n) :
    Follows (forStmt r) (Grammar.forStmt .language c) := by
  rw [Grammar.forStmt]
  refine (follows_expect _ c).readThen rfl fun first rest _ _ => ?_
  refine (sees_kind rest).andThen ((sees_kindAhead 1 rest).andThen ?_)
  refine follows_ite (fun _ => Follows.any ?_) fun _ => Follows.any ?_
  · exact follows_forEachTail h first.span.start (by omega)
  · exact follows_forLoopTail h first.span.start (by omega)

theorem follows_sharedStmt (hn : 3 * c.remaining ≤ n) :
    Follows (sharedStmt r) (Grammar.sharedStmt .language c) := by
  rw [Grammar.sharedStmt]
  refine (follows_expect _ c).readThen rfl fun first rest _ _ => (sees_kind rest).andThen ?_
  by_cases hcurly : rest.kind = .punct .openCurly
  · rw [if_pos hcurly, hcurly]
    exact follows_blockStmt h .shared (by omega)
  by_cases hwhile : rest.kind = .word .while_
  · rw [if_neg hcurly, if_pos hwhile, hwhile]
    refine (follows_whileStmt h (by omega)).andThen fun loop rest _ => ?_
    exact (sees_spanFrom _ rest).andThen (follows_pure _)
  by_cases hfor : rest.kind = .word .for_
  · rw [if_neg hcurly, if_neg hwhile, if_pos hfor, hfor]
    refine (follows_forStmt h (by omega)).andThen fun loop rest _ => ?_
    exact (sees_spanFrom _ rest).andThen (follows_pure _)
  rw [if_neg hcurly, if_neg hwhile, if_neg hfor]
  split
  · contradiction
  · contradiction
  · contradiction
  · exact follows_refuseBut _ rest

/-- Another choice is read by the next layer, since choices may go on without an end. -/
theorem follows_elseBranch (hn : 3 * c.remaining ≤ n) :
    Follows (elseBranch r) (Grammar.elseBranch .language c) := by
  rw [Grammar.elseBranch]
  refine (sees_kind c).andThen (follows_ite (fun hk => Follows.any ?_) fun _ => follows_pure _)
  have hkind : c.kind ≠ .eof := by rw [hk]; decide
  refine (follows_take hkind).andThen fun _ rest _ => (sees_kind rest).andThen ?_
  refine follows_ite (fun _ => ?_) fun _ => ?_
  · exact (h.condStmt rest (by omega)).map _
  · exact (follows_blockStmt h .default (by omega)).map _

theorem follows_condStmt (hn : 3 * c.remaining ≤ n) :
    Follows (condStmt r) (Grammar.condStmt .language c) := by
  rw [Grammar.condStmt]
  refine (follows_expect _ c).readThen rfl fun first rest _ _ => ?_
  refine (h.expr .default rest (by omega)).andThen fun condition rest _ => ?_
  refine (follows_blockStmt h .default (by omega)).andThen fun yes rest _ => ?_
  refine (follows_elseBranch h (by omega)).andThen fun no rest _ => ?_
  exact (sees_spanFrom _ rest).andThen (follows_pure _)

/-- The head of a function is made of marks as that of a lambda is. -/
theorem follows_functionStmt (hn : 3 * c.remaining ≤ n) :
    Follows (functionStmt r) (Grammar.functionStmt .language c) := by
  rw [Grammar.functionStmt]
  refine (follows_expect _ c).readThen rfl fun first rest _ _ => ?_
  refine (follows_expectBut _ _ rest).andThen fun name rest _ => ?_
  refine (follows_parameters h (by omega)).andThen fun params rest _ => ?_
  refine (follows_modifier rest).andThen fun modifier rest _ => ?_
  refine (follows_typeMark h (by omega)).andThen fun ret rest _ => ?_
  refine (follows_block h (by omega)).andThen fun body rest _ => ?_
  exact (sees_spanFrom _ rest).andThen (follows_pure _)

theorem follows_returnStmt (hn : 3 * c.remaining ≤ n) :
    Follows (returnStmt r) (Grammar.returnStmt .language c) := by
  rw [Grammar.returnStmt]
  refine (follows_expect _ c).readThen rfl fun first rest _ _ => ?_
  refine (follows_optionalExpr h _ (by omega)).andThen fun value rest _ => ?_
  refine (follows_expect _ rest).andThen fun _ rest _ => ?_
  exact (sees_spanFrom _ rest).andThen (follows_pure _)

/-- A statement takes one call more than an expression, since it may be one. -/
theorem follows_stmt (hn : 3 * c.remaining + 1 ≤ n) :
    Follows (stmt r) (Grammar.stmt .language c) := by
  have hless : 3 * c.remaining ≤ n := by omega
  rw [Grammar.stmt]
  refine (sees_kind c).andThen ((sees_kindAhead 1 c).andThen ?_)
  refine follows_ite (fun _ => follows_exprStmt h hn) fun _ => ?_
  cases Tables.language.stmtForm? c.kind with
  | none => exact follows_exprStmt h hn
  | some form =>
    cases form with
    | declare => exact follows_declareStmt h hless
    | importModule => exact follows_importStmt c
    -- a choice is a layer of its own
    | cond => exact h.condStmt c hn
    | whileLoop => exact follows_whileStmt h hless
    | forLoop => exact follows_forStmt h hless
    | block => exact follows_blockStmt h .default hless
    | shared => exact follows_sharedStmt h hless
    | isolated => exact follows_isolatedStmt h hless
    | function => exact follows_functionStmt h hless
    | ret => exact follows_returnStmt h hless
    | leave => exact follows_wordStmt .break_ .leave c
    | next => exact follows_wordStmt .continue_ .next c

theorem follows_stmts (hn : 3 * c.remaining + 2 ≤ n) :
    Follows (stmts r) (Grammar.stmts .language c) := by
  rw [Grammar.stmts]
  refine (sees_kind c).andThen (follows_ite (fun _ => follows_pure _) fun _ => Follows.any ?_)
  refine (h.stmt c hn).andThen fun first rest _ => ?_
  exact (h.stmts rest (by omega)).map _

/-- A closing brace is no end of the statements of a file. -/
theorem follows_statements (hn : 3 * c.remaining + 2 ≤ n) :
    Follows (statements r) (Grammar.statements .language c) := by
  rw [Grammar.statements]
  refine (sees_kind c).andThen (follows_ite (fun _ => follows_pure _) fun _ => Follows.any ?_)
  refine (h.stmt c hn).andThen fun first rest _ => ?_
  exact (h.statements rest (by omega)).map _

/-- With one more layer, calls may be nested one deeper. -/
theorem Readers.Follow.next : r.next.Follow (n + 1) where
  type bp _ hc := follows_type h bp (Nat.le_of_lt_succ hc)
  typeSuffixes bp left _ hc := follows_typeSuffixes h bp left (Nat.le_of_lt_succ hc)
  parameterTypes _ hc := follows_parameterTypes h (Nat.le_of_lt_succ hc)
  parameterList _ hc := follows_parameterList h (Nat.le_of_lt_succ hc)
  expr bp _ hc := follows_expr h bp (Nat.le_of_lt_succ hc)
  operators bp left _ hc := follows_operators h bp left (Nat.le_of_lt_succ hc)
  exprList close _ hc := follows_exprList h close (Nat.le_of_lt_succ hc)
  condStmt _ hc := follows_condStmt h (Nat.le_of_lt_succ hc)
  stmt _ hc := follows_stmt h (Nat.le_of_lt_succ hc)
  stmts _ hc := follows_stmts h (Nat.le_of_lt_succ hc)
  statements _ hc := follows_statements h (Nat.le_of_lt_succ hc)

end Layer

/-- As many layers as calls are nested follow the grammar. -/
theorem Readers.follow_upTo (depth : Nat) : (Readers.upTo depth).Follow depth := by
  induction depth with
  -- nothing is nested less than zero deep
  | zero => constructor <;> intros <;> omega
  | succ depth ih => exact ih.next

/-! ### A whole run -/

namespace Tape

/-- The tape begins where the cursor does, whether the tokens end in an end mark or not. -/
theorem standsAt_ofTokens (tokens : List Token) (file : String) :
    (ofTokens tokens file).StandsAt (.ofTokens tokens file) := by
  show closed tokens file = _
  unfold closed Cursor.ofTokens
  cases hlast : tokens.getLast? with
  | none => rfl
  | some last =>
    dsimp only
    split
    -- the last token is the end mark, which the cursor keeps apart
    · next hkind =>
      have htoken : last = ⟨.eof, last.value, last.span⟩ := by rw [← hkind]
      obtain ⟨front, rfl⟩ := List.getLast?_eq_some_iff.1 hlast
      show front ++ [last] = (front ++ [last]).dropLast ++ [⟨.eof, last.value, last.span⟩]
      rw [List.dropLast_concat, ← htoken]
    · rfl

/-- A new tape stands at a token, since there is at least the end mark. -/
theorem sound_ofTokens (tokens : List Token) (file : String) : (ofTokens tokens file).Sound := by
  have hlen := (standsAt_ofTokens tokens file).length_eq
  refine ⟨?_, List.pairwise_singleton _ _⟩
  intro i hi
  obtain rfl := List.mem_singleton.1 hi
  omega

theorem remaining_ofTokens_le (tokens : List Token) (file : String) :
    (Cursor.ofTokens tokens file).remaining ≤ tokens.length := by
  unfold Cursor.ofTokens
  split
  · exact Nat.zero_le _
  · split
    · show tokens.dropLast.length ≤ tokens.length
      rw [List.length_dropLast]
      exact Nat.sub_le _ _
    · exact Nat.le_refl _

/-- Each place in a list of tokens is a place where a reader of the grammar can start. -/
theorem exists_standsAt {tokens : List Token} {file : String} {p : Tape}
    (h : p.tokens = closed tokens file) (hin : p.index < p.tokens.length) :
    ∃ c, p.StandsAt c ∧ c.remaining ≤ tokens.length := by
  have hwhole : p.tokens = (Cursor.ofTokens tokens file).ahead ++
      [(Cursor.ofTokens tokens file).closing.token] := h.trans (standsAt_ofTokens tokens file)
  have hle := remaining_ofTokens_le tokens file
  generalize Cursor.ofTokens tokens file = whole at hwhole hle
  have hbefore : p.index ≤ whole.ahead.length := by
    rw [hwhole, List.length_append, List.length_singleton] at hin
    omega
  refine ⟨⟨whole.ahead.drop p.index, whole.closing⟩, ?_, ?_⟩
  · unfold StandsAt
    rw [hwhole, List.drop_append_of_le_length hbefore]
  · show (whole.ahead.drop p.index).length ≤ tokens.length
    rw [List.length_drop]
    exact Nat.le_trans (Nat.sub_le _ _) hle

end Tape

/-- The reader comes to an end as the reader of the grammar does.  It stops at one of the tokens,
not before where it began, and further on if it succeeds. -/
def GoesForward (x : Reader α) (s : Step α c 1) (p : Tape) : Prop :=
  ∃ p', answer x p = some (s.result, p') ∧ p'.StandsAt s.rest ∧ p'.tokens = p.tokens ∧
    p'.index < p.tokens.length ∧
    match s.result with
    | .ok _ => p.index < p'.index
    | .error _ => p.index ≤ p'.index

/-- Where the cursor of the grammar has fewer tokens left, the tape is further on. -/
theorem Follows.goesForward {x : Reader α} {s : Step α c 1} (h : Follows x s) {p : Tape}
    (hp : p.StandsAt c) : GoesForward x s p := by
  obtain ⟨p', hanswer, hp', htokens, -⟩ := h p hp
  have hlen : p.index + c.remaining + 1 = p.tokens.length := hp.length_eq
  have hlen' : p'.index + s.rest.remaining + 1 = p.tokens.length := htokens ▸ hp'.length_eq
  refine ⟨p', hanswer, hp', htokens, by omega, ?_⟩
  -- both cursors are as far from the end as there are tokens left
  cases s with
  | done value rest left =>
    have hless : rest.remaining + 1 ≤ c.remaining := left.remaining_le
    simp only [Step.result, Step.rest] at hlen' ⊢
    omega
  | stop error rest left =>
    have hle : rest.remaining + 0 ≤ c.remaining := left.remaining_le
    simp only [Step.result, Step.rest] at hlen' ⊢
    omega

/-- A run over a list of tokens comes to an end as the grammar says. -/
theorem exists_parse {tokens : List Token} (file : String) {depth : Nat}
    (hdepth : 3 * tokens.length + 2 < depth) :
    ∃ p, parse depth tokens file = some ((Grammar.parse tokens file).result, p) ∧
      p.tokens = Tape.closed tokens file ∧ p.StandsAt (Grammar.parse tokens file).rest ∧
      p.Sound := by
  have hle := Tape.remaining_ofTokens_le tokens file
  have hbody := (Readers.follow_upTo depth).statements (.ofTokens tokens file) (by omega)
  have hrun := hbody.map fun body => (⟨body, file⟩ : Module)
  obtain ⟨p, hanswer, hstands, htokens, hsound⟩ := hrun _ (Tape.standsAt_ofTokens tokens file)
  exact ⟨p, hanswer, htokens, hstands, hsound (Tape.sound_ofTokens tokens file)⟩

end Limited

/-- Whatever the tokens are, a run over them comes to an end, with the module or the error of the
grammar; all the while the cursor stands at one of the tokens, and it never goes back.  At each
place among the tokens the readers for statements, expressions and types come to an end as well, and
the cursor goes forward when they succeed.  Calls are nested no deeper than three for each token and
three more. -/
theorem parse_goes_forward (tokens : List Token) (file : String) (depth : Nat)
    (hdepth : 3 * tokens.length + 2 < depth) :
    (∃ p, Limited.parse depth tokens file = some ((Grammar.parse tokens file).result, p) ∧
      p.tokens = Limited.Tape.closed tokens file ∧
      p.StandsAt (Grammar.parse tokens file).rest ∧ p.Sound) ∧
    ∀ p : Limited.Tape, p.tokens = Limited.Tape.closed tokens file → p.index < p.tokens.length →
      ∃ c, p.StandsAt c ∧
        Limited.GoesForward (Limited.Readers.upTo depth).stmt (Grammar.stmt .language c) p ∧
        ∀ bp,
          Limited.GoesForward ((Limited.Readers.upTo depth).expr bp)
            (Grammar.expr .language bp c) p ∧
          Limited.GoesForward ((Limited.Readers.upTo depth).type bp)
            (Grammar.type .language bp c) p := by
  refine ⟨Limited.exists_parse file hdepth, ?_⟩
  intro p htokens hin
  obtain ⟨c, hc, hle⟩ := Limited.Tape.exists_standsAt htokens hin
  have hfollow := Limited.Readers.follow_upTo depth
  refine ⟨c, hc, (hfollow.stmt c (by omega)).goesForward hc, ?_⟩
  intro bp
  exact ⟨(hfollow.expr bp c (by omega)).goesForward hc,
    (hfollow.type bp c (by omega)).goesForward hc⟩

/-- Tokens with an end mark among them and none at the end. -/
def Sample.torn : List Token :=
  [⟨.identifier, "x", ⟨⟨0, "torn.sn"⟩, ⟨1, "torn.sn"⟩⟩⟩,
    ⟨.eof, "EOF", ⟨⟨1, "torn.sn"⟩, ⟨1, "torn.sn"⟩⟩⟩,
    ⟨.punct .semicolon, ";", ⟨⟨1, "torn.sn"⟩, ⟨2, "torn.sn"⟩⟩⟩]

/-- The place of the end mark among them. -/
def Sample.tornTape : Limited.Tape := ⟨Limited.Tape.closed Sample.torn "torn.sn", 1, []⟩

/-- A tape that begins at an end mark in the middle of the tokens. -/
theorem parse_goes_forward_torn :
    (∃ p, Limited.parse 12 Sample.torn "torn.sn" =
      some ((Grammar.parse Sample.torn "torn.sn").result, p) ∧
      p.tokens = Limited.Tape.closed Sample.torn "torn.sn" ∧
      p.StandsAt (Grammar.parse Sample.torn "torn.sn").rest ∧ p.Sound) ∧
    Sample.tornTape.tokens = Limited.Tape.closed Sample.torn "torn.sn" ∧
    Sample.tornTape.index < Sample.tornTape.tokens.length ∧
    ∃ c, Sample.tornTape.StandsAt c ∧
      Limited.GoesForward (Limited.Readers.upTo 12).stmt (Grammar.stmt .language c)
        Sample.tornTape := by
  have hforward := parse_goes_forward Sample.torn "torn.sn" 12 (by decide)
  obtain ⟨c, hc, hstmt, -⟩ := hforward.2 Sample.tornTape rfl (by decide)
  exact ⟨hforward.1, rfl, by decide, c, hc, hstmt⟩

end ThreadRegions
