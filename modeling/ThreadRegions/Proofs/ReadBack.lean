import ThreadRegions.Proofs.Written

/-!
# Reading back what has been written

An expression that is written with few parentheses is read as the same expression, and nothing is
left over.

The reader goes from left to right.  It holds an expression that is complete so far, and looks at
the next token to see whether the expression goes on.  So what is shown is that reading the tokens
of an expression, with anything behind them that does not pull the expression apart, leads to the
state in which the expression is held and the rest is ahead.

## Main Definitions

* `Cursor.Spells`: the tokens ahead are written as given
* `Step.outcome`: what a reader answers and what it leaves
* `pull`: how tightly what is ahead binds to what has been read
* `Expr.lead`, `Expr.edge`: the levels at which an expression can be read, and what may follow it
* `ReadsBack`: reading the tokens of an expression

## Main Results

* `ReadsBack.extend`: an expression that begins with another one
* `readsBack`: every written expression
* `expr_spelling`: reading what has been written
-/

namespace ThreadRegions

/-! ### Readers that succeed -/

/-- The tokens ahead are written as given. -/
def Cursor.Spells (c : Cursor) (l : List Spelling) : Prop := c.ahead.map Token.spelling = l

namespace Step

variable {α β : Type} {start rest : Cursor} {least more : Nat} {l l' : List Spelling}
  {Q : α → Prop} {Q' : β → Prop}

/-- What a reader answers, and what it leaves. -/
def outcome (s : Step α start least) : Except Diagnostic α × Cursor := (s.result, s.rest)

@[simp] theorem outcome_any (s : Step α start least) : s.any.outcome = s.outcome := by
  cases s <;> rfl

/-- After a reader that succeeds, all is up to the next one. -/
theorem outcome_andThen {s : Step α start least} {value : α}
    {next : (value : α) → (rest : Cursor) → rest.remaining + least ≤ start.remaining →
      Step β rest more} {o : Except Diagnostic β × Cursor} (h : s.outcome = (.ok value, rest))
    (hn : ∀ hle, (next value rest hle).outcome = o) : (s.andThen next).outcome = o := by
  -- a reader that stops would have answered with an error
  cases s with
  | stop error left _ => cases h
  | done found left hleft =>
    obtain ⟨rfl, rfl⟩ : found = value ∧ left = rest := by simpa [outcome, result, Step.rest] using h
    rw [← hn hleft.remaining_le]
    unfold Step.andThen
    dsimp only
    split
    · next hs => rw [hs]; rfl
    · next hs => rw [hs]; rfl

/-- The reader succeeds with a value that has the property, and leaves the given tokens. -/
def Gives (Q : α → Prop) (l : List Spelling) (s : Step α start least) : Prop :=
  ∃ value rest, Q value ∧ rest.Spells l ∧ s.outcome = (.ok value, rest)

theorem gives_pure {value : α} (h : Q value) (hc : start.Spells l) :
    (pure value : Step α start 0).Gives Q l :=
  ⟨value, start, h, hc, rfl⟩

/-- How many tokens a reader is known to take says nothing about what it gives. -/
theorem Gives.any {s : Step α start least} (h : s.Gives Q l) : s.any.Gives Q l := by
  unfold Gives
  rw [outcome_any]
  exact h

theorem Gives.map {s : Step α start least} {f : α → β} (h : s.Gives Q l)
    (hf : ∀ value, Q value → Q' (f value)) : (s.map f).Gives Q' l := by
  obtain ⟨value, rest, hv, hc, hout⟩ := h
  refine ⟨f value, rest, hf value hv, hc, ?_⟩
  cases s with
  | stop error left _ => cases hout
  | done found left _ =>
    cases hout
    rfl

/-- One reader after the other.  The second one starts from what the first one has left. -/
theorem Gives.andThen {s : Step α start least}
    {next : (value : α) → (rest : Cursor) → rest.remaining + least ≤ start.remaining →
      Step β rest more} (h : s.Gives Q l)
    (hn : ∀ value rest hle, Q value → rest.Spells l → (next value rest hle).Gives Q' l') :
    (s.andThen next).Gives Q' l' := by
  obtain ⟨value, rest, hv, hc, hout⟩ := h
  have hle : rest.remaining + least ≤ start.remaining := by
    cases s with
    | stop error left _ => cases hout
    | done found left hleft =>
      cases hout
      exact hleft.remaining_le
  obtain ⟨value', rest', hv', hc', hout'⟩ := hn value rest hle hv hc
  exact ⟨value', rest', hv', hc', outcome_andThen hout fun _ => hout'⟩

end Step

namespace Cursor.Spells

variable {c : Cursor} {x : Spelling} {l : List Spelling}

theorem cons (h : c.Spells (x :: l)) : ∃ t ts closing,
    c = ⟨t :: ts, closing⟩ ∧ t.spelling = x ∧ (⟨ts, closing⟩ : Cursor).Spells l := by
  obtain ⟨ahead, closing⟩ := c
  obtain ⟨t, ts, rfl, ht, hts⟩ := List.map_eq_cons_iff.1 h
  exact ⟨t, ts, closing, rfl, ht, hts⟩

theorem kind (h : c.Spells (x :: l)) : c.kind = x.1 := by
  obtain ⟨t, ts, closing, rfl, rfl, -⟩ := h.cons
  rfl

/-- Where nothing is ahead, there is the end mark. -/
theorem kind_eq (h : c.Spells l) : c.kind = (l.head?.map Prod.fst).getD .eof := by
  cases l with
  | nil =>
    have hnil : c.ahead = [] := List.map_eq_nil_iff.1 h
    rw [Cursor.kind, Cursor.current, hnil]
    rfl
  | cons x l => exact h.kind

theorem take (h : c.Spells (x :: l)) : c.take.Gives (fun t => t.spelling = x) l := by
  obtain ⟨t, ts, closing, rfl, ht, hts⟩ := h.cons
  exact ⟨t, ⟨ts, closing⟩, ht, hts, rfl⟩

theorem read (h : c.Spells (x :: l)) : c.read.Gives (fun t => t.spelling = x) l := by
  obtain ⟨t, ts, closing, rfl, ht, hts⟩ := h.cons
  exact ⟨t, ⟨ts, closing⟩, ht, hts, rfl⟩

/-- The token that is asked for is there, so the error is not needed. -/
theorem expectOr (h : c.Spells (x :: l)) (error : Diagnostic) :
    (c.expectOr x.1 error).Gives (fun t => t.spelling = x) l := by
  obtain ⟨t, ts, closing, rfl, rfl, hts⟩ := h.cons
  refine ⟨t, ⟨ts, closing⟩, rfl, hts, ?_⟩
  unfold Cursor.expectOr
  dsimp only
  rw [if_pos (show t.kind = t.spelling.1 from rfl)]
  rfl

theorem expect (h : c.Spells (x :: l)) : (c.expect x.1).Gives (fun t => t.spelling = x) l :=
  h.expectOr _

theorem eat (h : c.Spells (x :: l)) : (c.eat x.1).Gives (fun found => found = true) l := by
  have hkind : c.kind = x.1 := h.kind
  obtain ⟨t, ts, closing, rfl, ht, hts⟩ := h.cons
  refine ⟨true, ⟨ts, closing⟩, rfl, hts, ?_⟩
  unfold Cursor.eat
  rw [if_pos hkind]
  rfl

/-- A token that is not there is not missed, and nothing is taken. -/
theorem not_eat {wanted : TokenKind} (h : c.Spells (x :: l)) (hx : x.1 ≠ wanted) :
    (c.eat wanted).Gives (fun found => found = false) (x :: l) := by
  unfold Cursor.eat
  rw [if_neg (h.kind ▸ hx)]
  exact Step.gives_pure rfl h

end Cursor.Spells

/-- The scanner puts one end mark behind the tokens, where the cursor stops. -/
theorem spells_ofTokens {tokens : List Token} {l : List Spelling}
    (h : tokens.map Token.spelling = l ++ [(.eof, "EOF")]) (file : String) :
    (Cursor.ofTokens tokens file).Spells l := by
  obtain ⟨front, last, rfl, hfront, hlast⟩ := List.map_eq_append_iff.1 h
  obtain ⟨t, ts, rfl, ht, hts⟩ := List.map_eq_cons_iff.1 hlast
  obtain rfl := List.map_eq_nil_iff.1 hts
  have hkind : t.kind = .eof := congrArg Prod.fst ht
  unfold Cursor.ofTokens
  rw [List.getLast?_concat]
  dsimp only
  rw [if_pos hkind, List.dropLast_concat]
  exact hfront

/-! ### What is ahead -/

/-- How tightly what is ahead binds to what has been read, and 0 if it does not. -/
def pull : List Spelling → Nat
  | [] => 0
  | x :: _ =>
    match InfixForm.ofKind? x.1 with
    | some (power, _) => power.rank
    | none => 0

/-- The next token pulls with the power of its operator. -/
theorem pull_cons {x : Spelling} {power : BindingPower} {form : InfixForm}
    (h : InfixForm.ofKind? x.1 = some (power, form)) (l : List Spelling) :
    pull (x :: l) = power.rank := by
  rw [pull, h]

/-- What pulls at all pulls at least like an assignment. -/
theorem pull_eq_zero {l : List Spelling} (h : pull l ≤ BindingPower.comma.rank) : pull l = 0 := by
  cases l with
  | nil => rfl
  | cons x l =>
    cases hx : InfixForm.ofKind? x.1 with
    | none => rw [pull, hx]
    | some pair =>
      have hrank : BindingPower.assignment.rank ≤ pair.1.rank := by
        unfold InfixForm.ofKind? at hx
        split at hx <;> cases hx <;> decide
      rw [pull_cons hx] at h
      exact absurd (Nat.le_trans hrank h) (by decide)

namespace Grammar

open Step

variable {c c' : Cursor} {bp power : BindingPower} {form : InfixForm} {e e' : Expr}
  {l : List Spelling}

/-- Nothing ahead binds tightly enough to go on. -/
theorem operators_stop (hc : c.Spells l) (hl : pull l ≤ bp.rank) :
    (operators .language bp e c).outcome = (.ok e, c) := by
  rw [operators]
  cases l with
  | nil =>
    rw [hc.kind_eq]
    rfl
  | cons x l =>
    have hform : Tables.language.infixForm? c.kind = InfixForm.ofKind? x.1 := by rw [hc.kind]; rfl
    rw [hform]
    cases hx : InfixForm.ofKind? x.1 with
    | none => rfl
    | some pair =>
      rw [pull_cons hx] at hl
      show (if pair.1.rank ≤ bp.rank then pure e else _ : Step Expr c 0).outcome = _
      rw [if_pos hl]
      rfl

/-- The expression goes on with one more operator. -/
theorem operators_step (hx : InfixForm.ofKind? c.kind = some (power, form))
    (hbp : bp.rank < power.rank)
    (hstep : (infixExpr .language form power e c).outcome = (.ok e', c')) :
    (operators .language bp e c).outcome = (operators .language bp e' c').outcome := by
  rw [operators]
  have hform : Tables.language.infixForm? c.kind = some (power, form) := hx
  rw [hform]
  show (if power.rank ≤ bp.rank then pure e else _ : Step Expr c 0).outcome = _
  rw [if_neg (Nat.not_le_of_lt hbp), outcome_any]
  exact outcome_andThen hstep fun _ => rfl

theorem expr_start (h : (startExpr .language c).outcome = (.ok e, c')) :
    (expr .language bp c).outcome = (operators .language bp e c').outcome := by
  rw [expr]
  exact outcome_andThen h fun _ => rfl

/-- A token that is read as a literal or a name begins an expression. -/
theorem startForm?_of_primaryOf {t : Token} (h : primaryOf t = .ok e) :
    StartForm.ofKind? t.kind = some .primary := by
  obtain ⟨kind, value, span⟩ := t
  cases kind with
  | eof => cases h
  | punct p => cases h
  | word k => cases k <;> first | rfl | cases h
  | _ => rfl

/-- What is read as an expression begins like one. -/
theorem startForm?_of_expr (h : (expr .language bp c).outcome = (.ok e, c')) :
    StartForm.ofKind? c.kind ≠ none := by
  intro hnone
  rw [expr, startExpr] at h
  have hform : Tables.language.startForm? c.kind = none := hnone
  rw [hform] at h
  cases h

end Grammar

/-! ### Levels at which an expression can be read -/

namespace Expr

/-- An expression is read only at levels below this one. -/
def lead (e : Expr) : Nat :=
  if e.isPrefixed then BindingPower.primary.rank else min e.level.rank BindingPower.call.rank

/-- What follows an expression may pull this much before it pulls the expression apart. -/
def edge (e : Expr) : Nat :=
  if e.level.rank ≤ BindingPower.assignment.rank then BindingPower.comma.rank
  else if e.level.rank < BindingPower.call.rank then e.level.rank else BindingPower.primary.rank

/-- No expression binds more loosely than an assignment. -/
theorem assignment_le_level (e : Expr) : BindingPower.assignment.rank ≤ e.level.rank := by
  cases e with
  | binary n op l r => exact Nat.le_of_lt op.rank_power.1
  | sync n e isArray => cases isArray <;> simp [level, BindingPower.rank]
  | _ => simp [level, BindingPower.rank]

/-- No expression binds more tightly than a literal or a name. -/
theorem level_le_primary (e : Expr) : e.level.rank ≤ BindingPower.primary.rank := by
  cases e.level <;> decide

/-- An expression can be read at all levels below its own, up to that of calls. -/
theorem le_lead {e : Expr} {least : Nat} (h : least ≤ e.level.rank)
    (hcall : least ≤ BindingPower.call.rank) : least ≤ e.lead := by
  unfold lead
  split
  · exact Nat.le_trans hcall (by decide)
  · exact Nat.le_min.2 ⟨h, hcall⟩

/-- Without a prefix an expression is not read above its own level. -/
theorem lead_le_level {e : Expr} (h : e.isPrefixed = false) : e.lead ≤ e.level.rank := by
  rw [lead, h]
  exact Nat.min_le_left _ _

/-- Without a prefix an expression is not read where only a literal or a name could be. -/
theorem lead_le_call {e : Expr} (h : e.isPrefixed = false) : e.lead ≤ BindingPower.call.rank := by
  rw [lead, h]
  exact Nat.min_le_right _ _

/-- Every expression can be read between commas. -/
theorem comma_lt_lead (e : Expr) : BindingPower.comma.rank < e.lead :=
  le_lead e.assignment_le_level (by decide)

/-- A prefix can be read behind another prefix. -/
theorem unary_lt_lead {e : Expr} (h : BindingPower.unary.rank ≤ e.level.rank) :
    BindingPower.unary.rank < e.lead := by
  unfold lead
  split
  · decide
  · next hp =>
    refine Nat.lt_min.2 ⟨Nat.lt_of_le_of_ne h fun heq => hp ?_, by decide⟩
    -- what binds exactly as tightly as a prefix begins with one
    cases e with
    | unary n op e => rfl
    | spawn n e mode => rfl
    | binary n op l r => exact absurd heq.symm (Nat.ne_of_lt op.rank_power.2)
    | sync n e isArray => cases isArray <;> simp [level, BindingPower.rank] at heq
    | _ => simp [level, BindingPower.rank] at heq

/-- What pulls no more than the level of an expression does not pull it apart, if the expression is
no assignment. -/
theorem le_edge {e : Expr} {most : Nat} (h : most ≤ e.level.rank)
    (hassign : BindingPower.assignment.rank < e.level.rank) : most ≤ e.edge := by
  unfold edge
  rw [if_neg (Nat.not_le_of_lt hassign)]
  split
  · exact h
  · exact Nat.le_trans h e.level_le_primary

/-- An operator between two operands is pulled apart by any operator that binds more tightly. -/
theorem edge_eq_level {e : Expr} (hassign : BindingPower.assignment.rank < e.level.rank)
    (hcall : e.level.rank < BindingPower.call.rank) : e.edge = e.level.rank := by
  rw [edge, if_neg (Nat.not_le_of_lt hassign), if_pos hcall]

/-- An ending may be put behind what binds as tightly as one. -/
theorem edge_of_call_le {e : Expr} (h : BindingPower.call.rank ≤ e.level.rank) :
    e.edge = BindingPower.primary.rank := by
  unfold edge
  rw [if_neg (Nat.not_le_of_lt (Nat.lt_of_lt_of_le (by decide) h)), if_neg (Nat.not_lt_of_le h)]

end Expr

/-! ### Reading one expression -/

open Grammar Step

/-- The expression is another one, up to places. -/
def Expr.Same (e e' : Expr) : Prop := e'.unspanned = e.unspanned

/-- What is a name up to places is a name. -/
theorem Expr.Same.var {n : Node} {name : String} {e : Expr} (h : (Expr.var n name).Same e) :
    ∃ m, e = .var m name := by
  cases e with
  | var m other =>
    obtain ⟨-, rfl⟩ : m.unspanned = n.unspanned ∧ other = name := by
      simpa [Same, Expr.unspanned] using h
    exact ⟨m, rfl⟩
  | _ => simp [Same] at h

/-- What is an element up to places is an element. -/
theorem Expr.Same.access {n : Node} {a i e : Expr} (h : (Expr.access n a i).Same e) :
    ∃ m a' i', e = .access m a' i' ∧ a.Same a' ∧ i.Same i' := by
  cases e with
  | access m a' i' =>
    obtain ⟨-, ha, hi⟩ : m.unspanned = n.unspanned ∧ a'.unspanned = a.unspanned ∧
        i'.unspanned = i.unspanned := by
      simpa [Same, Expr.unspanned] using h
    exact ⟨m, a', i', rfl, ha, hi⟩
  | _ => simp [Same] at h

/-- Reading the tokens of an expression leads to the state in which the expression, up to places,
has been read and the rest is ahead. -/
def ReadsBack (w : Node → Literal → Spelling) (e : Expr) : Prop :=
  ∀ (bp : BindingPower) (c : Cursor) (l : List Spelling), c.Spells (e.spelling w ++ l) →
    bp.rank < e.lead → pull l ≤ e.edge →
      ∃ e' c', e.Same e' ∧ c'.Spells l ∧
        (expr .language bp c).outcome = (operators .language bp e' c').outcome

/-- The tokens that close a list: no expression begins or goes on with them. -/
def Punct.ClosesList (p : Punct) : Prop :=
  StartForm.ofKind? (.punct p) = none ∧ InfixForm.ofKind? (.punct p) = none ∧ p ≠ .comma

namespace ReadsBack

variable {w : Node → Literal → Spelling} {c : Cursor} {l : List Spelling} {e : Expr}

/-- An expression in brackets, between commas, or behind the sign of an assignment. -/
theorem delimited (h : ReadsBack w e) {bp : BindingPower}
    (hbp : bp.rank ≤ BindingPower.comma.rank) (hc : c.Spells (e.spelling w ++ l))
    (hl : pull l = 0) : (expr .language bp c).Gives e.Same l := by
  obtain ⟨e', c', he, hc', hout⟩ := h bp c l hc (Nat.lt_of_le_of_lt hbp e.comma_lt_lead)
    (hl ▸ Nat.zero_le _)
  exact ⟨e', c', he, hc', hout.trans (operators_stop hc' (hl ▸ Nat.zero_le _))⟩

theorem group (h : ReadsBack w e)
    (hc : c.Spells (Punct.openParen.spelling ::
      (e.spelling w ++ Punct.closeParen.spelling :: l))) :
    (startExpr .language c).Gives e.Same l := by
  rw [startExpr, show Tables.language.startForm? c.kind = some .group by rw [hc.kind]; rfl]
  show (Grammar.group .language c).Gives e.Same l
  rw [Grammar.group]
  refine hc.expect.andThen fun _ c₁ _ _ hc₁ => ?_
  refine (h.delimited (by decide) hc₁ rfl).andThen fun e' c₂ _ he hc₂ => ?_
  exact hc₂.expect.map fun _ _ => he

/-- An expression in its place, with parentheses if it needs them. -/
theorem placed (h : ReadsBack w e) {least : Nat} (bp : BindingPower)
    (hc : c.Spells (Expr.placed least e.level (e.spelling w) ++ l))
    (hbp : least ≤ e.level.rank → bp.rank < e.lead)
    (hedge : least ≤ e.level.rank → pull l ≤ e.edge) :
    ∃ e' c', e.Same e' ∧ c'.Spells l ∧
      (expr .language bp c).outcome = (operators .language bp e' c').outcome := by
  unfold Expr.placed at hc
  split at hc
  -- inside of parentheses the expression may be any
  · rw [List.append_assoc, List.cons_append, List.singleton_append] at hc
    obtain ⟨e', c', he, hc', hout⟩ := h.group hc
    exact ⟨e', c', he, hc', expr_start hout⟩
  · next hle => exact h bp c l hc (hbp (Nat.le_of_not_lt hle)) (hedge (Nat.le_of_not_lt hle))

theorem operand (h : ReadsBack w e) {least : Nat} {bp : BindingPower}
    (hc : c.Spells (Expr.placed least e.level (e.spelling w) ++ l))
    (hbp : least ≤ e.level.rank → bp.rank < e.lead)
    (hassign : BindingPower.assignment.rank < least) (hleast : bp.rank ≤ least)
    (hl : pull l ≤ bp.rank) : (expr .language bp c).Gives e.Same l := by
  obtain ⟨e', c', he, hc', hout⟩ := h.placed bp hc hbp fun hle =>
    Expr.le_edge (Nat.le_trans hl (Nat.le_trans hleast hle)) (Nat.lt_of_lt_of_le hassign hle)
  exact ⟨e', c', he, hc', hout.trans (operators_stop hc' hl)⟩

/-- An expression that begins with another one, which an operator or an ending goes on with. -/
theorem extend {b : Expr} (least : Nat) {x : Spelling} {tail : List Spelling} {power : BindingPower}
    {form : InfixForm} (hb : ReadsBack w b)
    (hs : e.spelling w = Expr.placed least b.level (b.spelling w) ++ x :: tail)
    (hx : InfixForm.ofKind? x.1 = some (power, form)) (hpower : e.lead ≤ power.rank)
    (hlead : least ≤ b.level.rank → e.lead ≤ b.lead)
    (hedge : least ≤ b.level.rank → power.rank ≤ b.edge)
    (hform : ∀ b' c l, b.Same b' → c.Spells (x :: (tail ++ l)) → pull l ≤ e.edge →
      (infixExpr .language form power b' c).Gives e.Same l) : ReadsBack w e := by
  intro bp c l hc hbp hl
  rw [hs, List.append_assoc, List.cons_append] at hc
  -- the first part is read up to the operator, which pulls no more than it may
  have hpull : pull (x :: (tail ++ l)) = power.rank := pull_cons hx _
  obtain ⟨b', c₁, hb', hc₁, h₁⟩ := hb.placed bp hc
    (fun hle => Nat.lt_of_lt_of_le hbp (hlead hle)) fun hle => hpull ▸ hedge hle
  obtain ⟨e', c₂, he, hc₂, h₂⟩ := hform b' c₁ l hb' hc₁ hl
  refine ⟨e', c₂, he, hc₂, h₁.trans (operators_step ?_ (Nat.lt_of_lt_of_le hbp hpower) h₂)⟩
  rw [hc₁.kind]
  exact hx

/-- An expression that begins with a token or a bracket of its own. -/
theorem of_start
    (h : ∀ c l, c.Spells (e.spelling w ++ l) → pull l ≤ e.edge →
      (startExpr .language c).Gives e.Same l) : ReadsBack w e := by
  intro bp c l hc _ hl
  obtain ⟨e', c', he, hc', hout⟩ := h c l hc hl
  exact ⟨e', c', he, hc', expr_start hout⟩

/-! ### Each form of expression -/

/-- An operator between two operands, of which the right one binds more tightly. -/
theorem between {a b : Expr} {x : Spelling} {form : InfixForm} (ha : ReadsBack w a)
    (hb : ReadsBack w b)
    (hs : e.spelling w = Expr.placed e.level.rank a.level (a.spelling w) ++
      x :: Expr.placed (e.level.rank + 1) b.level (b.spelling w))
    (hx : InfixForm.ofKind? x.1 = some (e.level, form)) (hfirst : e.isPrefixed = false)
    (hassign : BindingPower.assignment.rank < e.level.rank)
    (hcall : e.level.rank < BindingPower.call.rank)
    (hform : ∀ a' c l l', a.Same a' → c.Spells (x :: l') →
      (∀ c', c'.Spells l' → (expr .language e.level c').Gives b.Same l) →
        (infixExpr .language form e.level a' c).Gives e.Same l) : ReadsBack w e := by
  have hlead := Expr.lead_le_level hfirst
  refine ha.extend _ hs hx hlead
    (fun hle => Nat.le_trans hlead (Expr.le_lead hle (Nat.le_of_lt hcall)))
    (fun hle => Expr.le_edge hle (Nat.lt_of_lt_of_le hassign hle)) fun a' c l ha' hc hl => ?_
  refine hform a' c l _ ha' hc fun c' hc' => ?_
  -- the right operand ends where the whole expression does
  rw [Expr.edge_eq_level hassign hcall] at hl
  refine hb.operand hc' (fun hle => ?_) (Nat.lt_succ_of_lt hassign) (Nat.le_succ _) hl
  exact Expr.le_lead hle hcall

/-- The token of an operator is the only one with its form, and it is read as that operator. -/
theorem binary {n : Node} {op : BinaryOp} {a b : Expr} (hn : n.type = none) (ha : ReadsBack w a)
    (hb : ReadsBack w b) : ReadsBack w (.binary n op a b) := by
  obtain ⟨hassign, hunary⟩ := op.rank_power
  refine ha.between hb rfl op.infixForm?_punct rfl hassign (Nat.lt_trans hunary (by decide))
    fun a' c l l' ha' hc hright => ?_
  rw [infixExpr, Grammar.binary]
  refine hc.take.andThen fun t c₁ _ ht hc₁ => ?_
  rw [show t.kind = .punct op.punct from congrArg Prod.fst ht, BinaryOp.ofKind?_punct]
  refine (hright c₁ hc₁).map fun b' hb' => ?_
  show Expr.unspanned _ = _
  rw [Expr.unspanned, Expr.unspanned, ha', hb', Node.unspanned_at hn]

theorem range {n : Node} {a b : Expr} (hn : n.type = none) (ha : ReadsBack w a)
    (hb : ReadsBack w b) : ReadsBack w (.range n a b) := by
  refine ha.between hb rfl rfl rfl (by simp [Expr.level, BindingPower.rank])
    (by simp [Expr.level, BindingPower.rank]) fun a' c l l' ha' hc hright => ?_
  rw [infixExpr, Grammar.range]
  refine hc.expect.andThen fun _ c₁ _ _ hc₁ => (hright c₁ hc₁).map fun b' hb' => ?_
  show Expr.unspanned _ = _
  rw [Expr.unspanned, Expr.unspanned, ha', hb', Node.unspanned_at hn]

/-! The prefixes -/

/-- A prefix takes the operand that binds at least as tightly as itself. -/
theorem unary {n : Node} {op : UnaryOp} {e : Expr} (hn : n.type = none) (he : ReadsBack w e) :
    ReadsBack w (.unary n op e) := by
  refine of_start fun c l hc hl => ?_
  have hform : Tables.language.startForm? c.kind = some .unary := by
    rw [hc.kind]
    cases op <;> rfl
  rw [startExpr, hform]
  show (Grammar.unary .language c).Gives _ l
  rw [Grammar.unary]
  refine Gives.andThen (Cursor.Spells.take hc) fun t c₁ _ ht hc₁ => ?_
  have hop : (if t.kind = .punct .dash then UnaryOp.negate else .not) = op := by
    rw [show t.kind = .punct op.punct from congrArg Prod.fst ht]
    cases op <;> rfl
  refine (he.operand hc₁ Expr.unary_lt_lead (by decide) (Nat.le_refl _) hl).map fun e' he' => ?_
  show Expr.unspanned _ = _
  rw [hop, Expr.unspanned, Expr.unspanned, he', Node.unspanned_at hn]

/-- A thread is started with a prefix, whose modifier is found later by the checker. -/
theorem spawn {n : Node} {e : Expr} (hn : n.type = none) (he : ReadsBack w e) :
    ReadsBack w (.spawn n e none) := by
  refine of_start fun c l hc hl => ?_
  rw [startExpr, show Tables.language.startForm? c.kind = some .spawn by rw [hc.kind]; rfl]
  show (Grammar.spawn .language c).Gives _ l
  rw [Grammar.spawn]
  refine Gives.andThen (Cursor.Spells.expect hc) fun _ c₁ _ _ hc₁ => ?_
  refine (he.operand hc₁ Expr.unary_lt_lead (by decide) (Nat.le_refl _) hl).map fun e' he' => ?_
  show Expr.unspanned _ = _
  rw [Expr.unspanned, Expr.unspanned, he', Node.unspanned_at hn]

/-! Literals and names -/

theorem primary {x : Spelling} (hs : e.spelling w = [x])
    (hform : StartForm.ofKind? x.1 = some .primary)
    (hx : ∀ span, ∃ e', primaryOf ⟨x.1, x.2, span⟩ = .ok e' ∧ e.Same e') : ReadsBack w e := by
  refine of_start fun c l hc hl => ?_
  rw [hs, List.singleton_append] at hc
  have hstart : Tables.language.startForm? c.kind = some .primary := by
    rw [hc.kind]
    exact hform
  rw [startExpr, hstart]
  show (Grammar.primary c).Gives e.Same l
  obtain ⟨t, ts, closing, rfl, rfl, hts⟩ := hc.cons
  obtain ⟨e', hread, he⟩ := hx t.span
  refine ⟨e', ⟨ts, closing⟩, he, hts, ?_⟩
  unfold Grammar.primary
  dsimp only
  rw [show primaryOf t = .ok e' from hread]
  rfl

/-- A literal is whatever its token is read as. -/
theorem literal {n : Node} {v : Literal} (hn : n.type = none)
    (hv : ∀ span, primaryOf ⟨(w n v).1, (w n v).2, span⟩ = .ok (.literal (.at span) v)) :
    ReadsBack w (.literal n v) := by
  refine primary rfl (startForm?_of_primaryOf (hv n.span)) fun span => ⟨_, hv span, ?_⟩
  show Expr.unspanned _ = _
  rw [Expr.unspanned, Expr.unspanned, Node.unspanned_at hn]

/-- A name is its own token. -/
theorem var {n : Node} (name : String) (hn : n.type = none) : ReadsBack w (.var n name) := by
  refine primary rfl rfl fun span => ⟨_, rfl, ?_⟩
  show Expr.unspanned _ = _
  rw [Expr.unspanned, Expr.unspanned, Node.unspanned_at hn]

/-! Endings -/

theorem ending {b : Expr} {x : Spelling} {tail : List Spelling} {power : BindingPower}
    {form : InfixForm} (hb : ReadsBack w b)
    (hs : e.spelling w =
      Expr.placed BindingPower.call.rank b.level (b.spelling w) ++ x :: tail)
    (hx : InfixForm.ofKind? x.1 = some (power, form)) (hfirst : e.isPrefixed = false)
    (hpower : BindingPower.call.rank ≤ power.rank)
    (hform : ∀ b' c l, b.Same b' → c.Spells (x :: (tail ++ l)) →
      (infixExpr .language form power b' c).Gives e.Same l) : ReadsBack w e := by
  have hlead := Expr.lead_le_call hfirst
  refine hb.extend _ hs hx (Nat.le_trans hlead hpower)
    (fun hle => Nat.le_trans hlead (Expr.le_lead hle (Nat.le_refl _))) (fun hle => ?_)
    fun b' c l hb' hc _ => hform b' c l hb' hc
  rw [Expr.edge_of_call_le hle]
  cases power <;> decide

/-- The two endings that count share a reader, which looks at the token. -/
theorem increment {n : Node} {b : Expr} (hn : n.type = none) (hb : ReadsBack w b) :
    ReadsBack w (.increment n b) := by
  refine hb.ending rfl rfl rfl (by decide) fun b' c l hb' hc => ?_
  rw [infixExpr]
  refine hc.take.map fun t ht => ?_
  rw [counted, if_pos (show t.kind = .punct .plusPlus from congrArg Prod.fst ht)]
  show Expr.unspanned _ = _
  rw [Expr.unspanned, Expr.unspanned, hb', Node.unspanned_at hn]

theorem decrement {n : Node} {b : Expr} (hn : n.type = none) (hb : ReadsBack w b) :
    ReadsBack w (.decrement n b) := by
  refine hb.ending rfl rfl rfl (by decide) fun b' c l hb' hc => ?_
  rw [infixExpr]
  refine hc.take.map fun t ht => ?_
  have hkind : t.kind = .punct .minusMinus := congrArg Prod.fst ht
  rw [counted, if_neg (by rw [hkind]; decide)]
  show Expr.unspanned _ = _
  rw [Expr.unspanned, Expr.unspanned, hb', Node.unspanned_at hn]

theorem sync {n : Node} {b : Expr} (hn : n.type = none) (hb : ReadsBack w b) :
    ReadsBack w (.sync n b false) := by
  refine hb.ending rfl rfl rfl (by decide) fun b' c l hb' hc => ?_
  rw [infixExpr, Grammar.sync]
  refine hc.expect.map fun t _ => ?_
  show Expr.unspanned _ = _
  rw [Expr.unspanned, Expr.unspanned, hb', Node.unspanned_at hn]

/-- The name of a member is taken from the token behind the dot. -/
theorem member {n : Node} {b : Expr} {name : String} (hn : n.type = none) (hb : ReadsBack w b) :
    ReadsBack w (.member n b name) := by
  refine hb.ending rfl rfl rfl (by decide) fun b' c l hb' hc => ?_
  rw [infixExpr, Grammar.member]
  refine hc.expect.andThen fun _ c₁ _ _ hc₁ => ?_
  refine (hc₁.expectOr _).map fun t ht => ?_
  show Expr.unspanned _ = _
  rw [Expr.unspanned, Expr.unspanned, hb', Node.unspanned_at hn,
    show t.value = name from congrArg Prod.snd ht]

/-- The index stands in brackets, so it needs no parentheses. -/
theorem access {n : Node} {b i : Expr} (hn : n.type = none) (hb : ReadsBack w b)
    (hi : ReadsBack w i) : ReadsBack w (.access n b i) := by
  refine hb.ending (by rw [Expr.spelling, List.append_assoc, List.cons_append]) rfl rfl (by decide)
    fun b' c l hb' hc => ?_
  rw [List.append_assoc, List.singleton_append] at hc
  rw [infixExpr, Grammar.index]
  refine hc.expect.andThen fun _ c₁ _ _ hc₁ => ?_
  refine (hi.delimited (by decide) hc₁ rfl).andThen fun i' c₂ _ hi' hc₂ => ?_
  refine hc₂.expect.andThen fun _ c₃ _ _ hc₃ => gives_pure ?_ hc₃
  show Expr.unspanned _ = _
  rw [Expr.unspanned, Expr.unspanned, hb', hi', Node.unspanned_at hn]

/-! Assignments -/

/-- An assignment to a place, with all that follows as the value. -/
theorem assigned {place v : Expr} (hplace : ReadsBack w place) (hv : ReadsBack w v)
    (hs : e.spelling w = place.spelling w ++ Punct.assignment.spelling :: v.spelling w)
    (hlevel : e.level = .assignment) (hfirst : e.isPrefixed = false)
    (hcall : BindingPower.call.rank ≤ place.level.rank)
    (hform : ∀ place' v' span, place.Same place' → v.Same v' →
      ∃ e', place'.assignTo? (.at span) v' = some e' ∧ e.Same e') : ReadsBack w e := by
  have hlead := Expr.lead_le_level hfirst
  rw [hlevel] at hlead
  refine hplace.extend 0 hs rfl hlead
    (fun _ => Nat.le_trans hlead place.comma_lt_lead) (fun _ => ?_)
    fun place' c l hplace' hc hl => ?_
  · rw [Expr.edge_of_call_le hcall]
    decide
  -- all that follows belongs to the value, so nothing behind it may pull
  · have hend : pull l = 0 := by
      refine pull_eq_zero (Nat.le_trans hl ?_)
      rw [Expr.edge, hlevel]
      decide
    rw [infixExpr, Grammar.assignment]
    refine hc.take.andThen fun _ c₁ _ _ hc₁ => ?_
    refine (hv.delimited (by decide) hc₁ hend).andThen fun v' c₂ _ hv' hc₂ => ?_
    obtain ⟨e', he', hsame⟩ := hform place' v' ⟨place'.start, v'.span.stop⟩ hplace' hv'
    rw [he']
    exact gives_pure hsame hc₂

/-- A name is a place. -/
theorem assign {n : Node} {name : String} {v : Expr} (hn : n.type = none) (hv : ReadsBack w v) :
    ReadsBack w (.assign n name v) := by
  refine (var name hn).assigned hv rfl rfl rfl (by simp [Expr.level, BindingPower.rank])
    fun place v' span hplace hv' => ?_
  obtain ⟨m, rfl⟩ := hplace.var
  refine ⟨_, rfl, ?_⟩
  show Expr.unspanned _ = _
  rw [Expr.unspanned, Expr.unspanned, hv', Node.unspanned_at hn]

/-- An element is a place.  It is read like any other element before the sign of the assignment
shows up. -/
theorem indexAssign {n : Node} {a i v : Expr} (hn : n.type = none) (ha : ReadsBack w a)
    (hi : ReadsBack w i) (hv : ReadsBack w v) : ReadsBack w (.indexAssign n a i v) := by
  refine (access hn ha hi).assigned hv (by simp) rfl rfl
    (by simp [Expr.level, BindingPower.rank]) fun place v' span hplace hv' => ?_
  obtain ⟨m, a', i', rfl, ha', hi'⟩ := hplace.access
  refine ⟨_, rfl, ?_⟩
  show Expr.unspanned _ = _
  rw [Expr.unspanned, Expr.unspanned, ha', hi', hv', Node.unspanned_at hn]

/-! Lists -/

theorem exprList {es : List Expr} (hes : ∀ e ∈ es, ReadsBack w e) {close : Punct}
    (hclose : close.ClosesList) (hc : c.Spells (spellings w es ++ close.spelling :: l)) :
    (Grammar.exprList .language (.punct close) c).Gives
      (fun es' => exprsUnspanned es' = exprsUnspanned es) l := by
  obtain ⟨hstart, hinfix, hcomma⟩ := hclose
  induction es generalizing c with
  | nil =>
    rw [Grammar.exprList, if_pos (show c.kind = .punct close from hc.kind)]
    refine Gives.any (Gives.map (Cursor.Spells.expect hc) fun _ _ => ?_)
    rfl
  | cons e es ih =>
    obtain ⟨he, hes⟩ := List.forall_mem_cons.1 hes
    rw [spellings, List.append_assoc] at hc
    -- behind the first expression there is a comma or the closing token
    have hitem : (expr .language .comma c).Gives e.Same
        (laterSpellings w es ++ close.spelling :: l) := by
      refine he.delimited (Nat.le_refl _) hc ?_
      cases es with
      | nil => exact (show pull (close.spelling :: l) = 0 by rw [pull, Punct.spelling, hinfix])
      | cons e' es => rfl
    -- what begins an expression does not close the list
    have hkind : c.kind ≠ .punct close := by
      intro hk
      obtain ⟨e', c', -, -, hout⟩ := hitem
      exact startForm?_of_expr hout (hk ▸ hstart)
    rw [Grammar.exprList, if_neg hkind]
    refine Gives.any (hitem.andThen fun e' c₁ _ he' hc₁ => ?_)
    cases es with
    | nil =>
      have hnext : close.spelling.1 ≠ .punct .comma := by simpa [Punct.spelling] using hcomma
      refine (hc₁.not_eat hnext).andThen fun more c₂ _ hm hc₂ => ?_
      subst hm
      refine Gives.any (hc₂.expect.map fun _ _ => ?_)
      rw [exprsUnspanned, exprsUnspanned, exprsUnspanned, exprsUnspanned, he']
    | cons e₂ es =>
      refine hc₁.eat.andThen fun more c₂ _ hm hc₂ => ?_
      subst hm
      refine (ih hes hc₂).map fun es' hes' => ?_
      rw [exprsUnspanned, exprsUnspanned, he', hes']

theorem call {n : Node} {f : Expr} {args : List Expr} (hn : n.type = none) (hf : ReadsBack w f)
    (hargs : ∀ e ∈ args, ReadsBack w e) : ReadsBack w (.call n f args) := by
  refine hf.ending (by rw [Expr.spelling, List.append_assoc, List.cons_append]) rfl rfl (by decide)
    fun f' c l hf' hc => ?_
  rw [List.append_assoc, List.singleton_append] at hc
  rw [infixExpr, Grammar.call]
  refine hc.expect.andThen fun _ c₁ _ _ hc₁ => ?_
  refine (exprList hargs (by simp [Punct.ClosesList]; decide) hc₁).andThen
    fun args' c₂ _ hargs' hc₂ => gives_pure ?_ hc₂
  show Expr.unspanned _ = _
  rw [Expr.unspanned, Expr.unspanned, hf', hargs', Node.unspanned_at hn]

/-- A literal array begins with the bracket that would be an ending elsewhere. -/
theorem array {n : Node} {es : List Expr} (hn : n.type = none) (hes : ∀ e ∈ es, ReadsBack w e) :
    ReadsBack w (.array n es) := by
  refine of_start fun c l hc _ => ?_
  rw [Expr.spelling, List.append_assoc, List.singleton_append] at hc
  rw [startExpr, show Tables.language.startForm? c.kind = some .arrayLiteral by rw [hc.kind]; rfl]
  show (Grammar.arrayLiteral .language c).Gives _ l
  rw [Grammar.arrayLiteral]
  refine Gives.andThen (Cursor.Spells.expect hc) fun _ c₁ _ _ hc₁ => ?_
  refine (exprList hes (by simp [Punct.ClosesList]; decide) hc₁).andThen
    fun es' c₂ _ hes' hc₂ => gives_pure ?_ hc₂
  show Expr.unspanned _ = _
  rw [Expr.unspanned, Expr.unspanned, hes', Node.unspanned_at hn]

/-- Waiting for several threads: the list that is read stands for the array, which has no token of
its own. -/
theorem syncAll {n m : Node} {es : List Expr} (hn : n.type = none) (hm : m.type = none)
    (hes : ∀ e ∈ es, ReadsBack w e) : ReadsBack w (.sync n (.array m es) true) := by
  refine of_start fun c l hc _ => ?_
  rw [Expr.spelling, List.append_assoc] at hc
  rw [startExpr, show Tables.language.startForm? c.kind = some .arraySync by rw [hc.kind]; rfl]
  show (Grammar.arraySync .language c).Gives _ l
  rw [Grammar.arraySync]
  refine Gives.andThen (Cursor.Spells.expect hc) fun _ c₁ _ _ hc₁ => ?_
  refine (exprList hes (by simp [Punct.ClosesList]; decide) hc₁).andThen fun es' c₂ _ hes' hc₂ => ?_
  refine (hc₂.expectOr _).map fun _ _ => ?_
  show Expr.unspanned _ = _
  rw [Expr.unspanned, Expr.unspanned, Expr.unspanned, Expr.unspanned, hes', Node.unspanned_at hn,
    Node.unspanned_at hm]

end ReadsBack

/-! ### Every written expression -/

mutual

/-- Every written expression is read back. -/
theorem readsBack {w : Node → Literal → Spelling} : ∀ e : Expr, e.Written w → ReadsBack w e
  | .literal _ _, h => .literal h.1 h.2
  | .var _ name, h => .var name h
  | .binary _ _ a b, h => .binary h.1 (readsBack a h.2.1) (readsBack b h.2.2)
  | .unary _ _ e, h => .unary h.1 (readsBack e h.2)
  | .assign _ _ v, h => .assign h.1 (readsBack v h.2)
  | .indexAssign _ a i v, h =>
    .indexAssign h.1 (readsBack a h.2.1) (readsBack i h.2.2.1) (readsBack v h.2.2.2)
  | .call _ f args, h => .call h.1 (readsBack f h.2.1) (readsBack_list args h.2.2)
  | .array _ es, h => .array h.1 (readsBack_list es h.2)
  | .access _ a i, h => .access h.1 (readsBack a h.2.1) (readsBack i h.2.2)
  | .range _ a b, h => .range h.1 (readsBack a h.2.1) (readsBack b h.2.2)
  | .increment _ e, h => .increment h.1 (readsBack e h.2)
  | .decrement _ e, h => .decrement h.1 (readsBack e h.2)
  | .member _ e _, h => .member h.1 (readsBack e h.2)
  -- a written expression has not been given the modifier of its thread
  | .spawn _ e _, h => h.2.1 ▸ .spawn h.1 (readsBack e h.2.2)
  | .sync _ e false, h => .sync h.1 (readsBack e h.2)
  | .sync _ (.array _ es) true, h => .syncAll h.1 h.2.1 (readsBack_list es h.2.2)

/-- Every expression of a written list is read back. -/
theorem readsBack_list {w : Node → Literal → Spelling} :
    ∀ es : List Expr, exprsWritten w es → ∀ e ∈ es, ReadsBack w e
  | [], _ => fun _ he => nomatch he
  | e :: es, h => List.forall_mem_cons.2 ⟨readsBack e h.1, readsBack_list es h.2⟩

end

/-- What is written with few parentheses is read as what it was written from, up to places, and the
cursor is left at the end mark.  Each occurrence of a literal may be written by any token that is
read as it. -/
theorem expr_spelling (w : Node → Literal → Spelling) {e : Expr} (he : e.Written w)
    {ts : List Token} (hts : ts.map Token.spelling = e.spelling w) (mark : EndMark)
    (file : String) :
    ∃ e', (expr .language .default (Cursor.ofTokens (ts ++ [mark.token]) file)).result = .ok e' ∧
      (expr .language .default (Cursor.ofTokens (ts ++ [mark.token]) file)).rest = ⟨[], mark⟩ ∧
        e'.unspanned = e.unspanned := by
  have hcursor : Cursor.ofTokens (ts ++ [mark.token]) file = ⟨ts, mark⟩ := by
    simp [Cursor.ofTokens, EndMark.token]
  have hc : (⟨ts, mark⟩ : Cursor).Spells (e.spelling w ++ []) := by
    rw [List.append_nil]
    exact hts
  have hbp : BindingPower.default.rank ≤ BindingPower.comma.rank := by decide
  obtain ⟨e', ⟨ahead, closing⟩, hsame, hc', hout⟩ := (readsBack e he).delimited hbp hc rfl
  obtain ⟨hresult, hrest⟩ := Prod.ext_iff.1 hout
  have hclosing := (expr .language .default ⟨ts, mark⟩).left_rest.closing_eq
  rw [hcursor]
  refine ⟨e', hresult, hrest.trans ?_, hsame⟩
  rw [show closing = mark from (congrArg Cursor.closing hrest).symm.trans hclosing,
    show ahead = [] from List.map_eq_nil_iff.1 hc']

namespace Sample

def somewhere : Node := .at ⟨⟨0, ""⟩, ⟨0, ""⟩⟩

def elsewhere : Node := .at ⟨⟨1, ""⟩, ⟨1, ""⟩⟩

/-- `a[0] = x - (-f(y)! - [t, u]!) && (b = 0)`, with the two zeros in different places. -/
def settle : Expr :=
  .indexAssign somewhere (.var somewhere "a") (.literal somewhere (.int 0))
    (.binary somewhere .and
      (.binary somewhere .subtract (.var somewhere "x")
        (.binary somewhere .subtract
          (.unary somewhere .negate
            (.sync somewhere (.call somewhere (.var somewhere "f") [.var somewhere "y"]) false))
          (.sync somewhere
            (.array somewhere [.var somewhere "t", .var somewhere "u"]) true)))
      (.assign somewhere "b" (.literal elsewhere (.int 0))))

/-- Zero is written with one digit at the beginning of the file, and with two digits further on. -/
def zero (n : Node) (_ : Literal) : Spelling :=
  (.number, if n.span.start.offset = 0 then "0" else "00")

def settleText : List Spelling :=
  [(.identifier, "a"), (.punct .openBracket, "["), (.number, "0"), (.punct .closeBracket, "]"),
    (.punct .assignment, "="), (.identifier, "x"), (.punct .dash, "-"), (.punct .openParen, "("),
    (.punct .dash, "-"), (.identifier, "f"), (.punct .openParen, "("), (.identifier, "y"),
    (.punct .closeParen, ")"), (.punct .not, "!"), (.punct .dash, "-"), (.punct .openBracket, "["),
    (.identifier, "t"), (.punct .comma, ","), (.identifier, "u"), (.punct .closeBracket, "]"),
    (.punct .not, "!"), (.punct .closeParen, ")"), (.punct .and, "&&"), (.punct .openParen, "("),
    (.identifier, "b"), (.punct .assignment, "="), (.number, "00"), (.punct .closeParen, ")")]

/-- Tokens that are written as given, all in one place. -/
def tokens (l : List Spelling) : List Token := l.map fun x => ⟨x.1, x.2, somewhere.span⟩

/-- Both ways to write zero are read as zero. -/
theorem primaryOf_zero (n : Node) (span : Span) :
    primaryOf ⟨(zero n (.int 0)).1, (zero n (.int 0)).2, span⟩ =
      .ok (.literal (.at span) (.int 0)) := by
  have hone : numberValue? "0".toList = some (.int 0) := by decide +kernel
  have htwo : numberValue? "00".toList = some (.int 0) := by decide +kernel
  unfold zero
  split
  · simp only [primaryOf, literal?, hone]
    rfl
  · simp only [primaryOf, literal?, htwo]
    rfl

end Sample

/-- The zeros of the sample are equal literals, and are written by different tokens. -/
theorem expr_spelling_settle :
    let c := Cursor.ofTokens (Sample.tokens Sample.settleText ++
      [EndMark.token ⟨"EOF", Sample.somewhere.span⟩]) ""
    ∃ e', (expr .language .default c).result = .ok e' ∧
      (expr .language .default c).rest = ⟨[], ⟨"EOF", Sample.somewhere.span⟩⟩ ∧
        e'.unspanned = Sample.settle.unspanned := by
  have hw : Sample.settle.Written Sample.zero := by
    simp [Sample.settle, Sample.somewhere, Sample.elsewhere, Node.at, Expr.Written, exprsWritten,
      Sample.primaryOf_zero]
  exact expr_spelling Sample.zero hw (by decide +kernel) _ _

end ThreadRegions
