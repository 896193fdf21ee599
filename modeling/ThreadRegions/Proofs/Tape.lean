import ThreadRegions.Grammar.Cursor

/-!
# Reading from a tape

A tape is a list of tokens with a cursor that moves along it.  The readers on a tape are programs
that look at tokens and move the cursor; they carry no proofs.

## Main Definitions

* `Tape`: a list of tokens with a cursor, and where the cursor has been
* `Reader`: a program that moves the cursor
* `current`, `advance`, `expect`, `eat`: looking at a token and moving past it
* `Tape.StandsAt`: the tokens from the cursor on
* `Tape.Sound`: a cursor that has stayed among the tokens and has not gone back
* `Follows`: a reader on a tape that does what a reader of the grammar does

## Main Results

* `Follows.andThen`: one reader after another
* `follows_expect`, `follows_eat`, `follows_take`: reading one token

## Design Notes

A reader of the grammar takes tokens away from a list, and says from its type on that it moves
forward.  A reader on a tape holds an index.  It has no answer where it looks at a token that is not
there, so that a reader that follows one of the grammar never does so.

The trail on a tape takes no part in the reading.  It is there to speak about all places where the
cursor has been in a run.
-/

namespace ThreadRegions.Limited

/-- A list of tokens with a cursor. -/
structure Tape where
  /-- The tokens. -/
  tokens : List Token
  /-- The place of the token the cursor stands at. -/
  index : Nat
  /-- Where the cursor stood before each move, the last one first. -/
  trail : List Nat

namespace Tape

/-- The tokens with an end mark, which is added where they do not end in one. -/
def closed (tokens : List Token) (file : String) : List Token :=
  match tokens.getLast? with
  | none => [⟨.eof, "EOF", ⟨⟨0, file⟩, ⟨0, file⟩⟩⟩]
  | some last =>
    if last.kind = .eof then tokens
    else tokens ++ [⟨.eof, "EOF", ⟨last.span.stop, last.span.stop⟩⟩]

/-- The beginning of a list of tokens. -/
def ofTokens (tokens : List Token) (file : String) : Tape := ⟨closed tokens file, 0, []⟩

/-- Moves the cursor to the next token.  At the last one it stays. -/
def forward (p : Tape) : Tape :=
  { p with
    index := if p.index + 1 < p.tokens.length then p.index + 1 else p.index
    trail := p.index :: p.trail }

end Tape

/-- A program that moves a cursor, and gives a value or an error, if it is not cut off. -/
abbrev Reader (α : Type) := ExceptT Diagnostic (StateT Tape Option) α

/-! ### Looking and moving -/

/-- The token the cursor stands at. -/
def current : Reader Token := do
  let p ← get
  liftM p.tokens[p.index]?

/-- The kind of the token the cursor stands at. -/
def kind : Reader TokenKind := do
  let token ← current
  return token.kind

/-- The kind of the token `n` places ahead, or else of the last one. -/
def kindAhead (n : Nat) : Reader TokenKind := do
  let p ← get
  let token : Token ← liftM p.tokens[min (p.index + n) (p.tokens.length - 1)]?
  return token.kind

/-- Where the current token begins. -/
def position : Reader Position := do
  let token ← current
  return token.span.start

/-- The text from `start` up to the current token. -/
def spanFrom (start : Position) : Reader Span := do
  let stop ← position
  return ⟨start, stop⟩

/-- Gives up, since the current token is out of place. -/
def refuse {α : Type} : Reader α := do
  let token ← current
  throw ⟨.unexpectedToken token.value, token.span.start⟩

/-- Gives up, and says what would have been in place of the current token. -/
def refuseBut {α : Type} (message : String) : Reader α := do
  let token ← current
  throw ⟨.unexpectedTokenDetailed token.value message, token.span.start⟩

/-- Moves past the current token, whatever it is. -/
def advance : Reader Token := do
  let token ← current
  modify Tape.forward
  return token

/-- Moves past a token of the given kind. -/
def expect (wanted : TokenKind) : Reader Token := do
  if (← kind) = wanted then advance else refuse

/-- Moves past a token of the given kind, or says what was expected. -/
def expectBut (wanted : TokenKind) (message : String) : Reader Token := do
  if (← kind) = wanted then advance else refuseBut message

/-- Moves past a token of the given kind if there is one, and says whether there was. -/
def eat (wanted : TokenKind) : Reader Bool := do
  if (← kind) = wanted then
    let _ ← advance
    return true
  else return false

variable {α β : Type} {c : Cursor} {least more : Nat}

/-! ### Tapes and cursors -/

namespace Tape

/-- The cursor stands at the first of the given tokens, and nothing follows them. -/
def StandsAt (p : Tape) (c : Cursor) : Prop :=
  p.tokens.drop p.index = c.ahead ++ [c.closing.token]

/-- The cursor has always stood at one of the tokens, and has never gone back. -/
structure Sound (p : Tape) : Prop where
  inside : ∀ i ∈ p.index :: p.trail, i < p.tokens.length
  neverBack : (p.index :: p.trail).Pairwise (· ≥ ·)

variable {p p' : Tape} {c : Cursor}

namespace StandsAt

/-- Behind the tokens ahead there is the end mark, and nothing more. -/
theorem length_eq (h : p.StandsAt c) : p.index + c.remaining + 1 = p.tokens.length := by
  have hlen := congrArg List.length h
  rw [List.length_drop, List.length_append, List.length_singleton] at hlen
  unfold Cursor.remaining
  omega

/-- The cursor stands at a token, which may be the end mark. -/
theorem getElem?_eq (h : p.StandsAt c) : p.tokens[p.index]? = some c.current := by
  have hdrop : (p.tokens.drop p.index)[0]? = p.tokens[p.index]? := by
    rw [List.getElem?_drop, Nat.add_zero]
  rw [← hdrop, h]
  obtain ⟨_ | ⟨t, ts⟩, closing⟩ := c
  · rfl
  · rfl

/-- Looking further ahead than there are tokens shows the end mark, on both sides. -/
theorem getElem?_ahead (h : p.StandsAt c) (n : Nat) :
    ∃ t, p.tokens[min (p.index + n) (p.tokens.length - 1)]? = some t ∧ t.kind = c.kindAhead n := by
  have hlen := h.length_eq
  unfold Cursor.remaining at hlen
  have hdrop (k : Nat) : p.tokens[p.index + k]? = (c.ahead ++ [c.closing.token])[k]? := by
    rw [← List.getElem?_drop, h]
  unfold Cursor.kindAhead
  -- among the tokens ahead, or behind them
  by_cases hn : n < c.ahead.length
  · refine ⟨c.ahead[n], ?_, ?_⟩
    · rw [Nat.min_eq_left (by omega), hdrop, List.getElem?_append_left hn,
        List.getElem?_eq_getElem hn]
    · rw [List.getElem?_eq_getElem hn]
  · refine ⟨c.closing.token, ?_, ?_⟩
    · rw [Nat.min_eq_right (by omega), show p.tokens.length - 1 = p.index + c.ahead.length by omega,
        hdrop, List.getElem?_append_right (Nat.le_refl _), Nat.sub_self]
      rfl
    · rw [List.getElem?_eq_none (by omega)]
      rfl

theorem forward_cons {t : Token} {ts : List Token} {closing : EndMark}
    (h : p.StandsAt ⟨t :: ts, closing⟩) : p.forward.StandsAt ⟨ts, closing⟩ := by
  have hlen : p.index + (ts.length + 1) + 1 = p.tokens.length := h.length_eq
  have hmore : p.index + 1 < p.tokens.length := by omega
  unfold StandsAt forward
  dsimp only
  rw [if_pos hmore, ← List.tail_drop, h]
  rfl

/-- At the end mark the cursor stays. -/
theorem forward_nil {closing : EndMark} (h : p.StandsAt ⟨[], closing⟩) :
    p.forward.StandsAt ⟨[], closing⟩ := by
  have hlen : p.index + 0 + 1 = p.tokens.length := h.length_eq
  have hlast : ¬p.index + 1 < p.tokens.length := by omega
  unfold StandsAt forward
  dsimp only
  rw [if_neg hlast]
  exact h

end StandsAt

/-- A move stays among the tokens and does not go back. -/
theorem Sound.forward (h : p.Sound) : p.forward.Sound := by
  have hin : p.index < p.tokens.length := h.inside p.index List.mem_cons_self
  refine ⟨?_, ?_⟩
  · intro i hi
    rcases List.mem_cons.1 hi with rfl | hi
    · show (if p.index + 1 < p.tokens.length then p.index + 1 else p.index) < p.tokens.length
      split
      · assumption
      · exact hin
    · exact h.inside i hi
  · have hle : p.index ≤ if p.index + 1 < p.tokens.length then p.index + 1 else p.index := by
      split
      · exact Nat.le_succ _
      · exact Nat.le_refl _
    -- the new place is not before the last one, and so before none
    refine List.pairwise_cons.2 ⟨?_, h.neverBack⟩
    intro i hi
    rcases List.mem_cons.1 hi with rfl | hi
    · exact hle
    · exact Nat.le_trans ((List.pairwise_cons.1 h.neverBack).1 i hi) hle

end Tape

/-! ### Readers and what they answer -/

/-- What a reader answers on a tape. -/
def answer (x : Reader α) (p : Tape) : Option (Except Diagnostic α × Tape) := x.run.run p

/-- After a reader that succeeds, all is up to the next one. -/
theorem answer_bind_of_ok {x : Reader α} {f : α → Reader β} {p p' : Tape} {value : α}
    (h : answer x p = some (.ok value, p')) : answer (x >>= f) p = answer (f value) p' := by
  unfold answer at h ⊢
  rw [ExceptT.run_bind, StateT.run_bind, h]
  rfl

/-- An error ends the whole program, and leaves the cursor where it is. -/
theorem answer_bind_of_error {x : Reader α} {f : α → Reader β} {p p' : Tape} {error : Diagnostic}
    (h : answer x p = some (.error error, p')) :
    answer (x >>= f) p = some (.error error, p') := by
  unfold answer at h ⊢
  rw [ExceptT.run_bind, StateT.run_bind, h]
  rfl

/-- The reader only looks, and sees the given value. -/
def Sees (x : Reader α) (c : Cursor) (value : α) : Prop :=
  ∀ p : Tape, p.StandsAt c → answer x p = some (.ok value, p)

/-- The reader on a tape comes to an end as the reader of the grammar does that starts at the same
place, and the trail stays sound. -/
def Follows (x : Reader α) (s : Step α c least) : Prop :=
  ∀ p : Tape, p.StandsAt c → ∃ p' : Tape, answer x p = some (s.result, p') ∧
    p'.StandsAt s.rest ∧ p'.tokens = p.tokens ∧ (p.Sound → p'.Sound)

/-- On a tape that stands at a cursor there is a token to look at. -/
theorem sees_current (c : Cursor) : Sees current c c.current := by
  intro p hp
  show (liftM p.tokens[p.index]? : Reader Token).run.run p = _
  rw [hp.getElem?_eq]
  rfl

theorem Sees.map {x : Reader α} {value : α} (h : Sees x c value) (f : α → β) :
    Sees (x >>= fun value => pure (f value)) c (f value) := by
  intro p hp
  rw [answer_bind_of_ok (h p hp)]
  rfl

theorem sees_kind (c : Cursor) : Sees kind c c.kind := (sees_current c).map Token.kind

theorem sees_position (c : Cursor) : Sees position c c.position :=
  (sees_current c).map fun token => token.span.start

theorem sees_spanFrom (start : Position) (c : Cursor) :
    Sees (spanFrom start) c (c.spanFrom start) :=
  (sees_position c).map (Span.mk start)

theorem sees_kindAhead (n : Nat) (c : Cursor) : Sees (kindAhead n) c (c.kindAhead n) := by
  intro p hp
  obtain ⟨t, ht, hkind⟩ := hp.getElem?_ahead n
  show (do
    let token : Token ← liftM p.tokens[min (p.index + n) (p.tokens.length - 1)]?
    return token.kind : Reader TokenKind).run.run p = _
  rw [ht, ← hkind]
  rfl

/-- Looking before reading makes no difference to the tape. -/
theorem Sees.andThen {x : Reader α} {f : α → Reader β} {value : α} {s : Step β c least}
    (h : Sees x c value) (hf : Follows (f value) s) : Follows (x >>= f) s := by
  intro p hp
  rw [answer_bind_of_ok (h p hp)]
  exact hf p hp

theorem follows_pure (value : α) : Follows (pure value) (.pure value : Step α c 0) := by
  intro p hp
  exact ⟨p, rfl, hp, rfl, id⟩

/-- A reader that gives up leaves the cursor where it is. -/
theorem follows_fail (error : Diagnostic) :
    Follows (throw error) (.fail error : Step α c least) := by
  intro p hp
  exact ⟨p, rfl, hp, rfl, id⟩

/-- Both readers decide the same question. -/
theorem follows_ite {P : Prop} [Decidable P] {x y : Reader α} {s s' : Step α c least}
    (hyes : P → Follows x s) (hno : ¬P → Follows y s') :
    Follows (if P then x else y) (if P then s else s') := by
  split
  · exact hyes ‹P›
  · exact hno ‹¬P›

/-- How many tokens a reader is known to take has no counterpart on a tape. -/
theorem Follows.any {x : Reader α} {s : Step α c least} (h : Follows x s) : Follows x s.any := by
  intro p hp
  rw [Step.result_any, Step.rest_any]
  exact h p hp

theorem Follows.map {x : Reader α} {s : Step α c least} (h : Follows x s) (f : α → β) :
    Follows (x >>= fun value => pure (f value)) (s.map f) := by
  intro p hp
  obtain ⟨p', hanswer, hafter⟩ := h p hp
  refine ⟨p', ?_, ?_⟩
  · cases s with
    | done value rest left => exact answer_bind_of_ok hanswer
    | stop error rest left => exact answer_bind_of_error hanswer
  · rw [Step.rest_map]
    exact hafter

theorem Follows.andThen {x : Reader α} {f : α → Reader β} {s : Step α c least}
    {next : (value : α) → (rest : Cursor) → rest.remaining + least ≤ c.remaining →
      Step β rest more} (h : Follows x s)
    (hf : ∀ value rest left, Follows (f value) (next value rest left)) :
    Follows (x >>= f) (s.andThen next) := by
  intro p hp
  obtain ⟨p', hanswer, hp', htokens, hsound⟩ := h p hp
  cases s with
  | stop error rest left => exact ⟨p', answer_bind_of_error hanswer, hp', htokens, hsound⟩
  | done value rest left =>
    obtain ⟨q, hq, hstands, ht, hs⟩ := hf value rest left.remaining_le p' hp'
    refine ⟨q, ?_, ?_, ht.trans htokens, hs ∘ hsound⟩
    -- the second step keeps its answer when it is counted from the start of the first
    · rw [answer_bind_of_ok hanswer, hq]
      unfold Step.andThen
      dsimp only
      split
      · next hn => rw [hn]; rfl
      · next hn => rw [hn]; rfl
    · unfold Step.andThen
      dsimp only
      split
      · next hn => rw [hn] at hstands; exact hstands
      · next hn => rw [hn] at hstands; exact hstands

/-- Going on after a token that is there, with fewer tokens left. -/
theorem Follows.readThen {x : Reader α} {f : α → Reader β} {kind : TokenKind}
    {s : Step α c kind.width}
    {next : (value : α) → (rest : Cursor) → rest.remaining + kind.width ≤ c.remaining →
      Step β rest more} (h : Follows x s) (hk : kind.width = 1)
    (hf : ∀ value rest left, rest.remaining < c.remaining →
      Follows (f value) (next value rest left)) :
    Follows (x >>= f) (s.andThen next) :=
  h.andThen fun value rest left => hf value rest left (by omega)

/-! ### Reading one token -/

/-- A token is read by moving past it. -/
theorem follows_advance_cons {t : Token} {ts : List Token} {closing : EndMark}
    (left : (⟨ts, closing⟩ : Cursor).Left ⟨t :: ts, closing⟩ least) :
    Follows advance (.done t ⟨ts, closing⟩ left) := by
  intro p hp
  refine ⟨p.forward, ?_, hp.forward_cons, rfl, Tape.Sound.forward⟩
  exact answer_bind_of_ok (sees_current _ p hp)

/-- The end mark can be read again and again. -/
theorem follows_advance_nil {closing : EndMark} :
    Follows advance (.pure closing.token : Step Token ⟨[], closing⟩ 0) := by
  intro p hp
  refine ⟨p.forward, ?_, hp.forward_nil, rfl, Tape.Sound.forward⟩
  exact answer_bind_of_ok (sees_current _ p hp)

theorem follows_read (c : Cursor) : Follows advance c.read := by
  obtain ⟨_ | ⟨t, ts⟩, closing⟩ := c
  · exact follows_advance_nil
  · exact follows_advance_cons _

/-- A token that is no end mark can be read. -/
theorem follows_take {c : Cursor} (h : c.kind ≠ .eof) : Follows advance c.take := by
  obtain ⟨_ | ⟨t, ts⟩, closing⟩ := c
  · exact absurd rfl h
  · exact follows_advance_cons _

/-- The error names the token that is out of place. -/
theorem follows_refuse (c : Cursor) : Follows refuse (.fail c.unexpected : Step α c least) :=
  (sees_current c).andThen (follows_fail _)

theorem follows_refuseBut (message : String) (c : Cursor) :
    Follows (refuseBut message) (.fail (c.unexpectedBut message) : Step α c least) :=
  (sees_current c).andThen (follows_fail _)

/-- A token that is asked for is read, or the reader gives up with the given error. -/
theorem follows_expectOr {wanted : TokenKind} {error : Diagnostic} {refusal : Reader Token}
    (h : Follows refusal (.fail error : Step Token c wanted.width)) :
    Follows (do if (← kind) = wanted then advance else refusal) (c.expectOr wanted error) := by
  refine (sees_kind c).andThen ?_
  obtain ⟨_ | ⟨t, ts⟩, closing⟩ := c
  -- the end mark is the only token that is still there at the end
  · cases wanted with
    | eof => exact follows_advance_nil
    | _ => exact h
  · exact follows_ite (fun _ => follows_advance_cons _) fun _ => h

theorem follows_expect (wanted : TokenKind) (c : Cursor) :
    Follows (expect wanted) (c.expect wanted) :=
  follows_expectOr (follows_refuse c)

theorem follows_expectBut (wanted : TokenKind) (message : String) (c : Cursor) :
    Follows (expectBut wanted message) (c.expectBut wanted message) :=
  follows_expectOr (follows_refuseBut message c)

theorem follows_eat (wanted : TokenKind) (c : Cursor) : Follows (eat wanted) (c.eat wanted) :=
  (sees_kind c).andThen <|
    follows_ite (fun _ => (follows_read c).map _) fun _ => follows_pure _

end ThreadRegions.Limited
