import ThreadRegions.Diagnostic
import ThreadRegions.Token

/-!
# Reading a list of tokens

A cursor is a place in a list of tokens, and a step is what a reader that starts at a cursor
answers.

## Main Definitions

* `Cursor`: the tokens that are still ahead, and the end mark behind them
* `Step`: a value or an error, together with the cursor it leaves
* `Step.andThen`: reading one thing after another
* `Cursor.expect`, `Cursor.eat`, `Cursor.take`, `Cursor.read`: reading one token

## Design Notes

The end mark is never read past: a cursor without tokens ahead stands at it and stays there.  An
end mark among the tokens ahead is an ordinary token, so that any list of tokens can be read.

A step carries the proof that its cursor is left of the cursor it started from, and a successful one
says how many tokens it has read at least.  This is what makes the mutually recursive readers of the
grammar end, whatever the tokens are.
-/

namespace ThreadRegions

/-- The end of a list of tokens. -/
structure EndMark where
  /-- The text that errors show for it. -/
  value : String
  /-- Where it stands. -/
  span : Span
  deriving DecidableEq, Repr

/-- The end mark as a token. -/
def EndMark.token (e : EndMark) : Token := ⟨.eof, e.value, e.span⟩

/-- A place in a list of tokens. -/
structure Cursor where
  /-- The tokens before the end mark that have not been read. -/
  ahead : List Token
  /-- The end mark. -/
  closing : EndMark
  deriving DecidableEq, Repr

namespace Cursor

/-- The beginning of a list of tokens.  A list that does not end in an end mark gets one, which
stands where the last token ends. -/
def ofTokens (tokens : List Token) (file : String) : Cursor :=
  match tokens.getLast? with
  | none => ⟨[], ⟨"EOF", ⟨⟨0, file⟩, ⟨0, file⟩⟩⟩⟩
  | some last =>
    if last.kind = .eof then ⟨tokens.dropLast, ⟨last.value, last.span⟩⟩
    else ⟨tokens, ⟨"EOF", ⟨last.span.stop, last.span.stop⟩⟩⟩

/-- The token the cursor stands at. -/
def current (c : Cursor) : Token := c.ahead.headD c.closing.token

/-- The kind of the token the cursor stands at. -/
def kind (c : Cursor) : TokenKind := c.current.kind

/-- The kind of the token `n` places ahead. -/
def kindAhead (c : Cursor) (n : Nat) : TokenKind :=
  match c.ahead[n]? with
  | some t => t.kind
  | none => .eof

/-- Where the current token begins. -/
def position (c : Cursor) : Position := c.current.span.start

/-- The text from `start` up to the current token. -/
def spanFrom (c : Cursor) (start : Position) : Span := ⟨start, c.position⟩

/-- Whether the cursor stands at something other than an end mark. -/
def hasMore (c : Cursor) : Bool := c.kind ≠ .eof

/-- Number of tokens before the end mark that have not been read. -/
def remaining (c : Cursor) : Nat := c.ahead.length

/-- The error that the current token is out of place. -/
def unexpected (c : Cursor) : Diagnostic := ⟨.unexpectedToken c.current.value, c.position⟩

/-- The error that the current token is out of place, with what would have been in place. -/
def unexpectedBut (c : Cursor) (message : String) : Diagnostic :=
  ⟨.unexpectedTokenDetailed c.current.value message, c.position⟩

/-- The cursor `rest` is left of `start` after `least` or more tokens have been read. -/
structure Left (rest start : Cursor) (least : Nat) : Prop where
  read_append : ∃ read, start.ahead = read ++ rest.ahead ∧ least ≤ read.length
  closing_eq : rest.closing = start.closing

namespace Left

variable {a b c : Cursor} {m n : Nat}

theorem refl (c : Cursor) : c.Left c 0 := ⟨⟨[], rfl, Nat.le_refl 0⟩, rfl⟩

/-- What two readers have read one after the other. -/
theorem trans (hab : b.Left a m) (hbc : c.Left b n) : c.Left a (m + n) := by
  obtain ⟨⟨r, hr, hm⟩, hclose⟩ := hab
  obtain ⟨⟨r', hr', hn⟩, hclose'⟩ := hbc
  refine ⟨⟨r ++ r', ?_, ?_⟩, hclose'.trans hclose⟩
  · rw [hr, hr', List.append_assoc]
  · rw [List.length_append]; omega

/-- A cursor that is further on is also less far on. -/
theorem mono (h : b.Left a n) (hmn : m ≤ n) : b.Left a m := by
  obtain ⟨⟨r, hr, hn⟩, hclose⟩ := h
  exact ⟨⟨r, hr, Nat.le_trans hmn hn⟩, hclose⟩

/-- What has been read is no longer ahead.  The recursion of the readers rests on this. -/
theorem remaining_le (h : b.Left a n) : b.remaining + n ≤ a.remaining := by
  obtain ⟨⟨r, hr, hn⟩, -⟩ := h
  rw [remaining, remaining, hr, List.length_append]
  omega

theorem one_of_cons {t : Token} {ts : List Token} {e : EndMark} :
    (⟨ts, e⟩ : Cursor).Left ⟨t :: ts, e⟩ 1 :=
  ⟨⟨[t], rfl, Nat.le_refl 1⟩, rfl⟩

theorem any_of_cons {t : Token} {ts : List Token} {e : EndMark} :
    (⟨ts, e⟩ : Cursor).Left ⟨t :: ts, e⟩ 0 :=
  one_of_cons.mono (Nat.zero_le 1)

end Left

end Cursor

/-- What a reader that starts at `start` answers.  If it succeeds, it has read `least` or more
tokens. -/
inductive Step (α : Type) (start : Cursor) (least : Nat) where
  | done (value : α) (rest : Cursor) (left : rest.Left start least)
  | stop (error : Diagnostic) (rest : Cursor) (left : rest.Left start 0)

namespace Step

variable {α β : Type} {start : Cursor} {least more : Nat}

/-- The value or the error. -/
def result : Step α start least → Except Diagnostic α
  | done value _ _ => .ok value
  | stop error _ _ => .error error

/-- The cursor that is left, in either case. -/
def rest : Step α start least → Cursor
  | done _ rest _ => rest
  | stop _ rest _ => rest

/-- Answers without reading anything. -/
def pure (value : α) : Step α start 0 := .done value start (.refl start)

/-- Gives up without reading anything. -/
def fail (error : Diagnostic) : Step α start least := .stop error start (.refl start)

/-- The same step with its value changed. -/
def map (f : α → β) : Step α start least → Step β start least
  | done value rest left => .done (f value) rest left
  | stop error rest left => .stop error rest left

/-- The same step, with nothing said about how much it has read. -/
def any : Step α start least → Step α start 0
  | done value rest left => .done value rest (left.mono (Nat.zero_le _))
  | stop error rest left => .stop error rest left

/-- Goes on from where a step ended.  The first step says how much is read. -/
def andThen (s : Step α start least)
    (next : (value : α) → (rest : Cursor) → rest.remaining + least ≤ start.remaining →
      Step β rest more) : Step β start least :=
  match s with
  | done value rest left =>
    match next value rest left.remaining_le with
    | done value' rest' left' =>
      .done value' rest' ((left.trans left').mono (Nat.le_add_right _ _))
    | stop error rest' left' => .stop error rest' ((left.trans left').mono (Nat.zero_le _))
  | stop error rest left => .stop error rest left

@[simp] theorem result_map (f : α → β) (s : Step α start least) :
    (s.map f).result = s.result.map f := by
  cases s <;> rfl

@[simp] theorem rest_map (f : α → β) (s : Step α start least) : (s.map f).rest = s.rest := by
  cases s <;> rfl

@[simp] theorem result_any (s : Step α start least) : s.any.result = s.result := by
  cases s <;> rfl

@[simp] theorem rest_any (s : Step α start least) : s.any.rest = s.rest := by
  cases s <;> rfl

/-- Whatever happens, a reader leaves a cursor that is left of its start. -/
theorem left_rest (s : Step α start least) : s.rest.Left start 0 := by
  cases s with
  | done _ _ left => exact left.mono (Nat.zero_le _)
  | stop _ _ left => exact left

end Step

/-- By how many tokens reading a token of this kind moves a cursor at least.  An end mark may be the
one that is never read past. -/
def TokenKind.width : TokenKind → Nat
  | .eof => 0
  | _ => 1

namespace Cursor

/-- Reads the current token, whatever it is. -/
def read (c : Cursor) : Step Token c 0 :=
  match c with
  | ⟨[], closing⟩ => .pure closing.token
  | ⟨t :: ts, closing⟩ => .done t ⟨ts, closing⟩ .any_of_cons

/-- Reads a token from before the end mark. -/
def take (c : Cursor) : Step Token c 1 :=
  match c with
  | ⟨[], closing⟩ => .fail (unexpected ⟨[], closing⟩)
  | ⟨t :: ts, closing⟩ => .done t ⟨ts, closing⟩ .one_of_cons

/-- Reads a token of the given kind, or fails with `error`. -/
def expectOr (c : Cursor) (wanted : TokenKind) (error : Diagnostic) : Step Token c wanted.width :=
  match c with
  | ⟨[], closing⟩ =>
    match wanted with
    | .eof => .pure closing.token
    | _ => .fail error
  | ⟨t :: ts, closing⟩ =>
    if t.kind = wanted then
      .done t ⟨ts, closing⟩ (Left.one_of_cons.mono (by cases wanted <;> simp [TokenKind.width]))
    else .fail error

/-- Reads a token of the given kind. -/
def expect (c : Cursor) (wanted : TokenKind) : Step Token c wanted.width :=
  c.expectOr wanted c.unexpected

/-- Reads a token of the given kind, or says what was expected. -/
def expectBut (c : Cursor) (wanted : TokenKind) (message : String) : Step Token c wanted.width :=
  c.expectOr wanted (c.unexpectedBut message)

/-- Reads a token of the given kind if there is one, and says whether there was. -/
def eat (c : Cursor) (wanted : TokenKind) : Step Bool c 0 :=
  if c.kind = wanted then c.read.map fun _ => true else .pure false

end Cursor

end ThreadRegions
