import ThreadRegions.Diagnostic
import ThreadRegions.Text.Blank
import ThreadRegions.Token
import ThreadRegions.Token.Escape

/-!
# From text to tokens

The scanner cuts a source text into lexemes, one after the other, and turns those that mean
something into tokens.

## Main Definitions

* `Lexeme`: the first piece of a text, and what is left of the text
* `lexeme?`: the piece that a text begins with
* `tokensFrom`, `tokenize`: all tokens of a text

## Design Notes

A lexeme is a non-empty beginning of its text (`begins_of_lexeme?`).  That is why the scanner ends,
and why the lexemes of a text lie side by side without gaps.

Letters and digits are those of ASCII.  No other letter can begin a token, so after a number suffix
it makes no difference whether such a letter counts as part of a word: the text is refused at that
letter in either case.
-/

namespace ThreadRegions

/-- A letter or an underscore. -/
def startsWord (c : Char) : Bool := c.isAlpha || c = '_'

/-- A letter, a digit or an underscore. -/
def continuesWord (c : Char) : Bool := c.isAlphanum || c = '_'

/-- What a lexeme stands for. -/
inductive Meaning where
  /-- White space or a comment. -/
  | nothing
  | token (kind : TokenKind) (value : List Char)
  /-- A literal without a meaning. -/
  | malformed (cause : Cause)
  deriving DecidableEq, Repr

/-- The first piece of a text. -/
structure Lexeme where
  /-- The piece. -/
  text : List Char
  /-- What follows it. -/
  rest : List Char
  /-- What it stands for. -/
  meaning : Meaning
  deriving DecidableEq, Repr

/-- The piece is a non-empty beginning of `input`. -/
structure Lexeme.Begins (l : Lexeme) (input : List Char) : Prop where
  text_append_rest : l.text ++ l.rest = input
  text_ne_nil : l.text ≠ []

/-- A lexeme takes at least one character away. -/
theorem Lexeme.Begins.length_rest_lt {l : Lexeme} {input : List Char} (h : l.Begins input) :
    l.rest.length < input.length := by
  have hlen := congrArg List.length h.text_append_rest
  have hpos := List.length_pos_iff.mpr h.text_ne_nil
  simp only [List.length_append] at hlen
  omega

/-- The lexeme of `c` and all characters right after it that satisfy `p`. -/
def Lexeme.ofRun (p : Char → Bool) (meaning : List Char → Meaning) (c : Char) (cs : List Char) :
    Lexeme :=
  ⟨c :: cs.takeWhile p, cs.dropWhile p, meaning (c :: cs.takeWhile p)⟩

theorem Lexeme.ofRun_begins (p : Char → Bool) (meaning : List Char → Meaning) (c : Char)
    (cs : List Char) : (Lexeme.ofRun p meaning c cs).Begins (c :: cs) :=
  ⟨by simp [Lexeme.ofRun], by simp [Lexeme.ofRun]⟩

/-- A reserved word or a name. -/
def wordMeaning (text : List Char) : Meaning :=
  match Keyword.ofText? (String.ofList text) with
  | some k => .token (.word k) text
  | none => .token .identifier text

/-- A suffix that marks a long integer, not followed by more of a word. -/
def isLongSuffix (c : Char) (rest : List Char) : Bool :=
  (c = 'l' || c = 'L') && !(rest.head?.any continuesWord)

/-- The number with the given leading digits, where `rest` follows them: a long suffix ends it, and
a point goes on with more digits. -/
def Lexeme.ofDigits (digits : List Char) (rest : List Char) : Lexeme :=
  match rest with
  | [] => ⟨digits, [], .token .number digits⟩
  | c :: tail =>
    if isLongSuffix c tail then ⟨digits ++ [c], tail, .token .longNumber digits⟩
    else if c = '.' && tail.head?.any Char.isDigit then
      let text := digits ++ c :: tail.takeWhile Char.isDigit
      ⟨text, tail.dropWhile Char.isDigit, .token .number text⟩
    else ⟨digits, c :: tail, .token .number digits⟩

theorem Lexeme.ofDigits_begins {digits : List Char} (h : digits ≠ []) (rest : List Char) :
    (Lexeme.ofDigits digits rest).Begins (digits ++ rest) := by
  unfold Lexeme.ofDigits
  split
  · exact ⟨rfl, h⟩
  · split
    · exact ⟨by simp, by simp⟩
    · split
      · exact ⟨by simp, by simp⟩
      · exact ⟨rfl, h⟩

/-- The number that begins with the digit `c`. -/
def Lexeme.ofNumber (c : Char) (cs : List Char) : Lexeme :=
  .ofDigits (c :: cs.takeWhile Char.isDigit) (cs.dropWhile Char.isDigit)

theorem Lexeme.ofNumber_begins (c : Char) (cs : List Char) :
    (Lexeme.ofNumber c cs).Begins (c :: cs) := by
  have h := Lexeme.ofDigits_begins (List.cons_ne_nil c (cs.takeWhile Char.isDigit))
    (cs.dropWhile Char.isDigit)
  rwa [List.cons_append, List.takeWhile_append_dropWhile] at h

/-- The body of a literal up to its closing quote, and what follows the quote.  A backslash protects
the character after it, which must not be a newline. -/
def quotedBody (quote : Char) : List Char → Option (List Char × List Char)
  | [] => none
  | c :: cs =>
    if c = quote then some ([], cs)
    else if c = '\\' then
      match cs with
      | [] => none
      | d :: ds =>
        if d = '\n' then none
        else (quotedBody quote ds).map fun (body, rest) => (c :: d :: body, rest)
    else (quotedBody quote cs).map fun (body, rest) => (c :: body, rest)

/-- The body, the closing quote and what follows it are the text. -/
theorem quotedBody_eq {quote : Char} {cs body rest : List Char}
    (h : quotedBody quote cs = some (body, rest)) : body ++ quote :: rest = cs := by
  fun_induction quotedBody quote cs generalizing body rest with
  | case1 => simp at h
  | case2 cs =>
    simp only [Option.some.injEq, Prod.mk.injEq] at h
    obtain ⟨rfl, rfl⟩ := h
    rfl
  | case3 => simp at h
  | case4 => simp at h
  | case5 d ds _ _ ih =>
    obtain ⟨⟨b, r⟩, hb, he⟩ := Option.map_eq_some_iff.mp h
    simp only [Prod.mk.injEq] at he
    obtain ⟨rfl, rfl⟩ := he
    simp [ih hb]
  | case6 c cs _ _ ih =>
    obtain ⟨⟨b, r⟩, hb, he⟩ := Option.map_eq_some_iff.mp h
    simp only [Prod.mk.injEq] at he
    obtain ⟨rfl, rfl⟩ := he
    simp [ih hb]

/-- The literal between two quotes, if the opening quote has been read. -/
def Lexeme.ofQuoted? (quote : Char) (meaning : List Char → Meaning) (cs : List Char) :
    Option Lexeme :=
  (quotedBody quote cs).map fun (body, rest) => ⟨quote :: body ++ [quote], rest, meaning body⟩

theorem Lexeme.begins_of_ofQuoted? {quote : Char} {meaning : List Char → Meaning} {cs : List Char}
    {l : Lexeme} (h : Lexeme.ofQuoted? quote meaning cs = some l) : l.Begins (quote :: cs) := by
  obtain ⟨⟨body, rest⟩, hb, rfl⟩ := Option.map_eq_some_iff.mp h
  exact ⟨by simpa using quotedBody_eq hb, by simp⟩

/-- The error of a hexadecimal escape without digits. -/
def Meaning.badEscape : Meaning := .malformed (.numberParseError "\\x")

/-- What a string literal with the given body stands for. -/
def stringMeaning (body : List Char) : Meaning :=
  match unescape body with
  | none => .badEscape
  | some value => .token .string value

/-- What a character literal with the given body stands for.  It has to be one character. -/
def charMeaning (body : List Char) : Meaning :=
  match unescape body with
  | none => .badEscape
  | some [c] => .token .charLiteral [c]
  | some _ => .malformed (.invalidCharLiteral (String.ofList ('\'' :: body ++ ['\''])))

/-- The punctuation that a text begins with. -/
def Lexeme.ofPunct? (input : List Char) : Option Lexeme :=
  (Punct.all.find? fun p => p.chars.isPrefixOf input).map fun p =>
    ⟨p.chars, input.drop p.chars.length, .token (.punct p) p.chars⟩

/-- The punctuation that is found stands at the beginning of the text. -/
theorem Lexeme.begins_of_ofPunct? {input : List Char} {l : Lexeme}
    (h : Lexeme.ofPunct? input = some l) : l.Begins input := by
  obtain ⟨p, hp, rfl⟩ := Option.map_eq_some_iff.mp h
  have hprefix : p.chars <+: input :=
    List.isPrefixOf_iff_prefix.mp (by simpa using List.find?_some hp)
  exact ⟨(List.prefix_iff_eq_append.mp hprefix), by cases p <;> simp [Punct.chars]⟩

/-- The lexeme that a text begins with.  There is none if the first character fits nothing. -/
def lexeme? (c : Char) (cs : List Char) : Option Lexeme :=
  if startsWord c then some (.ofRun continuesWord wordMeaning c cs)
  else if c.isDigit then some (.ofNumber c cs)
  else if isBlank c then some (.ofRun isBlank (fun _ => .nothing) c cs)
  else if c = '"' then Lexeme.ofQuoted? '"' stringMeaning cs
  else if c = '\'' then Lexeme.ofQuoted? '\'' charMeaning cs
  else if c = '/' && cs.head? = some '/' then some (.ofRun (· ≠ '\n') (fun _ => .nothing) c cs)
  else Lexeme.ofPunct? (c :: cs)

/-- A lexeme is a non-empty beginning of the text it was taken from. -/
theorem begins_of_lexeme? {c : Char} {cs : List Char} {l : Lexeme} (h : lexeme? c cs = some l) :
    l.Begins (c :: cs) := by
  unfold lexeme? at h
  split at h
  · cases h; exact Lexeme.ofRun_begins ..
  split at h
  · cases h; exact Lexeme.ofNumber_begins ..
  split at h
  · cases h; exact Lexeme.ofRun_begins ..
  split at h
  · next hc => subst hc; exact Lexeme.begins_of_ofQuoted? h
  split at h
  · next hc => subst hc; exact Lexeme.begins_of_ofQuoted? h
  split at h
  · cases h; exact Lexeme.ofRun_begins ..
  · exact Lexeme.begins_of_ofPunct? h

/-- The tokens of a text that begins `offset` bytes into its file, with the end of the text as the
last one. -/
def tokensFrom (file : String) (offset : Nat) (cs : List Char) :
    Except Diagnostic (List Token) :=
  match cs with
  | [] => .ok [⟨.eof, "EOF", Span.ofLength file offset 0⟩]
  | c :: cs =>
    match (lexeme? c cs).attach with
    | none => .error ⟨.unrecognisedToken (String.singleton c), ⟨offset, file⟩⟩
    | some ⟨l, _found⟩ =>
      let size := utf8Length l.text
      match l.meaning with
      | .malformed cause => .error ⟨cause, ⟨offset, file⟩⟩
      | .nothing => tokensFrom file (offset + size) l.rest
      | .token kind value =>
        (tokensFrom file (offset + size) l.rest).map
          (⟨kind, String.ofList value, Span.ofLength file offset size⟩ :: ·)
termination_by cs.length
decreasing_by all_goals exact (begins_of_lexeme? _found).length_rest_lt

/-- The file name that is used for a text without one. -/
def unnamedFile : String := "shell"

/-- The tokens of a source text, or the first thing that is wrong with it. -/
def tokenize (source : String) (file : String) : Except Diagnostic (List Token) :=
  tokensFrom file 0 source.toList

end ThreadRegions
