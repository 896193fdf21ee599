import Mathlib.Data.List.TakeWhile
import Mathlib.Data.String.Basic
import ThreadRegions.Token.Lexer

/-!
# Tokens tile their source

The tokens of a text lie side by side in it.  What a token covers is a way to write that token, and
between two tokens there is nothing but white space and comments.

## Main Definitions

* `WrittenAs`: the ways to write a token
* `Filler`: white space and comments, up to where a token begins
* `Tiles`: a text that is cut into tokens and filler
* `Span.textIn`: the part of a source that a span covers
* `Tiling`: the places of tokens in their source
* `Limited.scan`: the scanner as a loop over byte offsets, with a limit on its rounds

## Main Results

* `tiles_of_tokensFrom`: the scanner cuts its text into tokens and filler
* `Limited.tokenize_eq`: the loop comes to an end
* `tokenize_tiles`: the tokens of a source tile it

## Design Notes

`tokensFrom` takes a lexeme away from a list of characters, and is a function because a lexeme is
not empty.  `Limited.scan` knows nothing of that.  It holds a byte offset, looks at the source from
there on, and moves the offset on by the length of what it found.  It answers `none` if it is not
done after the given number of rounds.  That the two agree says that every lexeme is as long as the
text it was found for, and that the loop ends.
-/

namespace ThreadRegions

/-! ### How tokens are written -/

/-- One or more digits. -/
def IsDigits (text : List Char) : Prop := text ≠ [] ∧ ∀ c ∈ text, c.isDigit

/-- A letter or an underscore, with letters, digits and underscores behind it. -/
def IsWord : List Char → Prop
  | [] => False
  | c :: cs => startsWord c ∧ ∀ d ∈ cs, continuesWord d

/-- A text that can stand between two quotes: a backslash protects the character after it, which
is not a newline, and nothing else is a quote. -/
inductive Quotable (quote : Char) : List Char → Prop
  | nil : Quotable quote []
  | escape {d : Char} {body : List Char} :
      d ≠ '\n' → Quotable quote body → Quotable quote ('\\' :: d :: body)
  | plain {c : Char} {body : List Char} :
      c ≠ quote → c ≠ '\\' → Quotable quote body → Quotable quote (c :: body)

/-- A token of the given kind, with the given value, is written as the given text. -/
inductive WrittenAs : TokenKind → List Char → List Char → Prop
  | identifier {text : List Char} :
      IsWord text → Keyword.ofText? (String.ofList text) = none → WrittenAs .identifier text text
  | word (k : Keyword) : WrittenAs (.word k) k.text.toList k.text.toList
  | integer {digits : List Char} : IsDigits digits → WrittenAs .number digits digits
  | fraction {whole part : List Char} :
      IsDigits whole → IsDigits part →
        WrittenAs .number (whole ++ '.' :: part) (whole ++ '.' :: part)
  | long {digits : List Char} {suffix : Char} :
      IsDigits digits → (suffix = 'l' ∨ suffix = 'L') →
        WrittenAs .longNumber digits (digits ++ [suffix])
  | punct (p : Punct) : WrittenAs (.punct p) p.chars p.chars
  | string {body value : List Char} :
      Quotable '"' body → unescape body = some value →
        WrittenAs .string value ('"' :: body ++ ['"'])
  | char {body : List Char} {c : Char} :
      Quotable '\'' body → unescape body = some [c] →
        WrittenAs .charLiteral [c] ('\'' :: body ++ ['\''])

/-- No token is written with nothing. -/
theorem WrittenAs.text_ne_nil {kind : TokenKind} {value text : List Char}
    (h : WrittenAs kind value text) : text ≠ [] := by
  cases h with
  | identifier hw _ =>
    rintro rfl
    exact hw
  | word k => cases k <;> decide
  | integer hd => exact hd.1
  | punct p => cases p <;> decide
  | _ => simp

/-- The end mark is not written at all. -/
theorem WrittenAs.kind_ne_eof {kind : TokenKind} {value text : List Char}
    (h : WrittenAs kind value text) : kind ≠ .eof := by
  cases h <;> exact TokenKind.noConfusion

/-! ### Lexemes that are tokens -/

/-- What the scanner finds between two quotes can stand there. -/
theorem quotable_of_quotedBody {quote : Char} {cs body rest : List Char}
    (h : quotedBody quote cs = some (body, rest)) : Quotable quote body := by
  fun_induction quotedBody quote cs generalizing body rest with
  | case1 => cases h
  | case2 cs =>
    cases h
    exact .nil
  | case3 => cases h
  | case4 => cases h
  | case5 d ds hd _ ih =>
    obtain ⟨⟨b, r⟩, hb, he⟩ := Option.map_eq_some_iff.1 h
    cases he
    exact .escape hd (ih hb)
  | case6 c cs hq hc ih =>
    obtain ⟨⟨b, r⟩, hb, he⟩ := Option.map_eq_some_iff.1 h
    cases he
    exact .plain hq hc (ih hb)

section Lexemes

variable {c : Char} {cs value : List Char} {kind : TokenKind}

/-- A word is a keyword or an identifier. -/
theorem writtenAs_of_wordMeaning {text : List Char} (hw : IsWord text)
    (h : wordMeaning text = .token kind value) : WrittenAs kind value text := by
  unfold wordMeaning at h
  split at h
  · next k hk =>
    cases h
    have htext : value = k.text.toList := by
      rw [Keyword.text_of_ofText? hk, String.toList_ofList]
    rw [htext]
    exact .word k
  · next hk =>
    cases h
    exact .identifier hw hk

/-- Behind the first digits there may be the suffix of a long number or a fraction.  Anything else
is left to the next token. -/
theorem writtenAs_of_digits {digits rest : List Char} (hd : IsDigits digits)
    (h : (Lexeme.ofDigits digits rest).meaning = .token kind value) :
    WrittenAs kind value (Lexeme.ofDigits digits rest).text := by
  unfold Lexeme.ofDigits at h ⊢
  split at h
  · cases h
    exact .integer hd
  · next d tail =>
    dsimp only at h ⊢
    split at h
    · next hsuffix =>
      rw [if_pos hsuffix]
      cases h
      rw [isLongSuffix] at hsuffix
      exact .long hd (by simpa using (Bool.and_eq_true_iff.1 hsuffix).1)
    · next hsuffix =>
      rw [if_neg hsuffix]
      split at h
      · next hpoint =>
        rw [if_pos hpoint]
        cases h
        obtain ⟨hdot, hdigit⟩ := Bool.and_eq_true_iff.1 hpoint
        obtain rfl : d = '.' := by simpa using hdot
        refine .fraction hd ⟨?_, fun e he => List.mem_takeWhile_imp he⟩
        cases tail with
        | nil => cases hdigit
        | cons e tail =>
          have he : e.isDigit = true := by simpa using hdigit
          simp [he]
      · next hpoint =>
        rw [if_neg hpoint]
        cases h
        exact .integer hd

/-- The first digits are all digits that come one after the other. -/
theorem writtenAs_of_number (hc : c.isDigit)
    (h : (Lexeme.ofNumber c cs).meaning = .token kind value) :
    WrittenAs kind value (Lexeme.ofNumber c cs).text := by
  refine writtenAs_of_digits ⟨List.cons_ne_nil _ _, fun d hd => ?_⟩ h
  rcases List.mem_cons.1 hd with rfl | hd
  · exact hc
  · exact List.mem_takeWhile_imp hd

/-- A string whose escapes can be read. -/
theorem writtenAs_of_stringMeaning {body : List Char} (hb : Quotable '"' body)
    (h : stringMeaning body = .token kind value) :
    WrittenAs kind value ('"' :: body ++ ['"']) := by
  unfold stringMeaning at h
  split at h
  · cases h
  · next hv =>
    cases h
    exact .string hb hv

/-- A text between single quotes that stands for one character. -/
theorem writtenAs_of_charMeaning {body : List Char} (hb : Quotable '\'' body)
    (h : charMeaning body = .token kind value) :
    WrittenAs kind value ('\'' :: body ++ ['\'']) := by
  unfold charMeaning at h
  split at h
  · cases h
  · next hv =>
    cases h
    exact .char hb hv
  · cases h

/-- A lexeme that is a token covers a way to write that token. -/
theorem writtenAs_of_lexeme? {l : Lexeme} (h : lexeme? c cs = some l)
    (hm : l.meaning = .token kind value) : WrittenAs kind value l.text := by
  -- the first character decides, in the order in which the scanner asks
  unfold lexeme? at h
  split at h
  · next hc =>
    cases h
    exact writtenAs_of_wordMeaning ⟨hc, fun d hd => List.mem_takeWhile_imp hd⟩ hm
  split at h
  · next hc =>
    cases h
    exact writtenAs_of_number hc hm
  split at h
  · cases h
    cases hm
  split at h
  · obtain ⟨⟨body, rest⟩, hb, rfl⟩ := Option.map_eq_some_iff.1 h
    exact writtenAs_of_stringMeaning (quotable_of_quotedBody hb) hm
  split at h
  · obtain ⟨⟨body, rest⟩, hb, rfl⟩ := Option.map_eq_some_iff.1 h
    exact writtenAs_of_charMeaning (quotable_of_quotedBody hb) hm
  split at h
  · cases h
    cases hm
  · obtain ⟨p, -, rfl⟩ := Option.map_eq_some_iff.1 h
    cases hm
    exact .punct p

end Lexemes

/-! ### Lexemes that are no tokens -/

/-- White space and comments, where `after` follows.  A comment goes on to the end of its line. -/
inductive Filler (after : List Char) : List Char → Prop
  | nil : Filler after []
  | blank {c : Char} {cs : List Char} : isBlank c → Filler after cs → Filler after (c :: cs)
  | comment {body cs : List Char} :
      '\n' ∉ body → (∀ d ∈ (cs ++ after).head?, d = '\n') → Filler after cs →
        Filler after ('/' :: '/' :: (body ++ cs))

theorem Filler.blanks {after run gap : List Char} (hrun : ∀ c ∈ run, isBlank c)
    (h : Filler after gap) : Filler after (run ++ gap) := by
  induction run with
  | nil => exact h
  | cons c run ih =>
    exact .blank (hrun c List.mem_cons_self) (ih fun d hd => hrun d (List.mem_cons_of_mem c hd))

/-- A word is not passed over. -/
theorem wordMeaning_ne_nothing (text : List Char) : wordMeaning text ≠ .nothing := by
  unfold wordMeaning
  split <;> exact Meaning.noConfusion

/-- A number is not passed over. -/
theorem ofDigits_ne_nothing (digits rest : List Char) :
    (Lexeme.ofDigits digits rest).meaning ≠ .nothing := by
  unfold Lexeme.ofDigits
  split
  · exact Meaning.noConfusion
  · split
    · exact Meaning.noConfusion
    · split <;> exact Meaning.noConfusion

theorem stringMeaning_ne_nothing (body : List Char) : stringMeaning body ≠ .nothing := by
  unfold stringMeaning
  split <;> exact Meaning.noConfusion

theorem charMeaning_ne_nothing (body : List Char) : charMeaning body ≠ .nothing := by
  unfold charMeaning
  split <;> exact Meaning.noConfusion

/-- A lexeme without a meaning is white space, or a comment that goes on to the end of the line. -/
theorem Filler.skip {c : Char} {cs gap after : List Char} {l : Lexeme}
    (h : lexeme? c cs = some l) (hm : l.meaning = .nothing) (hrest : l.rest = gap ++ after)
    (hgap : Filler after gap) : Filler after (l.text ++ gap) := by
  -- all but white space and comments have a meaning
  unfold lexeme? at h
  split at h
  · cases h
    exact absurd hm (wordMeaning_ne_nothing _)
  split at h
  · cases h
    exact absurd hm (ofDigits_ne_nothing _ _)
  split at h
  · next hc =>
    cases h
    refine .blanks (fun d hd => ?_) hgap
    rcases List.mem_cons.1 hd with rfl | hd
    · exact hc
    · exact List.mem_takeWhile_imp hd
  split at h
  · obtain ⟨⟨body, rest⟩, -, rfl⟩ := Option.map_eq_some_iff.1 h
    exact absurd hm (stringMeaning_ne_nothing _)
  split at h
  · obtain ⟨⟨body, rest⟩, -, rfl⟩ := Option.map_eq_some_iff.1 h
    exact absurd hm (charMeaning_ne_nothing _)
  split at h
  · next hc =>
    cases h
    obtain ⟨hslash, hnext⟩ := Bool.and_eq_true_iff.1 hc
    obtain rfl : c = '/' := by simpa using hslash
    obtain ⟨d, cs, rfl⟩ := List.exists_cons_of_ne_nil (show cs ≠ [] by rintro rfl; cases hnext)
    obtain rfl : d = '/' := by simpa using hnext
    show Filler after ('/' :: '/' :: (cs.takeWhile (· ≠ '\n') ++ gap))
    have hdrop : cs.dropWhile (· ≠ '\n') = gap ++ after := hrest
    -- the comment ends before the first newline, or at the end of the text
    refine .comment (fun hd => ?_) (fun d hd => ?_) hgap
    · simpa using List.mem_takeWhile_imp hd
    · rw [← hdrop] at hd
      have hstop := List.head?_dropWhile_not (fun c => decide (c ≠ '\n')) cs
      rw [Option.mem_def.1 hd] at hstop
      simpa using hstop
  · obtain ⟨p, -, rfl⟩ := Option.map_eq_some_iff.1 h
    cases hm

/-! ### Cutting a text into tokens -/

/-- The end mark of a text that ends `offset` bytes into its file. -/
def endToken (file : String) (offset : Nat) : Token := ⟨.eof, "EOF", Span.ofLength file offset 0⟩

/-- The token that covers `text`, where `text` begins `offset` bytes into its file. -/
def tokenAt (file : String) (offset : Nat) (kind : TokenKind) (value text : List Char) : Token :=
  ⟨kind, String.ofList value, Span.ofLength file offset (utf8Length text)⟩

/-- A text that begins `offset` bytes into its file consists of the given tokens, each with filler
before it.  The last token is the end mark. -/
inductive Tiles (file : String) : Nat → List Char → List Token → Prop
  | done {offset : Nat} {gap : List Char} :
      Filler [] gap → Tiles file offset gap [endToken file (offset + utf8Length gap)]
  | token {offset : Nat} {gap text rest value : List Char} {kind : TokenKind}
      {tokens : List Token} :
      Filler (text ++ rest) gap → WrittenAs kind value text →
        Tiles file (offset + utf8Length gap + utf8Length text) rest tokens →
          Tiles file offset (gap ++ (text ++ rest))
            (tokenAt file (offset + utf8Length gap) kind value text :: tokens)

theorem Tiles.skip {file : String} {offset : Nat} {c : Char} {cs : List Char} {l : Lexeme}
    {tokens : List Token} (hl : lexeme? c cs = some l) (hm : l.meaning = .nothing)
    (h : Tiles file (offset + utf8Length l.text) l.rest tokens) :
    Tiles file offset (l.text ++ l.rest) tokens := by
  -- the text and its offset have to be variables for the cases
  generalize hoff : offset + utf8Length l.text = next at h
  generalize hrest : l.rest = rest at h
  cases h with
  | done hgap =>
    have hskip := hgap.skip hl hm (by rw [hrest, List.append_nil])
    have hdone : Tiles file offset (l.text ++ rest) _ := .done hskip
    rwa [utf8Length_append, ← Nat.add_assoc, hoff] at hdone
  | @token _ gap text rest value kind tail hgap hw htail =>
    have hskip := hgap.skip hl hm hrest
    subst hoff
    have htoken : Tiles file offset (l.text ++ gap ++ (text ++ rest)) _ :=
      .token hskip hw (by rwa [utf8Length_append, ← Nat.add_assoc])
    rwa [utf8Length_append, ← Nat.add_assoc, List.append_assoc] at htoken

/-- The scanner, without the proofs that it needs to be a function. -/
theorem tokensFrom_cons (file : String) (offset : Nat) (c : Char) (cs : List Char) :
    tokensFrom file offset (c :: cs) =
      match lexeme? c cs with
      | none => .error ⟨.unrecognisedToken (String.singleton c), ⟨offset, file⟩⟩
      | some l =>
        match l.meaning with
        | .malformed cause => .error ⟨cause, ⟨offset, file⟩⟩
        | .nothing => tokensFrom file (offset + utf8Length l.text) l.rest
        | .token kind value =>
          (tokensFrom file (offset + utf8Length l.text) l.rest).map
            (tokenAt file offset kind value l.text :: ·) := by
  rw [tokensFrom]
  split
  · next hl => rw [Option.attach_eq_none_iff.1 hl]
  · next l hl _ =>
    rw [hl]
    rfl

/-- The scanner cuts its text into tokens and filler. -/
theorem tiles_of_tokensFrom {file : String} {offset : Nat} {cs : List Char} {tokens : List Token}
    (h : tokensFrom file offset cs = .ok tokens) : Tiles file offset cs tokens := by
  -- The induction follows the scanner: on the number of characters that are left.
  induction hn : cs.length using Nat.strongRecOn generalizing offset cs tokens with
  | ind n ih =>
    subst hn
    cases cs with
    | nil =>
      rw [tokensFrom] at h
      cases h
      exact Tiles.done .nil
    | cons c cs =>
      rw [tokensFrom_cons] at h
      split at h
      · cases h
      · next l hl =>
        have hbegins := begins_of_lexeme? hl
        have hlt := hbegins.length_rest_lt
        rw [← hbegins.text_append_rest]
        split at h
        · cases h
        · next hm => exact .skip hl hm (ih _ hlt h rfl)
        · next kind value hm =>
          cases htail : tokensFrom file (offset + utf8Length l.text) l.rest with
          | error d =>
            rw [htail] at h
            cases h
          | ok tail =>
            rw [htail] at h
            cases h
            exact Tiles.token .nil (writtenAs_of_lexeme? hl hm) (ih _ hlt htail rfl)

/-! ### Places in a source -/

/-- The part of a source that a span covers. -/
def Span.textIn (source : String) (span : Span) : String :=
  String.Pos.Raw.extract source ⟨span.start.offset⟩ ⟨span.stop.offset⟩

/-- A character of the source begins at this position, or the source ends there. -/
def Position.IsBoundary (source : String) (p : Position) : Prop :=
  String.Pos.Raw.IsValid source ⟨p.offset⟩

/-- The source from a position on. -/
def Position.textFrom (source : String) (p : Position) : String :=
  String.Pos.Raw.extract source ⟨p.offset⟩ source.rawEndPos

/-- The number of bytes as the library counts them. -/
theorem utf8Length_eq (cs : List Char) : utf8Length cs = String.utf8Len cs := by
  induction cs with
  | nil => rfl
  | cons c cs ih => rw [utf8Length_cons, String.utf8Len_cons, ih, Nat.add_comm]

/-- A text that is not empty covers at least one byte. -/
theorem utf8Length_pos {cs : List Char} (h : cs ≠ []) : 0 < utf8Length cs := by
  rw [utf8Length_eq]
  exact Nat.pos_of_ne_zero fun hz => h (String.utf8Len_eq_zero.1 hz)

theorem utf8Length_toList (source : String) : utf8Length source.toList = source.utf8ByteSize := by
  rw [utf8Length_eq, String.utf8Len_toList]

section Places

variable {source : String} {before text after : List Char}

theorem extract_eq (h : source.toList = before ++ (text ++ after)) :
    String.Pos.Raw.extract source ⟨utf8Length before⟩ ⟨utf8Length before + utf8Length text⟩ =
      String.ofList text := by
  have hsource : source = String.ofList (before ++ text ++ after) := by
    rw [List.append_assoc, ← h, String.ofList_toList]
  rw [hsource, utf8Length_eq, utf8Length_eq]
  exact String.extract_of_valid before text after

theorem textIn_eq (h : source.toList = before ++ (text ++ after)) (file : String) :
    (Span.ofLength file (utf8Length before) (utf8Length text)).textIn source =
      String.ofList text :=
  extract_eq h

theorem textFrom_eq (h : source.toList = before ++ after) (file : String) :
    (⟨utf8Length before, file⟩ : Position).textFrom source = String.ofList after := by
  have hend : source.rawEndPos = ⟨utf8Length before + utf8Length after⟩ := by
    rw [← utf8Length_append, ← h, utf8Length_toList]
    rfl
  rw [Position.textFrom, hend]
  exact extract_eq (by rw [h, List.append_nil])

/-- Where a source can be cut in two, a character begins or the source ends. -/
theorem isBoundary_of_append (h : source.toList = before ++ after) (file : String) :
    (⟨utf8Length before, file⟩ : Position).IsBoundary source := by
  refine String.Pos.Raw.isValid_iff_exists_append.2
    ⟨String.ofList before, String.ofList after, ?_, ?_⟩
  · rw [← String.ofList_append, ← h, String.ofList_toList]
  · rw [utf8Length_eq, ← String.utf8ByteSize_ofList]
    rfl

end Places

/-- The part of the source between two spans is filler. -/
def GapIn (source : String) (a b : Span) : Prop :=
  Filler (b.start.textFrom source).toList (Span.textIn source ⟨a.stop, b.start⟩).toList

/-- Filler in a text as filler between two places of the source. -/
theorem gapIn_of_filler {source file : String} {before gap after : List Char} {a b : Span}
    (hs : source.toList = before ++ (gap ++ after)) (h : Filler after gap)
    (ha : a.stop = ⟨utf8Length before, file⟩)
    (hb : b.start = ⟨utf8Length before + utf8Length gap, file⟩) : GapIn source a b := by
  have hgap : Span.textIn source ⟨a.stop, b.start⟩ = String.ofList gap := by
    rw [ha, hb]
    exact textIn_eq hs file
  have hafter : b.start.textFrom source = String.ofList after := by
    rw [hb, ← utf8Length_append]
    exact textFrom_eq (by rw [hs, List.append_assoc]) file
  rw [GapIn, hgap, hafter, String.toList_ofList, String.toList_ofList]
  exact h

/-- The tokens cover the source, apart from white space and comments. -/
structure Tiling (source file : String) (tokens : List Token) : Prop where
  /-- The last token is the only end mark, and stands at the end of the source.  All others cover
  one byte or more. -/
  closing : ∃ front, tokens = front ++ [endToken file source.utf8ByteSize] ∧
    ∀ t ∈ front, t.kind ≠ .eof ∧ t.span.start.offset < t.span.stop.offset
  /-- All tokens stand in the file, between characters. -/
  placed : ∀ t ∈ tokens, t.span.start.file = file ∧ t.span.stop.file = file ∧
    t.span.start.IsBoundary source ∧ t.span.stop.IsBoundary source
  /-- A token ends before every later one begins. -/
  ordered : tokens.Pairwise fun a b => a.span.stop.offset ≤ b.span.start.offset
  /-- Before the first token and between one token and the next there is only filler. -/
  gaps : (Span.ofLength file 0 0 :: tokens.map Token.span).IsChain (GapIn source)
  /-- A token covers a way to write it. -/
  written : ∀ t ∈ tokens, t.kind ≠ .eof →
    WrittenAs t.kind t.value.toList (t.span.textIn source).toList

namespace Tiles

variable {source file : String} {offset : Nat} {cs : List Char} {tokens : List Token}

/-- The end mark comes last, and no other token is empty. -/
theorem closing (h : Tiles file offset cs tokens) :
    ∃ front, tokens = front ++ [endToken file (offset + utf8Length cs)] ∧
      ∀ t ∈ front, t.kind ≠ .eof ∧ t.span.start.offset < t.span.stop.offset := by
  induction h with
  | done hgap => exact ⟨[], rfl, nofun⟩
  | @token offset gap text rest value kind tail hgap hw htail ih =>
    obtain ⟨front, rfl, hfront⟩ := ih
    refine ⟨tokenAt file (offset + utf8Length gap) kind value text :: front, ?_, ?_⟩
    · rw [utf8Length_append, utf8Length_append, ← Nat.add_assoc, ← Nat.add_assoc]
      rfl
    · intro t ht
      rcases List.mem_cons.1 ht with rfl | ht
      · exact ⟨hw.kind_ne_eof, Nat.lt_add_of_pos_right (utf8Length_pos hw.text_ne_nil)⟩
      · exact hfront t ht

/-- Tokens come one after the other, and none begins before its text does. -/
theorem ordered (h : Tiles file offset cs tokens) :
    (∀ t ∈ tokens, offset ≤ t.span.start.offset) ∧
      tokens.Pairwise fun a b => a.span.stop.offset ≤ b.span.start.offset := by
  induction h with
  | done hgap =>
    refine ⟨fun t ht => ?_, List.pairwise_singleton _ _⟩
    obtain rfl := List.mem_singleton.1 ht
    exact Nat.le_add_right _ _
  | @token offset gap text rest value kind tail hgap hw htail ih =>
    refine ⟨fun t ht => ?_, List.pairwise_cons.2 ⟨fun t ht => ih.1 t ht, ih.2⟩⟩
    rcases List.mem_cons.1 ht with rfl | ht
    · exact Nat.le_add_right _ _
    · have hle := ih.1 t ht
      omega

variable {before : List Char}

/-- Every token covers a part of the source. -/
theorem located (h : Tiles file offset cs tokens) (hs : source.toList = before ++ cs)
    (hoff : offset = utf8Length before) :
    ∀ t ∈ tokens, ∃ front text back, source.toList = front ++ (text ++ back) ∧
      t.span = Span.ofLength file (utf8Length front) (utf8Length text) ∧
        (t.kind ≠ .eof → WrittenAs t.kind t.value.toList text) := by
  induction h generalizing before with
  | @done offset gap hgap =>
    intro t ht
    obtain rfl := List.mem_singleton.1 ht
    refine ⟨before ++ gap, [], [], by simp [hs], ?_, fun hk => absurd rfl hk⟩
    rw [utf8Length_append, ← hoff]
    rfl
  | @token offset gap text rest value kind tail hgap hw htail ih =>
    intro t ht
    rcases List.mem_cons.1 ht with rfl | ht
    · refine ⟨before ++ gap, text, rest, by simp [hs], ?_, fun _ => ?_⟩
      · rw [utf8Length_append, ← hoff]
        rfl
      · rwa [tokenAt, String.toList_ofList]
    -- the later tokens lie in the same source, with more text in front
    · have hrest : source.toList = (before ++ gap ++ text) ++ rest := by simp [hs]
      exact ih hrest (by rw [utf8Length_append, utf8Length_append, hoff]) t ht

/-- Between one token and the next there is the filler that has been put between them.  The span `a`
is where the text before ends. -/
theorem gaps (h : Tiles file offset cs tokens) (hs : source.toList = before ++ cs)
    (hoff : offset = utf8Length before) {a : Span} (ha : a.stop = ⟨offset, file⟩) :
    (a :: tokens.map Token.span).IsChain (GapIn source) := by
  induction h generalizing before a with
  | @done offset gap hgap =>
    subst hoff
    rw [← List.append_nil gap] at hs
    exact .cons_cons (gapIn_of_filler hs hgap ha rfl) (.singleton _)
  | @token offset gap text rest value kind tail hgap hw htail ih =>
    subst hoff
    have hrest : source.toList = (before ++ gap ++ text) ++ rest := by simp [hs]
    -- the gap in front of the first token, and then those of the others
    refine .cons_cons (gapIn_of_filler hs hgap ha rfl) (ih hrest ?_ rfl)
    rw [utf8Length_append, utf8Length_append]

theorem tiling (h : Tiles file 0 source.toList tokens) : Tiling source file tokens where
  closing := by
    obtain ⟨front, htokens, hfront⟩ := h.closing
    refine ⟨front, ?_, hfront⟩
    rwa [Nat.zero_add, utf8Length_toList] at htokens
  placed t ht := by
    obtain ⟨front, text, back, hs, hspan, -⟩ := h.located (List.nil_append _).symm rfl t ht
    rw [hspan]
    refine ⟨rfl, rfl, isBoundary_of_append hs file, ?_⟩
    have hstop := isBoundary_of_append (hs.trans (List.append_assoc _ _ _).symm) file
    rwa [utf8Length_append] at hstop
  ordered := h.ordered.2
  gaps := h.gaps (List.nil_append _).symm rfl rfl
  written t ht hk := by
    obtain ⟨front, text, back, hs, hspan, hw⟩ := h.located (List.nil_append _).symm rfl t ht
    rw [hspan, textIn_eq hs, String.toList_ofList]
    exact hw hk

end Tiles

/-! ### The scanner as a loop -/

/-- Going on at an offset is the same as taking away the text before it. -/
theorem dropBytes_append (front back : List Char) :
    dropBytes (utf8Length front) (front ++ back) = back := by
  induction front with
  | nil => rw [utf8Length_nil, dropBytes]; rfl
  | cons c front ih =>
    have hpos := c.utf8Size_pos
    -- the length is not zero, which `dropBytes` looks at first
    obtain ⟨n, hn⟩ : ∃ n, c.utf8Size + utf8Length front = n + 1 :=
      ⟨_, (Nat.succ_pred (by omega)).symm⟩
    rw [utf8Length_cons, List.cons_append, hn, dropBytes, ← hn, Nat.add_sub_cancel_left]
    exact ih

namespace Limited

/-- Goes on with the tokens of a source from a byte offset, where `found` are those before it.
There is no answer if it takes more than a number of rounds. -/
def scan (source file : String) :
    (rounds offset : Nat) → (found : List Token) → Option (Except Diagnostic (List Token))
  | 0, _, _ => none
  | rounds + 1, offset, found =>
    match dropBytes offset source.toList with
    | [] => some (.ok (found ++ [endToken file offset]))
    | c :: cs =>
      match lexeme? c cs with
      | none => some (.error ⟨.unrecognisedToken (String.singleton c), ⟨offset, file⟩⟩)
      | some l =>
        match l.meaning with
        | .malformed cause => some (.error ⟨cause, ⟨offset, file⟩⟩)
        | .nothing => scan source file rounds (offset + utf8Length l.text) found
        | .token kind value =>
          scan source file rounds (offset + utf8Length l.text)
            (found ++ [tokenAt file offset kind value l.text])

/-- The tokens of a source, if the loop ends after a number of rounds. -/
def tokenize (rounds : Nat) (source file : String) : Option (Except Diagnostic (List Token)) :=
  scan source file rounds 0 []

/-- The loop finds what the scanner finds, if it has a round for each character that is left and one
more. -/
theorem scan_eq {source file : String} {rounds : Nat} {before cs : List Char} (found : List Token)
    (hs : source.toList = before ++ cs) (hrounds : cs.length < rounds) :
    scan source file rounds (utf8Length before) found =
      some ((tokensFrom file (utf8Length before) cs).map (found ++ ·)) := by
  -- Each round leaves fewer characters, since a lexeme is not empty.
  induction rounds generalizing before cs found with
  | zero => exact absurd hrounds (Nat.not_lt_zero _)
  | succ rounds ih =>
    rw [scan, hs, dropBytes_append]
    cases cs with
    | nil =>
      rw [tokensFrom]
      rfl
    | cons c cs =>
      rw [tokensFrom_cons]
      dsimp only
      cases hl : lexeme? c cs with
      | none => rfl
      | some l =>
        have hbegins := begins_of_lexeme? hl
        have hnext : source.toList = (before ++ l.text) ++ l.rest := by
          rw [hs, List.append_assoc, hbegins.text_append_rest]
        have hfewer : l.rest.length < rounds :=
          Nat.lt_of_lt_of_le hbegins.length_rest_lt (Nat.le_of_lt_succ hrounds)
        dsimp only
        rw [← utf8Length_append]
        split
        · rfl
        · exact ih found hnext hfewer
        · next kind value _ =>
          rw [ih _ hnext hfewer]
          cases tokensFrom file (utf8Length (before ++ l.text)) l.rest with
          | error d => rfl
          | ok tail => simp [Except.map]

/-- The loop ends after a round for each character and one more, and finds the tokens that the
scanner finds. -/
theorem tokenize_eq {rounds : Nat} {source : String} (file : String)
    (hrounds : source.length < rounds) :
    tokenize rounds source file = some (ThreadRegions.tokenize source file) := by
  have hlen : source.toList.length < rounds := by rwa [String.length_toList]
  have hscan : scan source file rounds 0 [] =
      some ((tokensFrom file 0 source.toList).map ([] ++ ·)) :=
    scan_eq [] (List.nil_append source.toList).symm hlen
  rw [tokenize, hscan, ThreadRegions.tokenize]
  cases tokensFrom file 0 source.toList with
  | error d => rfl
  | ok tokens => rfl

end Limited

/-- The loop over a source comes to an end after a round for each character and one more.  If it
finds tokens, they tile the source: the last one is the only end mark and stands at the end, the
others cover parts of the source that are not empty, begin and end between characters and come one
after the other, what is left between them is white space and comments, and each token has the value
that the text under it stands for. -/
theorem tokenize_tiles (source file : String) :
    (∀ rounds, source.length < rounds →
      Limited.tokenize rounds source file = some (tokenize source file)) ∧
    ∀ tokens, tokenize source file = .ok tokens → Tiling source file tokens := by
  refine ⟨?_, ?_⟩
  · intro rounds hrounds
    exact Limited.tokenize_eq file hrounds
  · intro tokens h
    exact (tiles_of_tokensFrom h).tiling

namespace Sample

/-- Tokens without blanks around them, a comment, and letters of two bytes. -/
def line : String := "x=\"é\"+7L// é\n;"

def lineTokens : List Token :=
  [tokenAt "line.sn" 0 .identifier ['x'] ['x'],
    tokenAt "line.sn" 1 (.punct .assignment) ['='] ['='],
    tokenAt "line.sn" 2 .string ['é'] ['"', 'é', '"'],
    tokenAt "line.sn" 6 (.punct .plus) ['+'] ['+'],
    tokenAt "line.sn" 7 .longNumber ['7'] ['7', 'L'],
    tokenAt "line.sn" 15 (.punct .semicolon) [';'] [';'],
    endToken "line.sn" 16]

theorem tokenize_line : tokenize line "line.sn" = .ok lineTokens := by decide +kernel

end Sample

theorem tokenize_tiles_line :
    Sample.line.length < 20 ∧
      Limited.tokenize 20 Sample.line "line.sn" = some (tokenize Sample.line "line.sn") ∧
      tokenize Sample.line "line.sn" = .ok Sample.lineTokens ∧
      Tiling Sample.line "line.sn" Sample.lineTokens :=
  ⟨by decide, (tokenize_tiles _ _).1 20 (by decide), Sample.tokenize_line,
    (tokenize_tiles _ _).2 _ Sample.tokenize_line⟩

end ThreadRegions
