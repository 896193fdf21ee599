import ThreadRegions.Proofs.MovedReaders
import ThreadRegions.Proofs.View
import ThreadRegions.Proofs.Written
import ThreadRegions.Token.Lexer

/-!
# Sources with the same tokens

Two sources whose tokens have the same kinds and texts may differ in their blanks, comments and line
breaks, in how their literals are written, and in the name of their file.  They are read and checked
alike: what is different in the end are places and nothing else.

To compare two sources, both are compared with one that has no places at all.

## Main Definitions

* `Position.forget`: forgetting a place
* `Module.read`: the module that is read from a source
* `Module.unplaced`: a module without its places
* `View.placeless`: two runs of the checker, without places and notes

## Main Results

* `parse_unplaced`: the grammar reads tokens without places as it reads the tokens themselves
* `checkModule_unplaced`: a module without places is checked like the module itself
* `read_check_of_same_tokens`: sources with the same tokens
-/

namespace ThreadRegions

/-! ### Without places -/

/-- A place, with nothing left of it. -/
def Position.forget (_ : Position) : Position := .nowhere

/-- The module without its places and the name of its file. -/
def Module.unplaced (m : Module) : Module :=
  ⟨stmtsRelocate Position.forget m.statements, Position.nowhere.file⟩

/-- The module that is read from a source, or what is wrong with the source. -/
def Module.read (source file : String) : Except Diagnostic Module :=
  match tokenize source file with
  | .error d => .error d
  | .ok tokens => (Grammar.parse tokens file).result

/-- The token of the given kind and text, without a place. -/
def Spelling.token (s : Spelling) : Token := ⟨s.1, s.2, ⟨.nowhere, .nowhere⟩⟩

/-! ### Reading -/

theorem ofTokens_forget (tokens : List Token) (file : String) :
    (Cursor.ofTokens tokens file).relocate Position.forget =
      Cursor.ofTokens (tokens.map (Token.relocate Position.forget)) Position.nowhere.file := by
  unfold Cursor.ofTokens
  -- whether an end mark has to be added depends on the kind of the last token
  rw [List.getLast?_map]
  cases tokens.getLast? with
  | none => rfl
  | some last =>
    dsimp only [Option.map_some, Token.relocate]
    split
    · rw [← List.map_dropLast]
      rfl
    · rfl

/-- The grammar reads tokens without places as it reads the tokens themselves. -/
theorem parse_unplaced (tokens : List Token) (file : String) :
    (Grammar.parse (tokens.map (Token.relocate Position.forget)) Position.nowhere.file).result =
      ((Grammar.parse tokens file).result.map Module.unplaced).mapError
        (Diagnostic.relocate Position.forget) := by
  have hmoved := (Grammar.moved_statements Position.forget .language
    (Cursor.ofTokens tokens file)).result_eq
  rw [ofTokens_forget] at hmoved
  rw [Grammar.parse, Grammar.parse, Step.result_map, Step.result_map, hmoved]
  cases (Grammar.statements .language (Cursor.ofTokens tokens file)).result <;> rfl

/-- Up to places, what is read from a source is determined by the kinds and texts of its tokens. -/
theorem read_unplaced {source file : String} {l : List Spelling}
    (h : (tokenize source file).map (List.map Token.spelling) = .ok l) :
    ((Module.read source file).map Module.unplaced).mapError (Diagnostic.relocate Position.forget) =
      (Grammar.parse (l.map Spelling.token) Position.nowhere.file).result := by
  unfold Module.read
  cases htokens : tokenize source file with
  | error d =>
    rw [htokens] at h
    cases h
  | ok tokens =>
    rw [htokens] at h
    obtain rfl : tokens.map Token.spelling = l := Except.ok.inj h
    rw [List.map_map]
    exact (parse_unplaced tokens file).symm

/-! ### Checking -/

/-- Two runs of the checker are compared without places and notes. -/
def View.placeless : View where
  place := Position.forget
  cause := Eq
  journal _ _ := True
  distance := Eq
  cause_refl _ := rfl
  journal_push _ _ := trivial
  cause_closest := by
    rintro d _ rfl c name names
    rfl
  journal_told _ _ _ _ _ := trivial

/-- Without places, an error is its cause. -/
theorem View.map_cause_of_told {ds ds' : List Diagnostic}
    (h : List.Forall₂ View.placeless.Told ds ds') :
    ds'.map Diagnostic.cause = ds.map Diagnostic.cause := by
  induction h with
  | nil => rfl
  | cons hd _ ih => rw [List.map_cons, List.map_cons, ih, hd.1]

/-- A module without places is checked like the module itself. -/
theorem checkModule_unplaced (distance : Nat) (m : Module) :
    let r := checkModule distance m
    let u := checkModule distance m.unplaced
    u.1.accepted = r.1.accepted ∧
      u.1.errors.map Diagnostic.cause = r.1.errors.map Diagnostic.cause ∧
      u.1.table = r.1.table ∧ u.2 = r.2.unplaced := by
  have hinitial : View.placeless.States (.initial distance) (.initial distance) :=
    View.placeless.states_initial rfl trivial
  have hm : m.unplaced.statements = stmtsRelocate View.placeless.place m.statements := rfl
  obtain ⟨hs, hsts⟩ := View.states_checkModule hinitial hm (.inr fun _ _ => trivial)
  exact ⟨hs.accepted_eq, View.map_cause_of_told hs.errors, hs.table, congrArg (Module.mk · _) hsts⟩

/-! ### Two sources -/

/-- Sources with tokens of the same kinds and texts are both refused by the grammar, for the same
cause, or both read as a module, and what is read and found is the same up to places.  The cause of
an error says all of its name and its message. -/
theorem read_check_of_same_tokens {source source' file file' : String} {l : List Spelling}
    (h : (tokenize source file).map (List.map Token.spelling) = .ok l)
    (h' : (tokenize source' file').map (List.map Token.spelling) = .ok l) :
    (∃ d d', Module.read source file = .error d ∧ Module.read source' file' = .error d' ∧
      d'.cause = d.cause) ∨
    ∃ m m', Module.read source file = .ok m ∧ Module.read source' file' = .ok m' ∧
      m'.unplaced = m.unplaced ∧ ∀ distance,
        let r := checkModule distance m
        let r' := checkModule distance m'
        r'.1.accepted = r.1.accepted ∧
          r'.1.errors.map Diagnostic.cause = r.1.errors.map Diagnostic.cause ∧
          r'.1.table = r.1.table ∧ r'.2.unplaced = r.2.unplaced := by
  -- both sources are compared with the tokens without places
  have hsame := (read_unplaced h').trans (read_unplaced h).symm
  cases hread : Module.read source file with
  | error d =>
    rw [hread] at hsame
    cases hread' : Module.read source' file' with
    | error d' =>
      rw [hread'] at hsame
      have hd : (d'.relocate Position.forget).cause = (d.relocate Position.forget).cause :=
        congrArg Diagnostic.cause (Except.error.inj hsame)
      exact .inl ⟨d, d', rfl, rfl, hd⟩
    | ok m' =>
      rw [hread'] at hsame
      cases hsame
  | ok m =>
    rw [hread] at hsame
    cases hread' : Module.read source' file' with
    | error d' =>
      rw [hread'] at hsame
      cases hsame
    | ok m' =>
      rw [hread'] at hsame
      have hm : m'.unplaced = m.unplaced := Except.ok.inj hsame
      refine .inr ⟨m, m', rfl, rfl, hm, fun distance => ?_⟩
      obtain ⟨haccepted, herrors, htable, htree⟩ := checkModule_unplaced distance m
      obtain ⟨haccepted', herrors', htable', htree'⟩ := checkModule_unplaced distance m'
      rw [hm] at haccepted' herrors' htable' htree'
      exact ⟨haccepted'.symm.trans haccepted, herrors'.symm.trans herrors,
        htable'.symm.trans htable, htree'.symm.trans htree⟩

namespace Sample

/-- A program without needless blanks that gets a member and a type wrong. -/
def tight : String :=
  "fn f(xs:int[]):int\x7breturn xs.lenght;\x7dvar s=\"\\x41\\tb\";s=f(\x7b1\x7d);"

/-- The same tokens with blanks, lines and comments, and with other escapes. -/
def airy : String :=
  "// measures\nfn f(xs: int[]): int \x7b\n  return xs . lenght; // misspelt\n\x7d\n" ++
    "var s = \"A\\x09b\";\ns = f(\x7b 1 \x7d);\n"

/-- The kinds and texts of the tokens of both. -/
def spellings : List Spelling :=
  ((tokenize tight "tight.sn").toOption.getD []).map Token.spelling

theorem tokenize_tight :
    (tokenize tight "tight.sn").map (List.map Token.spelling) = .ok spellings := by
  decide +kernel

theorem tokenize_airy :
    (tokenize airy "airy.sn").map (List.map Token.spelling) = .ok spellings := by
  decide +kernel

/-- What is wrong with both. -/
def mistakes : List Cause :=
  [.noSuchMember "int[]" "lenght" (some "length"), .assignmentMismatch "str" "int"]

theorem any_read_tight : (Module.read tight "tight.sn").toOption.any fun m =>
    (checkModule defaultSuggestionDistance m).1.errors.map Diagnostic.cause = mistakes := by
  decide +kernel

end Sample

/-- The two texts have the same tokens, and the same mistakes are found in both. -/
theorem read_check_of_same_tokens_airy :
    (tokenize Sample.tight "tight.sn").map (List.map Token.spelling) = .ok Sample.spellings ∧
      (tokenize Sample.airy "airy.sn").map (List.map Token.spelling) = .ok Sample.spellings ∧
      ∃ m m', Module.read Sample.tight "tight.sn" = .ok m ∧
        Module.read Sample.airy "airy.sn" = .ok m' ∧ m'.unplaced = m.unplaced ∧
        (checkModule defaultSuggestionDistance m').1.errors.map Diagnostic.cause =
          Sample.mistakes := by
  refine ⟨Sample.tokenize_tight, Sample.tokenize_airy, ?_⟩
  have hany := Sample.any_read_tight
  obtain ⟨d, d', hd, -⟩ | ⟨m, m', hm, hm', hsame, hcheck⟩ :=
    read_check_of_same_tokens Sample.tokenize_tight Sample.tokenize_airy
  · rw [hd] at hany
    cases hany
  · rw [hm] at hany
    have hmistakes := of_decide_eq_true hany
    obtain ⟨-, herrors, -⟩ := hcheck defaultSuggestionDistance
    exact ⟨m, m', hm, hm', hsame, herrors.trans hmistakes⟩

end ThreadRegions
