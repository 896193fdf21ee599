import ThreadRegions.Proofs.ReadBack
import ThreadRegions.Proofs.ReadableType
import ThreadRegions.Proofs.Respacing

/-!
# Types as they are written

The text of a type is cut into tokens by the scanner and read as a type by the grammar.  The
brackets of an array stand at the end, and so does the result of a function.  If a function is the
element of an array, the brackets are taken for those of its result: what is read then is another
type with the same text.

## Main Definitions

* `Ty.spelling`: the tokens of the text of a type
* `Ty.reading`: what is read if some brackets follow the text of a type

## Main Results

* `Ty.scans_text`: the tokens of the text of a type
* `Ty.gives_type`: what is read from these tokens
* `Ty.reading_zero_eq_iff`: when this is the type itself
* `type_tokenize_text`: reading the text of a type
-/

namespace ThreadRegions

/-! ### The tokens of a text -/

/-- How a reserved word is written. -/
def Keyword.spelling (k : Keyword) : Spelling := (.word k, k.text)

/-- The tokens of a qualifier behind a type. -/
def Qualifier.spelling : Qualifier → List Spelling
  | default => []
  | asVal => [Keyword.as_.spelling, Keyword.val.spelling]
  | asRef => [Keyword.as_.spelling, Keyword.ref.spelling]

namespace Ty

/-- The reserved word that names the type. -/
def word? : Ty → Option Keyword
  | int => some .int
  | long => some .long
  | double => some .double
  | char => some .char
  | str => some .str
  | bool => some .bool
  | byte => some .byte
  | void => some .void
  | nil | any | array _ | fn .. => none

mutual

/-- The tokens of the text of a readable type. -/
def spelling : Ty → List Spelling
  | array element => element.spelling ++ [Punct.openBracket.spelling, Punct.closeBracket.spelling]
  | fn params quals ret _ =>
    Keyword.fn.spelling :: Punct.openParen.spelling :: (paramsSpelling quals 0 params ++
      Punct.closeParen.spelling :: Punct.colon.spelling :: ret.spelling)
  | t => t.word?.toList.map Keyword.spelling

/-- The tokens of the parameters from number `index` on. -/
def paramsSpelling (quals : Option (List Qualifier)) (index : Nat) : List Ty → List Spelling
  | [] => []
  | param :: others =>
    param.spelling ++ (qualifierAt quals index).spelling ++
      (if others.isEmpty then [] else [Punct.comma.spelling]) ++
      paramsSpelling quals (index + 1) others

end

section Word

variable {t : Ty} {k : Keyword} (h : t.word? = some k)

include h

/-- The text of a type with a word of its own is that word. -/
theorem text_of_word? : t.text = k.text := by
  cases t <;> cases h <;> rfl

theorem spelling_of_word? : t.spelling = [k.spelling] := by
  cases t <;> cases h <;> rfl

theorem ofKind?_of_word? : ofKind? (.word k) = some t := by
  cases t <;> cases h <;> rfl

/-- The word is one that a type can begin with. -/
theorem typeForm?_of_word? : TypeForm.ofKind? (.word k) = some .builtin := by
  cases t <;> cases h <;> rfl

end Word

end Ty

namespace Scans

variable {after : List Char} {l : List Spelling}

/-- A keyword, if no letter or digit follows it. -/
theorem word (k : Keyword) (ha : ∀ c ∈ after.head?, continuesWord c = false) (h : Scans after l) :
    Scans (k.text.toList ++ after) (k.spelling :: l) := by
  have hfirst := firstLexeme?_word (isWord_text k) ha
  rw [wordMeaning_text] at hfirst
  have hs := h.lexeme hfirst
  rwa [String.ofList_toList] at hs

/-- The punctuation in types does not depend on what follows it. -/
theorem punct {p : Punct} (hp : p ∈ [.openBracket, .closeBracket, .openParen, .closeParen, .colon,
    .comma]) (h : Scans after l) : Scans (p.chars ++ after) (p.spelling :: l) := by
  have hfirst : firstLexeme? (p.chars ++ after) =
      some ⟨p.chars, after, .token (.punct p) p.chars⟩ := by
    simp only [List.mem_cons, List.not_mem_nil, or_false] at hp
    rcases hp with rfl | rfl | rfl | rfl | rfl | rfl <;> rfl
  exact h.lexeme hfirst

end Scans

namespace Ty

variable {after : List Char} {l : List Spelling}

/-- The text of a type begins with a letter. -/
theorem not_isBlank_head_text {t : Ty} (after : List Char) :
    ∀ c ∈ (t.text.toList ++ after).head?, isBlank c = false := by
  cases t with
  | int | long | double | char | str | bool | byte | void | nil | any =>
    rintro c ⟨⟩
    decide
  | array element =>
    rw [text, String.toList_append, List.append_assoc]
    exact not_isBlank_head_text _
  | fn params quals ret variadic =>
    rw [text, String.toList_append, String.toList_append, String.toList_append]
    rintro c ⟨⟩
    decide

theorem scans_word {t : Ty} {k : Keyword} (hk : t.word? = some k)
    (ha : ∀ c ∈ after.head?, continuesWord c = false) (h : Scans after l) :
    Scans (t.text.toList ++ after) (t.spelling ++ l) := by
  rw [text_of_word? hk, spelling_of_word? hk]
  exact h.word k ha

theorem scans_qualifierSuffix (q : Qualifier) (ha : ∀ c ∈ after.head?, continuesWord c = false)
    (h : Scans after l) : Scans ((qualifierSuffix q).toList ++ after) (q.spelling ++ l) := by
  -- both qualifiers differ in their second word only
  have has (k : Keyword) : Scans (' ' :: (Keyword.as_.text.toList ++ ' ' :: (k.text.toList ++
      after))) (Keyword.as_.spelling :: k.spelling :: l) := by
    refine .blank (by rintro c ⟨⟩; decide) (.word _ (by rintro c ⟨⟩; decide) ?_)
    refine .blank ?_ (h.word k ha)
    intro c hc
    rw [List.head?_append_of_ne_nil _ (by cases k <;> decide)] at hc
    cases k <;> cases hc <;> decide
  cases q with
  | default => exact h
  | asVal => exact has .val
  | asRef => exact has .ref

/-- A word ends where a qualifier may follow. -/
theorem head_qualifierSuffix (q : Qualifier) (ha : ∀ c ∈ after.head?, continuesWord c = false) :
    ∀ c ∈ ((qualifierSuffix q).toList ++ after).head?, continuesWord c = false := by
  cases q with
  | default => exact ha
  | asVal => rintro c ⟨⟩; rfl
  | asRef => rintro c ⟨⟩; rfl

/-- A word ends where another parameter may follow. -/
theorem head_paramsText (quals : Option (List Qualifier)) (index : Nat) (params : List Ty)
    (ha : ∀ c ∈ after.head?, continuesWord c = false) :
    ∀ c ∈ ((paramsText quals (index + 1) params).toList ++ after).head?,
      continuesWord c = false := by
  cases params with
  | nil => exact ha
  | cons param others =>
    rw [paramsText, if_neg (Nat.succ_ne_zero index), String.toList_append, String.toList_append,
      String.toList_append]
    rintro c ⟨⟩
    rfl

mutual

/-- The tokens of the text of a type, with anything behind it that is not part of a word. -/
theorem scans_text {t : Ty} (ht : t.Readable) {after : List Char} {l : List Spelling}
    (ha : ∀ c ∈ after.head?, continuesWord c = false) (h : Scans after l) :
    Scans (t.text.toList ++ after) (t.spelling ++ l) := by
  match t with
  | int | long | double | char | str | bool | byte | void => exact scans_word rfl ha h
  | nil | any => exact absurd ht (by decide)
  | array element =>
    have hclose := h.punct (p := .closeBracket) (by decide)
    have hbrackets := hclose.punct (p := .openBracket) (by decide)
    rw [text, spelling, String.toList_append, List.append_assoc, List.append_assoc]
    exact scans_text (readable_array.1 ht) (by rintro c ⟨⟩; rfl) hbrackets
  | fn params quals ret variadic =>
    obtain ⟨-, hparams, hret⟩ := readable_fn.1 ht
    -- from behind: the result, then the parameters, then the word in front
    have hresult := ((scans_text hret ha h).blank (not_isBlank_head_text after)).punct (p := .colon)
      (by decide)
    have hlist := scans_paramsText quals 0 hparams (by rintro c ⟨⟩; rfl)
      (hresult.punct (p := .closeParen) (by decide))
    rw [if_pos (.inl rfl), List.nil_append] at hlist
    have hwhole := (hlist.punct (p := .openParen) (by decide)).word .fn (by rintro c ⟨⟩; rfl)
    rw [text, spelling, String.toList_append, String.toList_append, String.toList_append]
    simp only [List.append_assoc, List.cons_append]
    exact hwhole

/-- The tokens of the parameters from number `index` on.  The comma in front of a parameter belongs
to the text of the parameter, and to the tokens of the one before. -/
theorem scans_paramsText (quals : Option (List Qualifier)) (index : Nat) {params : List Ty}
    (hp : ∀ p ∈ params, p.Readable) {after : List Char} {l : List Spelling}
    (ha : ∀ c ∈ after.head?, continuesWord c = false) (h : Scans after l) :
    Scans ((paramsText quals index params).toList ++ after)
      ((if index = 0 ∨ params.isEmpty then [] else [Punct.comma.spelling]) ++
        (paramsSpelling quals index params ++ l)) := by
  match params with
  | [] =>
    rw [if_pos (.inr rfl)]
    exact h
  | param :: others =>
    obtain ⟨hparam, hothers⟩ := List.forall_mem_cons.1 hp
    have hhead := head_paramsText quals index others ha
    have hrest := scans_qualifierSuffix (qualifierAt quals index) hhead
      (scans_paramsText quals (index + 1) hothers ha h)
    have hfirst := scans_text hparam (head_qualifierSuffix (qualifierAt quals index) hhead) hrest
    rw [paramsText, paramsSpelling, String.toList_append, String.toList_append,
      String.toList_append]
    simp only [Nat.succ_ne_zero, false_or] at hfirst
    simp only [List.append_assoc, List.isEmpty_cons, Bool.false_eq_true, or_false]
    split
    · exact hfirst
    · exact (hfirst.blank (not_isBlank_head_text _)).punct (p := .comma) (by decide)

end

/-! ### What is read -/

/-- The tokens of some pairs of brackets. -/
def brackets : Nat → List Spelling
  | 0 => []
  | k + 1 => Punct.openBracket.spelling :: Punct.closeBracket.spelling :: brackets k

mutual

/-- What is read if the text of a type is followed by some pairs of brackets. -/
def reading (k : Nat) : Ty → Ty
  | array element => element.reading (k + 1)
  | fn params quals ret variadic => fn (readings params) quals (ret.reading k) variadic
  | t => array^[k] t

/-- What is read for each of the given types. -/
def readings : List Ty → List Ty
  | [] => []
  | t :: ts => t.reading 0 :: readings ts

end

/-- The brackets behind a function are those of its result. -/
theorem text_iterate_fn (k : Nat) (params : List Ty) (quals : Option (List Qualifier)) (ret : Ty)
    (variadic : Bool) : (array^[k] (fn params quals ret variadic)).text =
      "fn(" ++ paramsText quals 0 params ++ "): " ++ (array^[k] ret).text := by
  induction k with
  | zero => rw [Function.iterate_zero_apply, Function.iterate_zero_apply, text]
  | succ k ih =>
    rw [Function.iterate_succ_apply', Function.iterate_succ_apply', text, text, ih,
      String.append_assoc]

mutual

/-- What is read has the same text. -/
theorem text_reading (k : Nat) (t : Ty) : (t.reading k).text = (array^[k] t).text := by
  match t with
  | int | long | double | char | str | bool | byte | void | nil | any => rfl
  | array element =>
    rw [reading]
    exact text_reading (k + 1) element
  | fn params quals ret variadic =>
    rw [reading, text, text_iterate_fn, paramsText_readings, text_reading k ret]

theorem paramsText_readings (quals : Option (List Qualifier)) (index : Nat) (params : List Ty) :
    paramsText quals index (readings params) = paramsText quals index params := by
  match params with
  | [] => rfl
  | param :: others =>
    rw [readings, paramsText, paramsText, paramsText_readings, text_reading 0 param,
      Function.iterate_zero_apply]

end

/-! ### Arrays of functions -/

mutual

/-- Without arrays of functions, what is read is what was written. -/
theorem reading_eq_iterate {t : Ty} (h : ¬ t.HasFunctionArray) {k : Nat}
    (hk : k = 0 ∨ ¬ (array t).isFunctionArray) : t.reading k = array^[k] t := by
  match t with
  | int | long | double | char | str | bool | byte | void | nil | any => rfl
  | array element =>
    rw [hasFunctionArray_array, not_or] at h
    rw [reading, reading_eq_iterate h.2 (.inr h.1), Function.iterate_succ_apply]
  | fn params quals ret variadic =>
    rw [hasFunctionArray_fn, not_or] at h
    -- brackets behind a function would make it an array of functions
    obtain rfl : k = 0 := hk.resolve_right fun hn => hn rfl
    rw [reading, readings_eq_self fun p hp hf => h.1 ⟨p, hp, hf⟩, reading_eq_iterate h.2 (.inl rfl)]
    rfl

theorem readings_eq_self {params : List Ty} (h : ∀ p ∈ params, ¬ p.HasFunctionArray) :
    readings params = params := by
  match params with
  | [] => rfl
  | param :: others =>
    obtain ⟨hparam, hothers⟩ := List.forall_mem_cons.1 h
    rw [readings, reading_eq_iterate hparam (.inl rfl), readings_eq_self hothers]
    rfl

end

/-- Brackets behind a type that is no function. -/
theorem not_hasFunctionArray_iterate {t : Ty} (h : ¬ t.HasFunctionArray)
    (ht : ¬ (array t).isFunctionArray) (k : Nat) : ¬ (array^[k] t).HasFunctionArray := by
  -- the induction has to know that no array is a function
  have hboth : ¬ (array^[k] t).HasFunctionArray ∧ ¬ (array (array^[k] t)).isFunctionArray := by
    induction k with
    | zero => exact ⟨h, ht⟩
    | succ k ih =>
      rw [Function.iterate_succ_apply', hasFunctionArray_array, not_or]
      exact ⟨⟨ih.2, ih.1⟩, nofun⟩
  exact hboth.1

mutual

/-- Nothing is read as an array of functions. -/
theorem not_hasFunctionArray_reading (k : Nat) (t : Ty) : ¬ (t.reading k).HasFunctionArray := by
  match t with
  | int | long | double | char | str | bool | byte | void | nil | any =>
    exact not_hasFunctionArray_iterate (by decide) (by decide) k
  | array element =>
    rw [reading]
    exact not_hasFunctionArray_reading (k + 1) element
  | fn params quals ret variadic =>
    rw [reading, hasFunctionArray_fn]
    rintro (⟨p, hp, hf⟩ | hf)
    · exact not_hasFunctionArray_readings params p hp hf
    · exact not_hasFunctionArray_reading k ret hf

/-- The same for parameters. -/
theorem not_hasFunctionArray_readings (params : List Ty) :
    ∀ p ∈ readings params, ¬ p.HasFunctionArray := by
  match params with
  | [] => exact nofun
  | param :: others =>
    exact List.forall_mem_cons.2
      ⟨not_hasFunctionArray_reading 0 param, not_hasFunctionArray_readings others⟩

end

/-- A type is read as itself exactly if no array of functions occurs in it. -/
theorem reading_zero_eq_iff (t : Ty) : t.reading 0 = t ↔ ¬ t.HasFunctionArray := by
  constructor
  · intro h
    rw [← h]
    exact not_hasFunctionArray_reading 0 t
  · intro h
    exact reading_eq_iterate h (.inl rfl)

end Ty

namespace Grammar

open Step

variable {c : Cursor} {l : List Spelling}

/-- What may follow a type: anything but a bracket. -/
def EndsType (l : List Spelling) : Prop := ∀ x ∈ l.head?, x.1 ≠ .punct .openBracket

/-- The loop over brackets ends where no bracket follows. -/
theorem rank_typePower (hc : c.Spells l) (hl : EndsType l) :
    (Tables.language.typePower c.kind).rank ≤ BindingPower.default.rank := by
  rw [hc.kind_eq]
  cases l with
  | nil => exact Nat.le_refl _
  | cons x l =>
    have hx := hl x rfl
    show (Tables.language.typePower x.1).rank ≤ _
    unfold Tables.typePower
    split
    · next heq => exact absurd heq hx
    · exact Nat.le_refl _

/-- Each pair of brackets is one more array. -/
theorem typeSuffixes_brackets (k : Nat) (left : Ty) (hc : c.Spells (Ty.brackets k ++ l))
    (hl : EndsType l) :
    (typeSuffixes .language .default left c).Gives (· = Ty.array^[k] left) l := by
  induction k generalizing left c with
  | zero =>
    rw [typeSuffixes, if_pos (rank_typePower hc hl)]
    exact gives_pure rfl hc
  | succ k ih =>
    have hkind : c.kind = .punct .openBracket := hc.kind
    rw [typeSuffixes, if_neg (by rw [hkind]; decide)]
    refine Gives.any (Gives.andThen (Q := (· = .array left)) (l := Ty.brackets k ++ l) ?_ ?_)
    · refine Gives.andThen (Cursor.Spells.expect hc) fun _ c₁ _ _ hc₁ => ?_
      exact Gives.map (Cursor.Spells.expect hc₁) fun _ _ => rfl
    · rintro value rest _ rfl hrest
      exact ih _ hrest

/-- A qualifier is read, or left out. -/
theorem gives_qualifier (q : Qualifier) {x : Spelling} (hx : x.1 ≠ .word .as_)
    (hc : c.Spells (q.spelling ++ x :: l)) : (qualifier c).Gives (· = q) (x :: l) := by
  cases q with
  | default =>
    refine (Cursor.Spells.not_eat hc hx).andThen fun found c₁ _ hfound hc₁ => ?_
    subst hfound
    exact gives_pure rfl hc₁
  | asVal =>
    refine (Cursor.Spells.eat hc).andThen fun found c₁ _ hfound hc₁ => ?_
    subst hfound
    have hkind : c₁.kind = .word .val := hc₁.kind
    rw [if_pos rfl, hkind]
    exact hc₁.read.map fun _ _ => rfl
  | asRef =>
    refine (Cursor.Spells.eat hc).andThen fun found c₁ _ hfound hc₁ => ?_
    subst hfound
    have hkind : c₁.kind = .word .ref := hc₁.kind
    rw [if_pos rfl, hkind]
    exact hc₁.read.map fun _ _ => rfl

end Grammar

namespace Ty

open Grammar Step

/-- The text of a type begins with a reserved word. -/
theorem exists_spelling_eq {t : Ty} (ht : t.Readable) :
    ∃ k l, t.spelling = Keyword.spelling k :: l := by
  match t with
  | int | long | double | char | str | bool | byte | void => exact ⟨_, _, spelling_of_word? rfl⟩
  | nil | any => exact absurd ht (by decide)
  | array element =>
    obtain ⟨k, l, hl⟩ := exists_spelling_eq (readable_array.1 ht)
    exact ⟨k, _, by rw [spelling, hl, List.cons_append]⟩
  | fn params quals ret variadic => exact ⟨.fn, _, by rw [spelling]⟩

/-- A type does not begin with punctuation. -/
theorem kind_ne_punct {t : Ty} (ht : t.Readable) {c : Cursor} {l : List Spelling}
    (hc : c.Spells (t.spelling ++ l)) (p : Punct) : c.kind ≠ .punct p := by
  obtain ⟨k, l', hk⟩ := exists_spelling_eq ht
  rw [hk] at hc
  rw [hc.kind]
  exact nofun

/-- Behind a parameter there is no bracket. -/
theorem endsType_qualifier (q : Qualifier) {p : Punct} (hp : p ≠ .openBracket) {l : List Spelling} :
    EndsType (q.spelling ++ p.spelling :: l) := by
  cases q with
  | default =>
    rintro x ⟨⟩ hx
    exact hp (TokenKind.punct.inj hx)
  | asVal =>
    rintro x ⟨⟩
    exact nofun
  | asRef =>
    rintro x ⟨⟩
    exact nofun

/-- A list of qualifiers that is long enough is asked for all of its qualifiers. -/
theorem map_qualifierAt_eq {quals : List Qualifier} {n : Nat} (h : quals.length = n) :
    (List.range' 0 n).map (qualifierAt (some quals)) = quals := by
  subst h
  refine List.ext_getElem (by simp) fun i hi hi' => ?_
  simp [qualifierAt, hi']

/-- What has been read of the qualifiers is what was written. -/
theorem qualifiersOf_map_qualifierAt {params : List Ty} {quals : Option (List Qualifier)} {ret : Ty}
    {variadic : Bool} (h : (fn params quals ret variadic).isPlain) :
    qualifiersOf ((List.range' 0 params.length).map (qualifierAt quals)) = quals := by
  cases quals with
  | none => simp [qualifiersOf, qualifierAt]
  | some qs =>
    obtain ⟨hlength, hany⟩ := (isPlain_fn h).2 qs rfl
    rw [map_qualifierAt_eq hlength, qualifiersOf, if_pos hany]

/-- A word is read as its type, and the brackets behind it as arrays. -/
theorem gives_type_word {t : Ty} {w : Keyword} (hw : t.word? = some w) (k : Nat) {c : Cursor}
    {l : List Spelling} (hl : EndsType l) (hc : c.Spells (t.spelling ++ (brackets k ++ l))) :
    (type .language .default c).Gives (· = array^[k] t) l := by
  rw [spelling_of_word? hw, List.singleton_append] at hc
  rw [type]
  refine Gives.andThen (Q := (· = t)) (l := brackets k ++ l) ?_ ?_
  -- the word, and then its brackets
  · have hform : Tables.language.typeForm? c.kind = some .builtin := by
      rw [hc.kind]
      exact typeForm?_of_word? hw
    rw [startType, hform]
    obtain ⟨first, ts, closing, rfl, hfirst, hts⟩ := hc.cons
    have hty : ofKind? first.kind = some t := by
      rw [show first.kind = .word w from congrArg Prod.fst hfirst]
      exact ofKind?_of_word? hw
    refine ⟨t, ⟨ts, closing⟩, rfl, hts, ?_⟩
    show (builtinType ⟨first :: ts, closing⟩).outcome = _
    unfold builtinType
    dsimp only
    rw [hty]
    rfl
  · rintro left rest _ rfl hrest
    exact typeSuffixes_brackets k _ hrest hl

mutual

/-- What is read from the tokens of a type with some brackets behind them. -/
theorem gives_type {t : Ty} (ht : t.Readable) (k : Nat) {c : Cursor} {l : List Spelling}
    (hl : EndsType l) (hc : c.Spells (t.spelling ++ (brackets k ++ l))) :
    (type .language .default c).Gives (· = t.reading k) l := by
  match t with
  | int | long | double | char | str | bool | byte | void => exact gives_type_word rfl k hl hc
  | nil | any => exact absurd ht (by decide)
  | array element =>
    rw [spelling, List.append_assoc] at hc
    exact gives_type (readable_array.1 ht) (k + 1) hl hc
  | fn params quals ret variadic =>
    obtain ⟨hplain, hparams, hret⟩ := readable_fn.1 ht
    obtain ⟨rfl, -⟩ := isPlain_fn hplain
    rw [spelling, List.cons_append, List.cons_append, List.append_assoc, List.cons_append,
      List.cons_append] at hc
    rw [type]
    refine Gives.andThen (Q := (· = (fn params quals ret false).reading k)) (l := l) ?_ ?_
    · rw [startType, show Tables.language.typeForm? c.kind = some .function by rw [hc.kind]; rfl]
      show (functionType .language c).Gives _ l
      rw [functionType]
      refine Gives.andThen (Cursor.Spells.expect hc) fun _ c₁ _ _ hc₁ => ?_
      refine Gives.andThen (Cursor.Spells.expect hc₁) fun _ c₂ _ _ hc₂ => ?_
      refine (gives_parameterTypes quals 0 hparams hc₂).andThen fun read c₃ _ hread hc₃ => ?_
      refine Gives.andThen (Cursor.Spells.expect hc₃) fun _ c₄ _ _ hc₄ => ?_
      refine Gives.andThen (Cursor.Spells.eat hc₄) fun found c₅ _ hfound hc₅ => ?_
      subst hfound
      dsimp only
      rw [if_pos rfl]
      refine ((gives_type hret k hl hc₅).map fun result hresult => ?_).any
      rw [hread.1, hread.2, hresult, qualifiersOf_map_qualifierAt hplain, reading]
    -- the brackets have been read as part of the result, so none are left
    · rintro left rest _ rfl hrest
      exact typeSuffixes_brackets 0 _ hrest hl

/-- What is read from the tokens of the parameters from number `index` on. -/
theorem gives_parameterTypes (quals : Option (List Qualifier)) (index : Nat) {params : List Ty}
    (hp : ∀ p ∈ params, p.Readable) {c : Cursor} {l : List Spelling}
    (hc : c.Spells (paramsSpelling quals index params ++ Punct.closeParen.spelling :: l)) :
    (parameterTypes .language c).Gives (fun read => read.map Prod.fst = readings params ∧
      read.map Prod.snd = (List.range' index params.length).map (qualifierAt quals))
      (Punct.closeParen.spelling :: l) := by
  match params with
  | [] =>
    rw [parameterTypes, if_pos (show c.kind = .punct .closeParen from hc.kind)]
    exact gives_pure ⟨rfl, rfl⟩ hc
  | param :: others =>
    obtain ⟨hparam, hothers⟩ := List.forall_mem_cons.1 hp
    have hmore {c : Cursor} := gives_parameterTypes quals (index + 1) hothers (c := c) (l := l)
    rw [paramsSpelling, List.append_assoc, List.append_assoc, List.append_assoc] at hc
    -- behind the first parameter there is a comma or the closing parenthesis
    obtain ⟨p, l', hp, hl'⟩ : ∃ p l', p ≠ Punct.openBracket ∧
        (if others.isEmpty then [] else [Punct.comma.spelling]) ++
          (paramsSpelling quals (index + 1) others ++ Punct.closeParen.spelling :: l) =
            p.spelling :: l' := by
      cases others with
      | nil => exact ⟨.closeParen, l, by decide, rfl⟩
      | cons other others => exact ⟨.comma, _, by decide, rfl⟩
    rw [hl'] at hc
    rw [parameterTypes, if_neg (kind_ne_punct hparam hc .closeParen)]
    refine ((gives_type hparam 0 (endsType_qualifier _ hp) hc).andThen
      fun read c₁ _ hread hc₁ => ?_).any
    refine (gives_qualifier _ (by simp [Punct.spelling]) hc₁).andThen fun q c₂ _ hq hc₂ => ?_
    subst hread hq
    rw [← hl'] at hc₂
    cases others with
    | nil =>
      refine (Cursor.Spells.not_eat hc₂ (by decide)).andThen fun more c₃ _ hm hc₃ => ?_
      subst hm
      exact gives_pure ⟨rfl, rfl⟩ hc₃
    | cons other others =>
      refine (Cursor.Spells.eat hc₂).andThen fun more c₃ _ hm hc₃ => ?_
      subst hm
      refine (hmore hc₃).map fun pairs hpairs => ?_
      rw [List.map_cons, List.map_cons, hpairs.1, hpairs.2]
      exact ⟨rfl, rfl⟩

end

end Ty

/-! ### Reading the text of a type -/

/-- The grammar answers with readable types only.  The text of a readable type is read to its end,
as a type with the same text, and this is the type itself exactly if no array of functions occurs
in it. -/
theorem type_tokenize_text :
    (∀ tables bp c t, (Grammar.type tables bp c).result = .ok t → t.Readable) ∧
    ∀ t : Ty, t.Readable → ∀ file, ∃ tokens read, tokenize t.text file = .ok tokens ∧
      (Grammar.type .language .default (.ofTokens tokens file)).result = .ok read ∧
      (Grammar.type .language .default (.ofTokens tokens file)).rest.ahead = [] ∧
      read.text = t.text ∧ (read = t ↔ ¬ t.HasFunctionArray) := by
  refine ⟨fun tables bp c t h => (Grammar.readable_type tables bp c).of_result h, ?_⟩
  intro t ht file
  have hend : ∀ c ∈ ([] : List Char).head?, continuesWord c = false := nofun
  obtain ⟨tokens, htokens, hspelling⟩ := Ty.scans_text ht hend .nil file 0
  have hc : (Cursor.ofTokens tokens file).Spells (t.spelling ++ (Ty.brackets 0 ++ [])) :=
    spells_ofTokens hspelling file
  obtain ⟨read, rest, rfl, hrest, hout⟩ := Ty.gives_type ht 0 (l := []) nofun hc
  refine ⟨tokens, t.reading 0, ?_, ?_, ?_, t.text_reading 0, t.reading_zero_eq_iff⟩
  · rw [List.append_nil] at htokens
    exact htokens
  · exact congrArg Prod.fst hout
  · rw [show (Grammar.type .language .default _).rest = rest from congrArg Prod.snd hout]
    exact List.map_eq_nil_iff.1 hrest

namespace Sample

/-- An array of functions, with an array of functions among their parameters. -/
def handlers : Ty :=
  .array (.fn [.array (.fn [.str] none .void false), .int] (some [.asRef, .default])
    (.array .byte) false)

end Sample

/-- The text of these functions is read, as another type. -/
theorem type_tokenize_text_handlers : Sample.handlers.Readable ∧ ∃ tokens read,
    tokenize Sample.handlers.text "handlers.sn" = .ok tokens ∧
    (Grammar.type .language .default (.ofTokens tokens "handlers.sn")).result = .ok read ∧
    read.Readable ∧ read.text = Sample.handlers.text ∧ read ≠ Sample.handlers := by
  have hreadable : Sample.handlers.Readable := by decide +kernel
  obtain ⟨tokens, read, htokens, hread, -, htext, heq⟩ :=
    type_tokenize_text.2 Sample.handlers hreadable "handlers.sn"
  have hne : ¬ read = Sample.handlers := by
    rw [heq]
    decide +kernel
  exact ⟨hreadable, tokens, read, htokens, hread, type_tokenize_text.1 _ _ _ _ hread, htext, hne⟩

end ThreadRegions
