import ThreadRegions.Text.Position

/-!
# Lines of a source text

The line that a byte offset falls into, with its number and the offset within it.

## Main Definitions

* `lines`: the lines of a text, each with the newline that ends it
* `Line`: a numbered line and a column in it
* `lineAt`: the line of a byte offset
-/

namespace ThreadRegions

/-- The lines of a text.  Each keeps its newline, so that nothing of the text is lost. -/
def lines : List Char → List (List Char)
  | [] => []
  | c :: cs =>
    if c = '\n' then [c] :: lines cs
    else match lines cs with
      | [] => [[c]]
      | first :: others => (c :: first) :: others

/-- Joining the lines gives the text back. -/
@[simp] theorem flatten_lines (cs : List Char) : (lines cs).flatten = cs := by
  induction cs with
  | nil => rfl
  | cons c cs ih =>
    simp only [lines]
    split
    · simp [ih]
    · cases h : lines cs with
      | nil => rw [h] at ih; simp [← ih]
      | cons first others => rw [h] at ih; simp [← ih]

/-- A place in a text by line and column. -/
structure Line where
  /-- Number of the line, from 1 on. -/
  number : Nat
  /-- The line with its newline, if it has one. -/
  text : List Char
  /-- Number of bytes of the line before the place. -/
  column : Nat
  deriving DecidableEq, Repr

/-- Finds the line that holds byte `offset`, where the first of the given lines has number
`number`. -/
def lineAmong (number offset : Nat) : List (List Char) → Option Line
  | [] => none
  | text :: others =>
    if offset < utf8Length text then some ⟨number, text, offset⟩
    else lineAmong (number + 1) (offset - utf8Length text) others

/-- The line that holds byte `offset` of `source`, if the text is that long. -/
def lineAt (source : List Char) (offset : Nat) : Option Line :=
  lineAmong 1 offset (lines source)

end ThreadRegions
