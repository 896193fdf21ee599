/-!
# Positions and spans

Where a piece of source text stands: a file name and a byte offset into the UTF-8 text of that file.

## Main Definitions

* `Position`: a byte offset in a named file
* `Span`: the stretch of text between two positions
* `utf8Length`: the number of bytes that a list of characters takes

## Design Notes

The scanner works on lists of characters.  A byte offset is therefore a measure on the characters
that have been read, and no index into a byte string appears anywhere.
-/

namespace ThreadRegions

/-- A place in a source file, counted in bytes from its beginning. -/
structure Position where
  /-- Number of bytes before the place. -/
  offset : Nat
  /-- Name of the file. -/
  file : String
  deriving DecidableEq, Repr, Inhabited

/-- The place that is used where there is no source text to point into. -/
def Position.nowhere : Position := ⟨0, "<null>"⟩

/-- The text from `start` up to, and not including, `stop`. -/
structure Span where
  /-- First byte. -/
  start : Position
  /-- The byte after the last one. -/
  stop : Position
  deriving DecidableEq, Repr, Inhabited

/-- The span of `length` bytes that begins `offset` bytes into `file`. -/
def Span.ofLength (file : String) (offset length : Nat) : Span :=
  ⟨⟨offset, file⟩, ⟨offset + length, file⟩⟩

/-- Number of bytes of `cs` in UTF-8. -/
def utf8Length : List Char → Nat
  | [] => 0
  | c :: cs => c.utf8Size + utf8Length cs

@[simp] theorem utf8Length_nil : utf8Length [] = 0 := rfl

@[simp] theorem utf8Length_cons (c : Char) (cs : List Char) :
    utf8Length (c :: cs) = c.utf8Size + utf8Length cs := rfl

@[simp] theorem utf8Length_append (as bs : List Char) :
    utf8Length (as ++ bs) = utf8Length as + utf8Length bs := by
  induction as with
  | nil => simp
  | cons c as ih => simp [ih, Nat.add_assoc]

/-- The characters of `cs` from byte `offset` on.  An offset inside a character counts as the end
of that character. -/
def dropBytes : Nat → List Char → List Char
  | 0, cs => cs
  | _ + 1, [] => []
  | n + 1, c :: cs => dropBytes (n + 1 - c.utf8Size) cs

end ThreadRegions
