import ThreadRegions.Diagnostic
import ThreadRegions.Text.Blank
import ThreadRegions.Text.Line

/-!
# Diagnostics on the screen

The text of a diagnostic: what is wrong, the file, and the offending line with a caret below it.

## Main Definitions

* `padLeft`: text pushed to the right edge of a column
* `excerpt`: a source line and the caret below it
* `Diagnostic.render`: the whole text

## Design Notes

Leading spaces and tabs of the source line are not shown.  The caret stands at the end of a row of
dashes, one for each byte between the first shown character and the offending one.
-/

namespace ThreadRegions

/-- `text` filled up with `fill` on the left to a width of `width` characters. -/
def padLeft (width : Nat) (fill : Char) (text : List Char) : List Char :=
  List.replicate (width - text.length) fill ++ text

/-- `text` filled up with spaces on the right to a width of `width` characters. -/
def padRight (width : Nat) (text : String) : String :=
  text ++ String.ofList (List.replicate (width - text.length) ' ')

/-- A space or a tab. -/
def isIndent (c : Char) : Bool := c = ' ' || c = '\t'

/-- A source line as it is shown: without its indentation and without blanks at the end. -/
def shownLine (text : List Char) : List Char :=
  ((text.dropWhile isIndent).reverse.dropWhile isBlank).reverse

/-- Three rows: an empty one, the source line behind its number, and the caret. -/
def excerpt (line : Line) : List Char :=
  let number := (toString line.number).toList
  let margin := padLeft (number.length + 2) ' ' ['|']
  let removed := utf8Length (line.text.takeWhile isIndent)
  let arrow := padLeft (line.column - removed + 1) '-' ['^']
  margin ++ ['\n'] ++
    number ++ [' ', '|', ' '] ++ shownLine line.text ++ ['\n'] ++
    margin ++ [' '] ++ arrow ++ ['\n']

/-- The text of a diagnostic about `source`.  A place outside of the text is not shown. -/
def Diagnostic.render (d : Diagnostic) (source : String) : String :=
  let advice := match d.cause.tip with
    | none => ""
    | some tip => s!"Tip: {tip}\n"
  let shown := match lineAt source.toList d.position.offset with
    | none => []
    | some line => excerpt line
  s!"Error: {d.cause.name} ({d.message})\n" ++ advice ++ s!"-> {d.position.file}\n" ++
    String.ofList shown

end ThreadRegions
