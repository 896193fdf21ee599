/-!
# Edit distance and the closest name

The number of single character insertions, deletions and replacements that turn one word into
another, and the candidate that comes closest to a misspelt name.

## Main Definitions

* `editDistance`: the distance of two words
* `closest`: the first of the candidates at the least distance

## Design Notes

`distances as bs` holds the distance of `as` to every suffix of `bs`, longest first.  One letter
more in front of `as` costs one pass over that list, so that the whole table is never built.
-/

namespace ThreadRegions

/-- The number of letters of every suffix of a word, the word itself first. -/
def suffixLengths : List Char → List Nat
  | [] => [0]
  | _ :: bs => (bs.length + 1) :: suffixLengths bs

/-- From the distances of `as` to the suffixes of a word, those of `a :: as`. -/
def addLetter (a : Char) : List Char → List Nat → List Nat
  | [], row => [row.headD 0 + 1]
  | b :: bs, row =>
    let shorter := addLetter a bs row.tail
    let here :=
      if a = b then row.tail.headD 0
      else min (min (row.headD 0) (shorter.headD 0)) (row.tail.headD 0) + 1
    here :: shorter

/-- The distances of a word to the suffixes of `bs`, longest suffix first. -/
def distances (bs : List Char) : List Char → List Nat
  | [] => suffixLengths bs
  | a :: as => addLetter a bs (distances bs as)

/-- The least number of insertions, deletions and replacements of a letter between two words. -/
def editDistance (as bs : List Char) : Nat :=
  (distances bs as).headD 0

/-- Whether `candidate` can be what was meant by `name`: it is another word at a distance of at
most `most`, and the lengths differ by at most two. -/
def isNear (name : List Char) (most : Nat) (candidate : List Char) : Bool :=
  (candidate.length ≤ name.length + 2 && name.length ≤ candidate.length + 2) &&
    (0 < editDistance name candidate && editDistance name candidate ≤ most)

/-- Keeps the nearer of the best candidate so far and the next one, the earlier on a tie. -/
def nearer (name : List Char) (best : Option String) (candidate : String) : Option String :=
  match best with
  | none => some candidate
  | some b =>
    if editDistance name candidate.toList < editDistance name b.toList then some candidate
    else some b

/-- The first of the candidates that are nearest to `name`, none of them being `name` itself or
farther away than `most`. -/
def closest (name : String) (candidates : List String) (most : Nat) : Option String :=
  (candidates.filter fun c => isNear name.toList most c.toList).foldl (nearer name.toList) none

end ThreadRegions
