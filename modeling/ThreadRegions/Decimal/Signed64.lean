/-!
# Decimal integers of 64 bits

Reading a signed decimal integer that has to fit into 64 bits.

## Main Definitions

* `splitSign`: a leading sign and what follows it
* `digitsValue`: the number that a row of decimal digits stands for
* `signed64?`: the integer that a text stands for
-/

namespace ThreadRegions.Decimal

/-- Whether the text is negative, and what follows its sign.  A plus sign may be written. -/
def splitSign : List Char → Bool × List Char
  | '-' :: cs => (true, cs)
  | '+' :: cs => (false, cs)
  | cs => (false, cs)

/-- The value of a row of decimal digits, the most significant first. -/
def digitsValue (cs : List Char) : Nat :=
  cs.foldl (fun n c => 10 * n + (c.toNat - '0'.toNat)) 0

/-- A row of at least one decimal digit and nothing else. -/
def isDigits (cs : List Char) : Bool :=
  !cs.isEmpty && cs.all Char.isDigit

/-- The first integer that is too large for 64 bits with a sign. -/
def signed64Bound : Int := 0x8000000000000000

/-- The integer that a text with an optional sign stands for, if it fits into 64 bits. -/
def signed64? (cs : List Char) : Option Int :=
  let (negative, digits) := splitSign cs
  if isDigits digits then
    let n : Int := if negative then -(digitsValue digits : Int) else digitsValue digits
    if -signed64Bound ≤ n ∧ n < signed64Bound then some n else none
  else none

end ThreadRegions.Decimal
