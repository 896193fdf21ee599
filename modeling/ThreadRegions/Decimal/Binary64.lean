import ThreadRegions.Decimal.Signed64

/-!
# Decimal fractions as binary numbers of 64 bits

Reading a decimal fraction as the nearest number of the IEEE 754 format binary64, where a tie goes
to the even neighbour.

## Main Definitions

* `Fraction`: a decimal fraction, exactly
* `fraction?`: the fraction that a text stands for
* `Fraction.toBinary64`: the nearest number of the format, as its 64 bits

## Design Notes

All arithmetic is on natural numbers, so that the result is correctly rounded by construction.  A
positive number with mantissa `m` and exponent `q`, where `m < 2 ^ 53` and `-1074 ≤ q`, has the bits
`(q + 1074) * 2 ^ 52 + m`: below the normal range `q` is `-1074` and the bits are the mantissa, and
a mantissa that rounding has carried to `2 ^ 53` moves into the exponent by itself.
-/

namespace ThreadRegions.Decimal

/-- The number `±digits * 10 ^ exponent`. -/
structure Fraction where
  /-- Whether the sign is minus. -/
  negative : Bool
  /-- All digits, read as one integer. -/
  digits : Nat
  /-- The power of ten that scales them. -/
  exponent : Int
  deriving DecidableEq, Repr

/-- Reads what follows the digits of a fraction: nothing, or `e` and a signed integer. -/
def exponent? : List Char → Option Int
  | [] => some 0
  | c :: cs =>
    if c = 'e' ∨ c = 'E' then
      let (negative, digits) := splitSign cs
      if isDigits digits then
        some (if negative then -(digitsValue digits : Int) else digitsValue digits)
      else none
    else none

/-- The fraction that a text stands for: an optional sign, digits with at most one point among
them, and an optional exponent. -/
def fraction? (cs : List Char) : Option Fraction :=
  let (negative, unsigned) := splitSign cs
  let whole := unsigned.takeWhile Char.isDigit
  let afterWhole := unsigned.dropWhile Char.isDigit
  let (places, rest) := match afterWhole with
    | '.' :: tail => (tail.takeWhile Char.isDigit, tail.dropWhile Char.isDigit)
    | _ => ([], afterWhole)
  if whole.isEmpty && places.isEmpty then none
  else (exponent? rest).map fun e =>
    ⟨negative, digitsValue (whole ++ places), e - places.length⟩

/-- The integer nearest to `num / den`, the even one of two. -/
def roundDiv (num den : Nat) : Nat :=
  let q := num / den
  let twice := 2 * (num % den)
  if den < twice ∨ (twice = den ∧ q % 2 = 1) then q + 1 else q

/-- The bits of positive infinity. -/
def infinityBits : Nat := 0x7ff0000000000000

/-- The bit of the minus sign. -/
def signBit : Nat := 0x8000000000000000

/-- The bits of the number nearest to the positive fraction `num / den`. -/
def nearestBits (num den : Nat) : Nat :=
  -- the quotient lies in the binary interval that begins at `2 ^ top`
  let guess : Int := (Nat.log2 num : Int) - Nat.log2 den
  let below : Bool :=
    if 0 ≤ guess then num < den <<< guess.toNat else num <<< (-guess).toNat < den
  let top := if below then guess - 1 else guess
  let q := max (top - 52) (-1074)
  let mantissa :=
    if 0 ≤ q then roundDiv num (den <<< q.toNat) else roundDiv (num <<< (-q).toNat) den
  min ((q + 1074).toNat <<< 52 + mantissa) infinityBits

/-- The bits of the absolute value of a fraction.  A value far outside of the format's range is
decided by its number of digits. -/
def Fraction.magnitudeBits (f : Fraction) : Nat :=
  if f.digits = 0 then 0
  else
    let size : Int := (Nat.toDigits 10 f.digits).length + f.exponent
    if 400 < size then infinityBits
    else if size < -400 then 0
    else if 0 ≤ f.exponent then nearestBits (f.digits * Nat.pow 10 f.exponent.toNat) 1
    else nearestBits f.digits (Nat.pow 10 (-f.exponent).toNat)

/-- The number of the format that is nearest to a fraction. -/
def Fraction.toBinary64 (f : Fraction) : UInt64 :=
  UInt64.ofNat (f.magnitudeBits + if f.negative then signBit else 0)

/-- The sixteen lower case hexadecimal digits of a word. -/
def hexWord (w : UInt64) : String :=
  let digits := Nat.toDigits 16 w.toNat
  String.ofList (List.replicate (16 - digits.length) '0' ++ digits)

end ThreadRegions.Decimal
