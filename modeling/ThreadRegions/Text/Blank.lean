/-!
# Blank characters

The characters that separate tokens and that are cut from the end of a shown source line: those
with the Unicode property White_Space.

## Main Definitions

* `Blank.ranges`: the code points with that property, in increasing order
* `isBlank`: membership
-/

namespace ThreadRegions

/-- The code points with the property White_Space, as inclusive ranges in increasing order. -/
def Blank.ranges : List (Nat × Nat) :=
  [(0x9, 0xd), (0x20, 0x20), (0x85, 0x85), (0xa0, 0xa0), (0x1680, 0x1680), (0x2000, 0x200a),
   (0x2028, 0x2029), (0x202f, 0x202f), (0x205f, 0x205f), (0x3000, 0x3000)]

/-- A character that separates tokens. -/
def isBlank (c : Char) : Bool :=
  Blank.ranges.any fun (lo, hi) => lo ≤ c.toNat && c.toNat ≤ hi

end ThreadRegions
