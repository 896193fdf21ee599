/-!
# Escapes in literals

A backslash in a string or character literal gives the character after it a meaning of its own.

## Main Definitions

* `hexValue?`: the value of a hexadecimal digit
* `Escape.simple?`: the escapes of one letter
* `unescape`: the text that the body of a literal stands for
-/

namespace ThreadRegions

/-- The value of a hexadecimal digit of either case. -/
def hexValue? (c : Char) : Option Nat :=
  if '0' ≤ c ∧ c ≤ '9' then some (c.toNat - '0'.toNat)
  else if 'a' ≤ c ∧ c ≤ 'f' then some (c.toNat - 'a'.toNat + 10)
  else if 'A' ≤ c ∧ c ≤ 'F' then some (c.toNat - 'A'.toNat + 10)
  else none

/-- The character that a backslash and one letter stand for. -/
def Escape.simple? : Char → Option Char
  | 'n' => some '\n'
  | 't' => some '\t'
  | 'r' => some '\r'
  | '0' => some '\x00'
  | '\\' => some '\\'
  | '"' => some '"'
  | '\'' => some '\''
  | _ => none

/-- The text that the body of a literal stands for.  After `\x` come one or two hexadecimal digits;
without any the literal has no meaning.  An unknown escape stands for itself. -/
def unescape : List Char → Option (List Char)
  | [] => some []
  | '\\' :: [] => some ['\\']
  | '\\' :: 'x' :: rest =>
    match rest with
    | [] => none
    | a :: afterA =>
      match hexValue? a with
      | none => none
      | some high =>
        match afterA with
        | [] => some [Char.ofNat high]
        | b :: afterB =>
          match hexValue? b with
          | none => (unescape (b :: afterB)).map (Char.ofNat high :: ·)
          | some low => (unescape afterB).map (Char.ofNat (16 * high + low) :: ·)
  | '\\' :: c :: rest =>
    match Escape.simple? c with
    | some meant => (unescape rest).map (meant :: ·)
    | none => (unescape rest).map fun tail => '\\' :: c :: tail
  | c :: rest => (unescape rest).map (c :: ·)

end ThreadRegions
