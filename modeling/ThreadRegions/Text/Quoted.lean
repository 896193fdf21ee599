import ThreadRegions.Text.Unshowable

/-!
# Quoted text

How a message shows a piece of source text: between double quotes, with a backslash escape for
every character that would not be read back as itself.

## Main Definitions

* `quoteChar`: what stands for one character
* `quoted`: the whole text between quotes
-/

namespace ThreadRegions

/-- What stands for `c` in a quoted text.  The single quote is left as it is, and a character that
cannot be shown is given by its code point in lower case hexadecimal. -/
def quoteChar (c : Char) : List Char :=
  match c with
  | '\x00' => ['\\', '0']
  | '\t' => ['\\', 't']
  | '\r' => ['\\', 'r']
  | '\n' => ['\\', 'n']
  | '\\' => ['\\', '\\']
  | '"' => ['\\', '"']
  | c =>
    if isShowable c then [c] else '\\' :: 'u' :: '\x7b' :: Nat.toDigits 16 c.toNat ++ ['\x7d']

/-- The text `s` between double quotes. -/
def quoted (s : String) : String :=
  String.ofList ('"' :: s.toList.flatMap quoteChar ++ ['"'])

end ThreadRegions
