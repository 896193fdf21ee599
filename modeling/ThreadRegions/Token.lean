import ThreadRegions.Text.Position

/-!
# Tokens

The words of the language: reserved words, punctuation, names and literals.

## Main Definitions

* `Keyword`, `Keyword.ofText?`: the reserved words
* `Punct`: punctuation and operators
* `TokenKind`: what a token is
* `Token`: a kind, the text it stands for and the place it was read from
-/

namespace ThreadRegions

/-- The reserved words. -/
inductive Keyword where
  | fn | var | return_ | if_ | else_ | for_ | while_ | break_ | continue_ | in_ | import_
  | nil | int | long | double | char | str | bool | byte | void
  | shared | private_ | as_ | val | ref | true_ | false_
  deriving DecidableEq, Repr

namespace Keyword

/-- All reserved words. -/
def all : List Keyword :=
  [fn, var, return_, if_, else_, for_, while_, break_, continue_, in_, import_,
   nil, int, long, double, char, str, bool, byte, void,
   shared, private_, as_, val, ref, true_, false_]

/-- The word as it is written. -/
def text : Keyword → String
  | fn => "fn"
  | var => "var"
  | return_ => "return"
  | if_ => "if"
  | else_ => "else"
  | for_ => "for"
  | while_ => "while"
  | break_ => "break"
  | continue_ => "continue"
  | in_ => "in"
  | import_ => "import"
  | nil => "nil"
  | int => "int"
  | long => "long"
  | double => "double"
  | char => "char"
  | str => "str"
  | bool => "bool"
  | byte => "byte"
  | void => "void"
  | shared => "shared"
  | private_ => "private"
  | as_ => "as"
  | val => "val"
  | ref => "ref"
  | true_ => "true"
  | false_ => "false"

/-- The reserved word that is written `s`. -/
def ofText? (s : String) : Option Keyword :=
  all.find? fun k => k.text = s

/-- The name under which the word is listed. -/
def name : Keyword → String
  | fn => "Fn"
  | var => "Var"
  | return_ => "Return"
  | if_ => "If"
  | else_ => "Else"
  | for_ => "For"
  | while_ => "While"
  | break_ => "Break"
  | continue_ => "Continue"
  | in_ => "In"
  | import_ => "Import"
  | nil => "Nil"
  | int => "Int"
  | long => "Long"
  | double => "Double"
  | char => "Char"
  | str => "Str"
  | bool => "Bool"
  | byte => "Byte"
  | void => "Void"
  | shared => "Shared"
  | private_ => "Private"
  | as_ => "As"
  | val => "Val"
  | ref => "Ref"
  | true_ => "True"
  | false_ => "False"

/-- Whether the word names a type. -/
def namesType : Keyword → Bool
  | int | long | double | char | str | bool | byte | void => true
  | _ => false

end Keyword

/-- A word that the language keeps for itself. -/
def isReserved (s : String) : Bool := (Keyword.ofText? s).isSome

/-- Punctuation and operators. -/
inductive Punct where
  | openBracket | closeBracket | openCurly | closeCurly | openParen | closeParen
  | equals | fatArrow | notEquals | not | assignment
  | lessEquals | less | greaterEquals | greater | or | and | ampersand
  | dotDot | dot | semicolon | colon | comma
  | plusPlus | minusMinus | plus | dash | slash | star | percent
  deriving DecidableEq, Repr

namespace Punct

/-- All punctuation.  Where one text begins with another, the longer one comes first. -/
def all : List Punct :=
  [openBracket, closeBracket, openCurly, closeCurly, openParen, closeParen,
   equals, fatArrow, notEquals, not, assignment,
   lessEquals, less, greaterEquals, greater, or, and, ampersand,
   dotDot, dot, semicolon, colon, comma,
   plusPlus, minusMinus, plus, dash, slash, star, percent]

/-- The characters of a punctuation token. -/
def chars : Punct → List Char
  | openBracket => ['[']
  | closeBracket => [']']
  | openCurly => ['\x7b']
  | closeCurly => ['\x7d']
  | openParen => ['(']
  | closeParen => [')']
  | equals => ['=', '=']
  | fatArrow => ['=', '>']
  | notEquals => ['!', '=']
  | not => ['!']
  | assignment => ['=']
  | lessEquals => ['<', '=']
  | less => ['<']
  | greaterEquals => ['>', '=']
  | greater => ['>']
  | or => ['|', '|']
  | and => ['&', '&']
  | ampersand => ['&']
  | dotDot => ['.', '.']
  | dot => ['.']
  | semicolon => [';']
  | colon => [':']
  | comma => [',']
  | plusPlus => ['+', '+']
  | minusMinus => ['-', '-']
  | plus => ['+']
  | dash => ['-']
  | slash => ['/']
  | star => ['*']
  | percent => ['%']

/-- The name under which the token is listed. -/
def name : Punct → String
  | openBracket => "OpenBracket"
  | closeBracket => "CloseBracket"
  | openCurly => "OpenCurly"
  | closeCurly => "CloseCurly"
  | openParen => "OpenParen"
  | closeParen => "CloseParen"
  | equals => "Equals"
  | fatArrow => "FatArrow"
  | notEquals => "NotEquals"
  | not => "Not"
  | assignment => "Assignment"
  | lessEquals => "LessEquals"
  | less => "Less"
  | greaterEquals => "GreaterEquals"
  | greater => "Greater"
  | or => "Or"
  | and => "And"
  | ampersand => "Ampersand"
  | dotDot => "DotDot"
  | dot => "Dot"
  | semicolon => "Semicolon"
  | colon => "Colon"
  | comma => "Comma"
  | plusPlus => "PlusPlus"
  | minusMinus => "MinusMinus"
  | plus => "Plus"
  | dash => "Dash"
  | slash => "Slash"
  | star => "Star"
  | percent => "Percent"

end Punct

/-- What a token is. -/
inductive TokenKind where
  /-- The end of the text. -/
  | eof
  /-- An integer or a decimal fraction. -/
  | number
  /-- An integer with the suffix of a long one. -/
  | longNumber
  | charLiteral
  | string
  | identifier
  | punct (p : Punct)
  | word (k : Keyword)
  deriving DecidableEq, Repr

namespace TokenKind

/-- The name under which a kind is listed. -/
def name : TokenKind → String
  | eof => "EOF"
  | number => "Number"
  | longNumber => "LongNumber"
  | charLiteral => "CharLiteral"
  | string => "String"
  | identifier => "Identifier"
  | punct p => p.name
  | word k => k.name

/-- All kinds. -/
def all : List TokenKind :=
  [eof, number, longNumber, charLiteral, string, identifier] ++
    Punct.all.map punct ++ Keyword.all.map word

/-- The kind that is listed under `s`. -/
def ofName? (s : String) : Option TokenKind :=
  all.find? fun k => k.name = s

/-- Whether a token of this kind names a type. -/
def namesType : TokenKind → Bool
  | word k => k.namesType
  | _ => false

end TokenKind

/-- A word of the source text. -/
structure Token where
  /-- What it is. -/
  kind : TokenKind
  /-- The text it stands for, with the escapes of a literal resolved. -/
  value : String
  /-- Where it was read from. -/
  span : Span
  deriving DecidableEq, Repr

/-- The listing of a token. -/
def Token.listing (t : Token) : String :=
  "Token \x7b\nkind: " ++ t.kind.name ++ ",\nvalue: " ++ t.value ++ "\x7d"

/-- Every word is found by its text. -/
theorem Keyword.ofText?_text (k : Keyword) : Keyword.ofText? k.text = some k := by
  cases k <;> decide

/-- What is found is written that way. -/
theorem Keyword.text_of_ofText? {s : String} {k : Keyword} (h : Keyword.ofText? s = some k) :
    k.text = s := by
  have := List.find?_some h
  simpa using this

end ThreadRegions
