import ThreadRegions.Decimal.Binary64
import ThreadRegions.Grammar.Cursor
import ThreadRegions.Grammar.Forms

/-!
# Expressions of one or two tokens

The expressions that are read without reading another expression: literals and names, and the
endings `++`, `--`, `!` and `.name` of an expression that has been read already.

## Main Definitions

* `Grammar.literal?`: the value that a literal token stands for
* `Grammar.primary`: a literal or a name
* `Grammar.count`, `Grammar.sync`, `Grammar.member`: the endings
* `Expr.assignTo?`: the assignment to an expression
-/

namespace ThreadRegions

/-- The assignment of `value` to the place that an expression denotes: a variable or an element of
an array. -/
def Expr.assignTo? (target : Expr) (node : Node) (value : Expr) : Option Expr :=
  match target with
  | .var _ name => some (.assign node name value)
  | .access _ a i => some (.indexAssign node a i value)
  | _ => none

namespace Grammar

/-- The value of a number token.  One with a point is a fraction. -/
def numberValue? (text : List Char) : Option Literal :=
  if text.contains '.' then (Decimal.fraction? text).map fun f => .double f.toBinary64
  else (Decimal.signed64? text).map .int

/-- The value that a literal token stands for, or what is wrong with it. -/
def literal? (t : Token) : Except Cause Literal :=
  match t.kind with
  | .number =>
    match numberValue? t.value.toList with
    | some value => .ok value
    | none => .error (.numberParseError t.value)
  | .longNumber =>
    match Decimal.signed64? t.value.toList with
    | some value => .ok (.long value)
    | none => .error (.numberParseError t.value)
  | .charLiteral =>
    match t.value.toList with
    | c :: _ => .ok (.char c)
    | [] => .error (.invalidCharLiteral t.value)
  | .string => .ok (.str t.value)
  | .word .true_ => .ok (.bool true)
  | .word .false_ => .ok (.bool false)
  | .word .nil => .ok .nil
  | _ => .error (.unexpectedToken t.value)

/-- The expression that one token stands for. -/
def primaryOf (t : Token) : Except Cause Expr :=
  if t.kind = .identifier then .ok (.var (.at t.span) t.value)
  else (literal? t).map fun value => .literal (.at t.span) value

/-- A literal or a name.  A token that is neither is left unread. -/
def primary (c : Cursor) : Step Expr c 1 :=
  match c with
  | ⟨[], closing⟩ => .fail (Cursor.unexpected ⟨[], closing⟩)
  | ⟨t :: ts, closing⟩ =>
    match primaryOf t with
    | .ok e => .done e ⟨ts, closing⟩ .one_of_cons
    | .error cause => .fail ⟨cause, t.span.start⟩

/-- The text from the beginning of `left` to the end of `t`. -/
def spanTo (left : Expr) (t : Token) : Span := ⟨left.start, t.span.stop⟩

/-- Counting up or down, as `operator` says. -/
def counted (left : Expr) (operator : Token) : Expr :=
  if operator.kind = .punct .plusPlus then .increment (.at (spanTo left operator)) left
  else .decrement (.at (spanTo left operator)) left

/-- An ending `++`, or anything else, which counts down. -/
def count (left : Expr) (c : Cursor) : Step Expr c 0 :=
  c.read.map (counted left)

/-- An ending `!`. -/
def sync (left : Expr) (c : Cursor) : Step Expr c 1 :=
  (c.expect (.punct .not)).map fun bang => .sync (.at (spanTo left bang)) left false

/-- An ending `.name`. -/
def member (left : Expr) (c : Cursor) : Step Expr c 1 :=
  (c.expect (.punct .dot)).andThen fun _ rest _ =>
    (rest.expectBut .identifier "expected member name after '.'").map fun name =>
      .member (.at (spanTo left name)) left name.value

end Grammar

end ThreadRegions
