import ThreadRegions.Grammar.Cursor
import ThreadRegions.Grammar.Forms

/-!
# Reading types

Types as they are written after a colon, and the marks on parameters.

## Main Definitions

* `Grammar.type`: a type
* `Grammar.functionType`, `Grammar.arrayType`: the compound types
* `Grammar.qualifier`, `Grammar.modifier`: the marks `as val`, `as ref`, `shared` and `private`
* `Grammar.parameters`: the parameters of a function or a lambda
-/

namespace ThreadRegions.Grammar

/-- A type that is a reserved word.  Whatever stands there is read. -/
def builtinType (c : Cursor) : Step Ty c 1 :=
  match c with
  | ⟨[], closing⟩ => .fail ⟨.unknownType closing.value, closing.span.start⟩
  | ⟨t :: ts, closing⟩ =>
    match Ty.ofKind? t.kind with
    | some ty => .done ty ⟨ts, closing⟩ .one_of_cons
    | none => .stop ⟨.unknownType t.value, t.span.start⟩ ⟨ts, closing⟩ .any_of_cons

/-- A type by a name of its own.  There are no such types. -/
def namedType (c : Cursor) : Step Ty c 1 :=
  (c.expect .identifier).andThen fun name rest _ =>
    (.fail ⟨.unknownType name.value, name.span.start⟩ : Step Ty rest 0)

/-- An optional `as val` or `as ref`. -/
def qualifier (c : Cursor) : Step Qualifier c 0 :=
  (c.eat (.word .as_)).andThen fun found rest _ =>
    if found then
      match rest.kind with
      | .word .val => rest.read.map fun _ => .asVal
      | .word .ref => rest.read.map fun _ => .asRef
      | _ => .fail (rest.unexpectedBut "expected 'val' or 'ref' after 'as'")
    else .pure .default

/-- An optional `shared` or `private`. -/
def modifier (c : Cursor) : Step Modifier c 0 :=
  match c.kind with
  | .word .shared => c.read.map fun _ => .shared
  | .word .private_ => c.read.map fun _ => .isolated
  | _ => .pure .default

/-- The brackets that make `element` the element type of an array. -/
def arrayType (element : Ty) (c : Cursor) : Step Ty c 1 :=
  (c.expect (.punct .openBracket)).andThen fun _ rest _ =>
    (rest.expect (.punct .closeBracket)).map fun _ => .array element

/-- The brackets that follow a type. -/
def typeSuffixes (t : Tables) (bp : BindingPower) (left : Ty) (c : Cursor) : Step Ty c 0 :=
  if (t.typePower c.kind).rank ≤ bp.rank then .pure left
  else ((arrayType left c).andThen fun left rest _ => typeSuffixes t bp left rest).any
termination_by c.remaining

mutual

/-- A type, with the brackets after it that bind more tightly than `bp`. -/
def type (t : Tables) (bp : BindingPower) (c : Cursor) : Step Ty c 1 :=
  (startType t c).andThen fun left rest _ => typeSuffixes t bp left rest
termination_by 4 * c.remaining + 2

/-- A type without the brackets after it. -/
def startType (t : Tables) (c : Cursor) : Step Ty c 1 :=
  match t.typeForm? c.kind with
  | none => .fail (c.unexpectedBut "expected a type")
  | some .builtin => builtinType c
  | some .named => namedType c
  | some .function => functionType t c
termination_by 4 * c.remaining + 1

/-- A function type.  Without a result it returns nothing. -/
def functionType (t : Tables) (c : Cursor) : Step Ty c 1 :=
  (c.expect (.word .fn)).andThen fun _ rest _ =>
    (rest.expect (.punct .openParen)).andThen fun _ rest _ =>
      (parameterTypes t rest).andThen fun params rest _ =>
        (rest.expect (.punct .closeParen)).andThen fun _ rest _ =>
          (rest.eat (.punct .colon)).andThen fun found rest _ =>
            let make (ret : Ty) : Ty :=
              .fn (params.map Prod.fst) (Ty.qualifiersOf (params.map Prod.snd)) ret false
            if found then ((type t .default rest).map make).any else .pure (make .void)
termination_by 4 * c.remaining
decreasing_by all_goals simp only [TokenKind.width] at *; omega

/-- The types of the parameters of a function type, up to the closing parenthesis. -/
def parameterTypes (t : Tables) (c : Cursor) : Step (List (Ty × Qualifier)) c 0 :=
  if c.kind = .punct .closeParen then .pure []
  else
    ((type t .default c).andThen fun param rest _ =>
      (qualifier rest).andThen fun q rest _ =>
        (rest.eat (.punct .comma)).andThen fun more rest _ =>
          if more then (parameterTypes t rest).map ((param, q) :: ·)
          else .pure [(param, q)]).any
termination_by 4 * c.remaining + 3

end

/-- An optional colon with a type. -/
def typeMark (t : Tables) (c : Cursor) : Step (Option Ty) c 0 :=
  (c.eat (.punct .colon)).andThen fun found rest _ =>
    if found then ((type t .default rest).map some).any else .pure none

/-- A parameter: a name, and perhaps a type and a qualifier. -/
def parameter (t : Tables) (c : Cursor) : Step Param c 1 :=
  (c.expectBut .identifier "expected parameter name").andThen fun name rest _ =>
    (typeMark t rest).andThen fun type rest _ =>
      (qualifier rest).andThen fun q rest _ =>
        .pure ⟨name.value, type, q, rest.spanFrom name.span.start, none⟩

/-- Parameters separated by commas, up to the closing parenthesis. -/
def parameterList (t : Tables) (c : Cursor) : Step (List Param) c 0 :=
  if c.kind = .punct .closeParen then .pure []
  else
    ((parameter t c).andThen fun param rest _ =>
      (rest.eat (.punct .comma)).andThen fun more rest _ =>
        if more then (parameterList t rest).map (param :: ·) else .pure [param]).any
termination_by c.remaining

/-- The parameters of a function or a lambda, in parentheses. -/
def parameters (t : Tables) (c : Cursor) : Step (List Param) c 1 :=
  (c.expect (.punct .openParen)).andThen fun _ rest _ =>
    (parameterList t rest).andThen fun params rest _ =>
      (rest.expect (.punct .closeParen)).map fun _ => params

end ThreadRegions.Grammar
