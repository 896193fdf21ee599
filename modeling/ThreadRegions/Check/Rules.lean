import ThreadRegions.Diagnostic
import ThreadRegions.Tree

/-!
# The rules of the type system

What the type of a compound expression is, given the types of its parts, and which marks a
declaration may carry.

## Main Definitions

* `BinaryOp.result`, `UnaryOp.result`: the types of operators
* `Ty.member?`: the members of arrays and strings
* `varQualifierError?`, `paramQualifierError?`, `isolatedReturnError?`: the rules on marks
* `effectiveModifier`: the modifier a function works with
* `LambdaHead.infer`: the types that a lambda takes over from its surroundings
-/

namespace ThreadRegions

/-! ### Operators -/

/-- The type of a number operation, which widens towards `double`. -/
def Ty.arithmetic? : Ty → Ty → Option Ty
  | .byte, .byte => some .byte
  | .byte, .int => some .int
  | .int, .byte => some .int
  | left, right => if left.isNumeric && right.isNumeric then left.promote right else none

/-- Whether the two values can be compared. -/
def Ty.comparable (left right : Ty) : Bool :=
  left.agrees right || (left.isNumber && right.isNumber)

/-- Whether adding the two values joins strings. -/
def Ty.joins (left right : Ty) : Bool :=
  (left = .str && right.isPrintable) || (right = .str && left.isPrintable)

/-- The type of an operator with operands of the given types. -/
def BinaryOp.result (op : BinaryOp) (left right : Ty) : Except Cause Ty :=
  if op.isComparison then
    if left.comparable right then .ok .bool else .error .comparisonMismatch
  else
    match op with
    | .and | .or =>
      if left = .bool ∧ right = .bool then .ok .bool else .error .logicalOperands
    | .add =>
      match left.arithmetic? right with
      | some t => .ok t
      | none => if left.joins right then .ok .str else .error .invalidAddition
    | _ =>
      match left.arithmetic? right with
      | some t => .ok t
      | none => .error .invalidArithmetic

/-- The type of an operator before an operand of the given type. -/
def UnaryOp.result (op : UnaryOp) (operand : Ty) : Except Cause Ty :=
  match op with
  | .negate => if operand.isNumber then .ok operand else .error .unaryMinus
  | .not => if operand = .bool then .ok .bool else .error .unaryNot

/-! ### Members -/

/-- The members of an array. -/
def arrayMembers : List String :=
  ["length", "push", "pop", "clear", "concat", "indexOf", "contains", "clone", "join", "reverse",
   "insert", "remove"]

/-- The members of a string. -/
def stringMembers : List String :=
  ["length", "substring", "indexOf", "split", "trim", "toUpper", "toLower", "startsWith",
   "endsWith", "contains", "replace", "charAt", "append"]

/-- The members of an array that change it. -/
def mutatingMembers : List String := ["push", "pop", "clear", "reverse", "insert", "remove"]

/-- The members of a value. -/
def Ty.memberNames : Ty → List String
  | .array _ => arrayMembers
  | .str => stringMembers
  | _ => []

/-- The type of a member of an array with the given elements. -/
def arrayMember? (element : Ty) : String → Option Ty
  | "length" => some .int
  | "push" => some (.function .void [element])
  | "pop" => some (.function element [])
  | "clear" => some (.function .void [])
  | "reverse" => some (.function .void [])
  | "concat" => some (.function (.array element) [.array element])
  | "indexOf" => some (.function .int [element])
  | "contains" => some (.function .bool [element])
  | "clone" => some (.function (.array element) [])
  | "join" => some (.function .str [.str])
  | "insert" => some (.function .void [element, .int])
  | "remove" => some (.function element [.int])
  | _ => none

/-- The type of a member of a string. -/
def stringMember? : String → Option Ty
  | "length" => some .int
  | "substring" => some (.function .str [.int, .int])
  | "indexOf" => some (.function .int [.str])
  | "split" => some (.function (.array .str) [.str])
  | "trim" => some (.function .str [])
  | "toUpper" => some (.function .str [])
  | "toLower" => some (.function .str [])
  | "startsWith" => some (.function .bool [.str])
  | "endsWith" => some (.function .bool [.str])
  | "contains" => some (.function .bool [.str])
  | "replace" => some (.function .str [.str, .str])
  | "charAt" => some (.function .char [.int])
  | "append" => some (.function .str [.str])
  | _ => none

/-- The type of a member of a value. -/
def Ty.member? : Ty → String → Option Ty
  | .array element, name => arrayMember? element name
  | .str, name => stringMember? name
  | _, _ => none

/-! ### Marks -/

/-- A variable can only refer to a primitive value. -/
def varQualifierError? (q : Qualifier) (t : Ty) : Option Cause :=
  if q = .asRef ∧ ¬ t.isPrimitive then some .asRefOnNonPrimitive else none

/-- A parameter can only refer to a primitive value. -/
def paramQualifierError? (q : Qualifier) (t : Ty) : Option Cause :=
  if q = .asRef ∧ ¬ t.isPrimitive then some .asRefOnNonPrimitiveParam else none

/-- Whether the qualifier asks for a copy where there would be one anyway. -/
def isIdleCopy (q : Qualifier) (t : Ty) : Bool := q = .asVal && t.isPrimitive

/-- What an isolated function or lambda returns has to leave its region. -/
def isolatedReturnError? (m : Modifier) (ret : Ty) (isLambda : Bool) : Option Cause :=
  if m ≠ .isolated ∨ ret.canEscape then none
  else some (if isLambda then .privateLambdaReturn else .privateFunctionReturn)

/-- The modifier a function works with: one that returns a reference shares the region of its
caller, unless it is declared to be isolated. -/
def effectiveModifier (declared : Modifier) (ret : Ty) : Modifier :=
  if declared ≠ .isolated ∧ ret.isReference then .shared else declared

/-! ### Signatures -/

/-- The type of a function declaration, with an unknown type for a parameter without one. -/
def FunctionHead.type (h : FunctionHead) : Ty :=
  .fn (h.params.map fun p => p.type.getD .nil)
    (Ty.qualifiersOf (h.params.map fun p => p.qualifier)) h.ret false

/-- Fills in the type of a parameter without one. -/
def Param.infer (p : Param) (expected : Ty) : Param :=
  match p.type with
  | some _ => p
  | none => { p with type := some expected }

/-- Fills in the missing types of a lambda from the type it is wanted at, if that is a function type
with as many parameters. -/
def LambdaHead.infer (h : LambdaHead) : Option Ty → LambdaHead
  | some (.fn params _ ret _) =>
    if h.params.length = params.length then
      { h with
        ret := some (h.ret.getD ret)
        params := h.params.zipWith Param.infer params }
    else h
  | _ => h

/-! ### Shapes of expressions -/

/-- The variable that a chain of index accesses begins with. -/
def Expr.root? : Expr → Option String
  | .var _ name => some name
  | .access _ inner _ => inner.root?
  | _ => none

/-- The name of what is called, as it stands in errors. -/
def Expr.calleeName : Expr → String
  | .var _ name => name
  | .member _ _ name => name
  | .lambda .. => "lambda"
  | _ => "expression"

/-- The variable and the method, if the expression is a mutating method of a bare variable. -/
def Expr.mutation? : Expr → Option (String × String)
  | .member _ (.var _ name) method =>
    if mutatingMembers.contains method then some (name, method) else none
  | _ => none

/-- An array literal with the declared element type where that says more: an empty literal, or one
of integers that are stored as bytes. -/
def Expr.refineArray (e : Expr) (element : Ty) : Expr :=
  match e.type? with
  | some (.array .nil) => e.withType (.array element)
  | some (.array .int) =>
    if element = .byte ∧ e.isArrayLiteral then e.withType (.array element) else e
  | _ => e

end ThreadRegions
