import ThreadRegions.Text.Position
import ThreadRegions.Text.Quoted

/-!
# Diagnostics

Everything that can be wrong with a program, from a stray character to a frozen array that is
written to.

## Main Definitions

* `Cause`: what is wrong
* `Cause.name`, `Cause.message`, `Cause.tip`: how it is told
* `Diagnostic`: a cause and the place it was found at

## Design Notes

A cause carries what its wording needs and nothing else.  All wording is in this module; the rest
of the library only ever builds causes.
-/

namespace ThreadRegions

/-- What is wrong with a program. -/
inductive Cause where
  -- reading tokens and syntax
  | unrecognisedToken (token : String)
  | unexpectedToken (token : String)
  | unexpectedTokenDetailed (token message : String)
  | numberParseError (token : String)
  | invalidCharLiteral (token : String)
  | unknownType (type : String)
  | importNotFound (module : String)
  -- declarations and statements
  | initializerMismatch
  | spawnResultMismatch
  | voidSpawnAssignment
  | cannotInferType
  | asRefOnNonPrimitive
  | asRefOnNonPrimitiveParam
  | privateFunctionReturn
  | privateLambdaReturn
  | functionAlreadyDefined (function : String)
  | missingParameterType
  | returnTypeMismatch (expected received : String)
  | nonBooleanCondition (construct : String)
  | forEachNonArray
  -- namespaces
  | reservedNamespace (name : String)
  | namespaceAlreadyDefined (name : String)
  | namespaceNameInUse (name : String)
  -- names and assignment
  | undefinedVariable (name : String) (suggestion : Option String)
  | undefinedAssignTarget (name : String) (suggestion : Option String)
  | assignmentMismatch (expected received : String)
  | privateEscape
  -- operators
  | comparisonMismatch
  | invalidArithmetic
  | invalidAddition
  | logicalOperands
  | unaryMinus
  | unaryNot
  -- arrays
  | indexNonArray
  | indexNotInteger
  | indexAssignMismatch
  | accessNonArray
  | indexNotNumeric
  | arrayElementMismatch
  | rangeBound (bound : String)
  | incrementNonNumeric
  -- calls and members
  | lenArgument
  | unsupportedBuiltinArgument
  | noSuchMember (type member : String) (suggestion : Option String)
  | callNonFunction (name type : String)
  | argumentCount (function : String) (expected received : Nat)
  | argumentMismatch (function : String) (index : Nat) (expected received : String)
  -- lambdas
  | lambdaReturnInference
  | lambdaParamInference
  | lambdaBodyMismatch
  -- threads
  | spawnRequiresCall
  | spawnNonFunction
  | syncRequiresHandle
  | arraySyncRequiresHandles
  | notPendingHandle (name : String)
  | alreadySynchronized (name : String)
  | pendingHandleUse (name : String)
  | pendingHandleReassign (name : String)
  | frozenMutation (name : String)
  | frozenMethodCall (method name : String)
  deriving DecidableEq, Repr

namespace Cause

/-- The name under which a kind of error is reported. -/
def name : Cause → String
  | unrecognisedToken _ => "UnrecognisedToken"
  | unexpectedToken _ => "UnexpectedToken"
  | unexpectedTokenDetailed _ _ => "UnexpectedTokenDetailed"
  | numberParseError _ => "NumberParseError"
  | invalidCharLiteral _ => "InvalidCharLiteral"
  | unknownType _ => "UnknownType"
  | importNotFound _ => "ImportNotFound"
  | initializerMismatch => "InitializerMismatch"
  | spawnResultMismatch => "SpawnResultMismatch"
  | voidSpawnAssignment => "VoidSpawnAssignment"
  | cannotInferType => "CannotInferType"
  | asRefOnNonPrimitive => "AsRefOnNonPrimitive"
  | asRefOnNonPrimitiveParam => "AsRefOnNonPrimitiveParam"
  | privateFunctionReturn => "PrivateFunctionReturn"
  | privateLambdaReturn => "PrivateLambdaReturn"
  | functionAlreadyDefined _ => "FunctionAlreadyDefined"
  | missingParameterType => "MissingParameterType"
  | returnTypeMismatch _ _ => "ReturnTypeMismatch"
  | nonBooleanCondition _ => "NonBooleanCondition"
  | forEachNonArray => "ForEachNonArray"
  | reservedNamespace _ => "ReservedNamespace"
  | namespaceAlreadyDefined _ => "NamespaceAlreadyDefined"
  | namespaceNameInUse _ => "NamespaceNameInUse"
  | undefinedVariable _ _ => "UndefinedVariable"
  | undefinedAssignTarget _ _ => "UndefinedAssignTarget"
  | assignmentMismatch _ _ => "AssignmentMismatch"
  | privateEscape => "PrivateEscape"
  | comparisonMismatch => "ComparisonMismatch"
  | invalidArithmetic => "InvalidArithmetic"
  | invalidAddition => "InvalidAddition"
  | logicalOperands => "LogicalOperands"
  | unaryMinus => "UnaryMinus"
  | unaryNot => "UnaryNot"
  | indexNonArray => "IndexNonArray"
  | indexNotInteger => "IndexNotInteger"
  | indexAssignMismatch => "IndexAssignMismatch"
  | accessNonArray => "AccessNonArray"
  | indexNotNumeric => "IndexNotNumeric"
  | arrayElementMismatch => "ArrayElementMismatch"
  | rangeBound _ => "RangeBound"
  | incrementNonNumeric => "IncrementNonNumeric"
  | lenArgument => "LenArgument"
  | unsupportedBuiltinArgument => "UnsupportedBuiltinArgument"
  | noSuchMember _ _ _ => "NoSuchMember"
  | callNonFunction _ _ => "CallNonFunction"
  | argumentCount _ _ _ => "ArgumentCount"
  | argumentMismatch _ _ _ _ => "ArgumentMismatch"
  | lambdaReturnInference => "LambdaReturnInference"
  | lambdaParamInference => "LambdaParamInference"
  | lambdaBodyMismatch => "LambdaBodyMismatch"
  | spawnRequiresCall => "SpawnRequiresCall"
  | spawnNonFunction => "SpawnNonFunction"
  | syncRequiresHandle => "SyncRequiresHandle"
  | arraySyncRequiresHandles => "ArraySyncRequiresHandles"
  | notPendingHandle _ => "NotPendingHandle"
  | alreadySynchronized _ => "AlreadySynchronized"
  | pendingHandleUse _ => "PendingHandleUse"
  | pendingHandleReassign _ => "PendingHandleReassign"
  | frozenMutation _ => "FrozenMutation"
  | frozenMethodCall _ _ => "FrozenMethodCall"

/-- The sentence that tells what is wrong. -/
def message : Cause → String
  | unrecognisedToken token => "unrecognised token: " ++ quoted token
  | unexpectedToken token => "unexpected token: " ++ quoted token
  | unexpectedTokenDetailed token message =>
    "unexpected token (" ++ quoted message ++ "): " ++ quoted token
  | numberParseError token => "error parsing number: " ++ quoted token
  | invalidCharLiteral token => "invalid character literal: " ++ quoted token
  | unknownType type => s!"unknown type {type} found"
  | importNotFound module => s!"cannot import module '{module}'"
  | initializerMismatch => "Initializer type does not match variable type"
  | spawnResultMismatch => "Thread spawn return type does not match variable type"
  | voidSpawnAssignment => "Cannot assign void thread spawn to variable"
  | cannotInferType => "Cannot infer type without initializer"
  | asRefOnNonPrimitive => "'as ref' can only be used with primitive types"
  | asRefOnNonPrimitiveParam => "'as ref' only applies to primitive parameters"
  | privateFunctionReturn =>
    "Private function can only return primitive types (int, double, bool, char)"
  | privateLambdaReturn =>
    "Private lambda can only return primitive types (int, double, bool, char)"
  | functionAlreadyDefined function =>
    s!"Function '{function}' is already defined (possible import collision)"
  | missingParameterType => "Parameter type is missing"
  | returnTypeMismatch _ _ => "Return type does not match function return type"
  | nonBooleanCondition construct => s!"{construct} condition must be boolean"
  | forEachNonArray => "For-each iterable must be an array"
  | reservedNamespace name => s!"Cannot use reserved keyword '{name}' as namespace name"
  | namespaceAlreadyDefined name => s!"Namespace '{name}' is already defined"
  | namespaceNameInUse name => s!"Cannot use '{name}' as namespace: name already in use"
  | undefinedVariable name _ => s!"Undefined variable '{name}'"
  | undefinedAssignTarget name _ => s!"Cannot assign to undefined variable '{name}'"
  | assignmentMismatch _ _ => "Type mismatch in assignment"
  | privateEscape =>
    "Cannot assign non-primitive type to variable declared outside private block"
  | comparisonMismatch => "Type mismatch in comparison"
  | invalidArithmetic => "Invalid types for arithmetic operator"
  | invalidAddition => "Invalid types for + operator"
  | logicalOperands => "Logical operators require boolean operands"
  | unaryMinus => "Unary minus on non-numeric"
  | unaryNot => "Unary ! on non-bool"
  | indexNonArray => "Cannot index into non-array type"
  | indexNotInteger => "Array index must be an integer"
  | indexAssignMismatch => "Type mismatch in index assignment"
  | accessNonArray => "Cannot access non-array"
  | indexNotNumeric => "Array index must be numeric type"
  | arrayElementMismatch => "Array elements must have the same type"
  | rangeBound bound => s!"Range {bound} must be numeric type"
  | incrementNonNumeric => "Increment/decrement on non-numeric type"
  | lenArgument => "len() requires array or string argument"
  | unsupportedBuiltinArgument => "Unsupported type for built-in function"
  | noSuchMember type member _ => s!"Type '{type}' has no member '{member}'"
  | callNonFunction name type => s!"'{name}' is of type '{type}', cannot call non-function"
  | argumentCount function expected received =>
    s!"Function '{function}' expects {expected} argument(s), got {received}"
  | argumentMismatch function index expected received =>
    s!"Argument {index} of '{function}': expected '{expected}', got '{received}'"
  | lambdaReturnInference =>
    "Cannot infer lambda return type. Provide explicit type or use typed variable declaration."
  | lambdaParamInference =>
    "Cannot infer lambda parameter type. Provide explicit type or use typed variable declaration."
  | lambdaBodyMismatch => "Lambda body type does not match declared return type"
  | spawnRequiresCall => "Thread spawn requires a function call"
  | spawnNonFunction => "Cannot spawn non-function"
  | syncRequiresHandle => "Sync requires a thread handle variable"
  | arraySyncRequiresHandles => "Array sync requires thread handle variables"
  | notPendingHandle name => s!"Cannot sync variable '{name}': not a pending thread handle"
  | alreadySynchronized name => s!"Thread handle '{name}' has already been synchronized"
  | pendingHandleUse name => s!"Cannot use pending thread handle '{name}' before synchronization"
  | pendingHandleReassign name => s!"Cannot reassign pending thread handle '{name}'"
  | frozenMutation name => s!"Cannot modify '{name}' while it is captured by a pending thread"
  | frozenMethodCall method name =>
    s!"Cannot call mutating method '{method}' on frozen variable '{name}'"

/-- Advice on how to mend the error, for those kinds that have some. -/
def tip : Cause → Option String
  | unexpectedToken token => some s!"Unexpected token: `{token}`, did you miss a semicolon?"
  | unexpectedTokenDetailed token message => some s!"Unexpected token: `{token}`, {message}"
  | numberParseError token => some s!"Invalid number: `{token}`, is it above the integer limit?"
  | invalidCharLiteral token =>
    some s!"Character literals hold exactly one character, found `{token}`"
  | undefinedVariable _ suggestion
  | undefinedAssignTarget _ suggestion
  | noSuchMember _ _ suggestion => suggestion.map fun name => s!"Did you mean '{name}'?"
  | asRefOnNonPrimitive
  | asRefOnNonPrimitiveParam =>
    some "Reference types are already passed by reference, use 'as val' to copy"
  | privateEscape => some "Values allocated in a private block are freed when it ends"
  | pendingHandleUse name => some s!"Synchronize it first with `{name}!`"
  | frozenMutation _
  | frozenMethodCall _ _ => some "Synchronize the thread that captured it before modifying it"
  | _ => none

end Cause

/-- An error and the place it is reported at. -/
structure Diagnostic where
  /-- What is wrong. -/
  cause : Cause
  /-- Where the caret points. -/
  position : Position
  deriving DecidableEq, Repr

/-- The sentence that tells what is wrong. -/
def Diagnostic.message (d : Diagnostic) : String := d.cause.message

end ThreadRegions
