import ThreadRegions.Check.Rules
import ThreadRegions.Scope.Ledger
import ThreadRegions.Text.EditDistance

/-!
# The state of the checker

What the checker knows while it walks over a program, and the actions that all rules share.

## Main Definitions

* `Checker`: the symbol table, the errors so far and the lambdas around the current place
* `CheckM`: an action on that state
* `CheckM.withinScope`, `CheckM.withinFrame`, `CheckM.withinRegion`: an action inside something
* `CheckM.resolve`: finding a name and noting down who captures it

## Design Notes

An error in an expression ends the check of that expression and of those around it, up to the
statement they stand in, and what has been done to the state until then stays.  So an error is a
value and not an exception.
-/

namespace ThreadRegions

/-- A lambda whose body is being checked. -/
structure LambdaFrame where
  /-- Number of scopes around its parameters, plus one. -/
  depth : Nat
  /-- The variables from outside that it has used so far. -/
  captures : List Capture
  deriving DecidableEq, Repr

/-- What the checker knows. -/
structure Checker extends Ledger where
  /-- The errors that have been reported, in order. -/
  errors : List Diagnostic
  /-- The symbols that are there from the beginning. -/
  builtins : List SymbolId
  /-- The lambdas around the current place, innermost first. -/
  frames : List LambdaFrame
  /-- Number of imported modules around the current place. -/
  importDepth : Nat
  /-- How far away a name may be that is suggested for a misspelt one. -/
  suggestionDistance : Nat

/-- The distance that is used if no other is wanted. -/
def defaultSuggestionDistance : Nat := 2

/-- The checker before it has seen anything.  It knows how to print. -/
def Checker.initial (suggestionDistance : Nat) : Checker :=
  let (ledger, print) :=
    Ledger.empty.addFunction "print" (.function .void [.any]) .default .default
  { toLedger := ledger
    errors := []
    builtins := [print]
    frames := []
    importDepth := 0
    suggestionDistance := suggestionDistance }

/-- The closest of the visible names. -/
def Checker.suggest (s : Checker) (name : String) : Option String :=
  closest name s.table.visibleNames s.suggestionDistance

/-- Notes down that a lambda uses a symbol, if it comes from outside of the lambda and is not known
yet. -/
def LambdaFrame.capture (depth : Nat) (c : Capture) (f : LambdaFrame) : LambdaFrame :=
  if depth < f.depth ∧ ¬ f.captures.any (fun known => known.symbol = c.symbol) then
    { f with captures := f.captures ++ [c] }
  else f

/-- Notes down the use of a symbol in all lambdas it comes from outside of.  Global symbols are not
captured. -/
def Checker.captured (s : Checker) (id : SymbolId) : Checker :=
  let symbol := s.table.symbol id
  if symbol.scope = Table.globalId then s
  else
    let depth := (s.table.scope symbol.scope).depth
    { s with frames := s.frames.map (LambdaFrame.capture depth ⟨symbol.name, symbol.type, id⟩) }

/-- An action of the checker. -/
abbrev CheckM := StateM Checker

namespace CheckM

/-- Adds a note by the checker. -/
def note (level : Level) (text : String) : CheckM Unit :=
  modify fun s => { s with journal := s.journal.checkerNote level text }

/-- Reports an error and goes on. -/
def report (d : Diagnostic) : CheckM Unit := do
  note .debug s!"type error at {d.position.offset}: {d.message}"
  modify fun s => { s with errors := s.errors ++ [d] }

/-- Reports an error, if there is one. -/
def reportAny : Option Diagnostic → CheckM Unit
  | some d => report d
  | none => pure ()

/-- Does something to the symbol table. -/
def onLedger (f : Ledger → Ledger) : CheckM Unit :=
  modify fun s => { s with toLedger := f s.toLedger }

/-- Does something to the symbol table that has an answer. -/
def askLedger {α : Type} (f : Ledger → Ledger × α) : CheckM α :=
  modifyGet fun s =>
    let (ledger, answer) := f s.toLedger
    (answer, { s with toLedger := ledger })

/-- The symbol table. -/
def table : CheckM Table := do return (← get).table

/-- Runs an action in a scope of its own. -/
def withinScope {α : Type} (action : CheckM α) : CheckM α := do
  onLedger Ledger.pushScope
  let answer ← action
  onLedger Ledger.popScope
  return answer

/-- Runs an action in a scope with a frame of its own. -/
def withinFrame {α : Type} (action : CheckM α) : CheckM α := do
  onLedger Ledger.pushFrame
  let answer ← action
  onLedger Ledger.popScope
  return answer

/-- Runs an action one region deeper, if `enabled`. -/
def withinRegion {α : Type} (enabled : Bool) (action : CheckM α) : CheckM α :=
  if enabled then do
    onLedger Ledger.enterRegion
    let answer ← action
    onLedger Ledger.exitRegion
    return answer
  else action

/-- Finds a name, and notes it down in all lambdas that capture it. -/
def resolve (name : String) : CheckM (Option SymbolId) := do
  match (← table).lookup name with
  | none => return none
  | some id =>
    modify fun s => s.captured id
    return some id

/-- Enters a lambda whose parameters are about to be declared. -/
def pushLambda : CheckM Unit :=
  modify fun s =>
    let depth := (s.table.scope s.table.current).depth + 1
    { s with frames := ⟨depth, []⟩ :: s.frames }

/-- Leaves a lambda and gives back its captures. -/
def popLambda : CheckM (Option (List Capture)) := do
  match (← get).frames with
  | [] => return none
  | frame :: frames =>
    modify fun s => { s with frames := frames }
    return some frame.captures

/-- The error of a name that is not known. -/
def undefined (name : String) (position : Position) : CheckM Diagnostic := do
  return ⟨.undefinedVariable name ((← get).suggest name), position⟩

/-- Checks the qualifier of a variable, with a note if it does nothing. -/
def varQualifier (q : Qualifier) (t : Ty) (position : Position) : CheckM (Option Diagnostic) := do
  if isIdleCopy q t then
    note .debug s!"'as val' on primitive type {t.text} has no effect"
  return (varQualifierError? q t).map (⟨·, position⟩)

/-- Checks the qualifier of a parameter, with a note if it does nothing. -/
def paramQualifier (q : Qualifier) (t : Ty) (position : Position) :
    CheckM (Option Diagnostic) := do
  if isIdleCopy q t then
    note .debug s!"'as val' on primitive parameter of type {t.text} has no effect"
  return (paramQualifierError? q t).map (⟨·, position⟩)

/-- Declares the parameters of a function or a lambda in the current scope. -/
def declareParams : List (Param × Ty) → CheckM (List Param)
  | [] => return []
  | (p, t) :: others => do
    let id ← askLedger fun l => l.addQualified p.name t .param p.qualifier
    let others ← declareParams others
    return { p with symbol := some id } :: others

/-- Declares the parameters of a function in the current scope, and reports the qualifiers that do
not fit. -/
def declareCheckedParams : List Param → CheckM (List Param)
  | [] => return []
  | p :: others => do
    let t := p.type.getD .nil
    reportAny (← paramQualifier p.qualifier t p.span.start)
    let id ← askLedger fun l => l.addQualified p.name t .param p.qualifier
    let others ← declareCheckedParams others
    return { p with symbol := some id } :: others

end CheckM

end ThreadRegions
