import ThreadRegions.Journal
import ThreadRegions.Scope.Table

/-!
# A symbol table that keeps a journal

The operations of the symbol table, each with the note that tells of it.

## Main Definitions

* `Ledger`: a table and the journal of what was done to it
* one operation for each operation of the table that leaves a note
-/

namespace ThreadRegions

/-- A symbol table and the journal of what was done to it. -/
structure Ledger where
  /-- The table. -/
  table : Table
  /-- What was done to it, and other notes. -/
  journal : Journal

namespace Ledger

/-- An empty table without a history. -/
def empty : Ledger := ⟨.empty, #[]⟩

/-- Adds a note of the finest level. -/
def trace (l : Ledger) (text : String) : Ledger :=
  { l with journal := l.journal.note .trace text }

@[simp] theorem table_trace (l : Ledger) (text : String) : (l.trace text).table = l.table := rfl

/-- The note on the scope that has just been entered. -/
def entered (l : Ledger) : Ledger :=
  let id := l.table.current
  l.trace s!"pushed scope {id} (depth {(l.table.scope id).depth}, region {l.table.region})"

/-- Enters a scope in the same frame. -/
def pushScope (l : Ledger) : Ledger := entered { l with table := l.table.pushScope }

/-- Enters a scope with a frame of its own. -/
def pushFrame (l : Ledger) : Ledger := entered { l with table := l.table.pushFrame }

/-- Leaves the innermost scope, unless it is the global one. -/
def popScope (l : Ledger) : Ledger :=
  if l.table.isGlobal then l
  else
    let depth := (l.table.scope l.table.current).depth
    let table := l.table.popScope
    { l with table := table }.trace s!"popped scope {depth}, back in scope {table.current}"

/-- Lets the local variables of the current scope begin behind its parameters. -/
def alignLocals (l : Ledger) : Ledger := { l with table := l.table.alignLocals }

/-- Enters a region. -/
def enterRegion (l : Ledger) : Ledger :=
  let table := l.table.enterRegion
  { l with table := table }.trace s!"entered region, depth {table.region}"

/-- Leaves a region. -/
def exitRegion (l : Ledger) : Ledger :=
  let table := l.table.exitRegion
  { l with table := table }.trace s!"exited region, depth {table.region}"

/-- The note on a declaration in the current scope of `before`. -/
def declaring (before : Table) (name : String) (type : Ty) (kind : SymbolKind) : String :=
  match before.lookupCurrent name with
  | some _ => s!"redeclaring '{name}' in place as {type.text}"
  | none =>
    let offset := Table.nextOffset (before.scope before.current) kind
    s!"added {kind.name} '{name}' at offset {offset}"

/-- Declares a name. -/
def add (l : Ledger) (name : String) (type : Ty) (kind : SymbolKind) : Ledger × SymbolId :=
  let (table, id) := l.table.add name type kind
  ({ l with table := table }.trace (declaring l.table name type kind), id)

/-- Declares a name with a qualifier. -/
def addQualified (l : Ledger) (name : String) (type : Ty) (kind : SymbolKind) (q : Qualifier) :
    Ledger × SymbolId :=
  let (table, id) := l.table.addQualified name type kind q
  ({ l with table := table }.trace (declaring l.table name type kind), id)

/-- Declares a function. -/
def addFunction (l : Ledger) (name : String) (type : Ty) (modifier declared : Modifier) :
    Ledger × SymbolId :=
  let (table, id) := l.table.addFunction name type modifier declared
  ({ l with table := table }.trace (declaring l.table name type l.table.declarationKind), id)

/-- Takes a name out of the global scope, and says whether there was one. -/
def removeFromGlobal (l : Ledger) (name : String) : Ledger × Bool :=
  let (table, found) := l.table.removeFromGlobal name
  if found then ({ l with table := table }.trace s!"removed '{name}' from global scope", true)
  else (l, false)

/-- Adds a namespace, if its name is free. -/
def addNamespace (l : Ledger) (name : String) : Ledger × Option SymbolId :=
  match l.table.addNamespace name with
  | some (table, id) => ({ l with table := table }.trace s!"added namespace '{name}'", some id)
  | none => (l.trace s!"namespace '{name}' clashes with an existing global", none)

/-- The note on a new member of a namespace, if it is new. -/
def addingMember (l : Ledger) (before : Table) (space name : String) : Ledger :=
  if (before.lookupIn space name).isSome then l
  else l.trace s!"added '{name}' to namespace '{space}'"

/-- Adds a member to a namespace, if there is the namespace. -/
def addToNamespace (l : Ledger) (space name : String) (type : Ty) : Ledger × Option SymbolId :=
  match l.table.addToNamespace space name type with
  | some (table, id) => ({ l with table := table }.addingMember l.table space name, some id)
  | none => (l, none)

/-- Adds a function to a namespace, if there is the namespace. -/
def addFunctionToNamespace (l : Ledger) (space name : String) (type : Ty)
    (modifier declared : Modifier) : Ledger × Option SymbolId :=
  match l.table.addFunctionToNamespace space name type modifier declared with
  | some (table, id) => ({ l with table := table }.addingMember l.table space name, some id)
  | none => (l, none)

/-- The notes on the symbols that are let go of without having been held. -/
def releaseNotes (t : Table) : List SymbolId → List String
  | [] => []
  | id :: ids =>
    let s := t.symbol id
    let others := releaseNotes (t.release id) ids
    if s.isFrozen then others else s!"'{s.name}': {ThreadError.notFrozen.message}" :: others

/-- Waits for the thread of the handle with a name. -/
def syncVariable (l : Ledger) (name : String) : Ledger × Except ThreadError SymbolId :=
  match l.table.syncVariable name with
  | .error e => (l, .error e)
  | .ok (table, id) =>
    let notes := releaseNotes l.table (l.table.symbol id).frozenArgs
    ((notes.foldl trace { l with table := table }).trace s!"synchronized '{name}'", .ok id)

end Ledger

end ThreadRegions
