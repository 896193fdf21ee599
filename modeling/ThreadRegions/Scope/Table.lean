import ThreadRegions.Scope.Symbol

/-!
# The symbol table

The scopes of a program and the symbols declared in them.

## Main Definitions

* `Scope`, `Table`: a scope, and all scopes and symbols
* `Table.pushScope`, `Table.popScope`: entering and leaving a scope
* `Table.add`, `Table.lookup`: declaring and finding a name
* `Table.addNamespace`, `Table.addToNamespace`: names with a dot
* `Table.enterRegion`, `Table.exitRegion`: memory regions
* `Table.syncVariable`: waiting for a thread

## Design Notes

Scopes and symbols are numbered and never removed.  The table remembers which scopes are open, so
leaving a scope takes it from that list and its symbols stay known by their numbers.  The global
scope has number 0 and is always open; it is not in the list.

A declaration in a scope that already has the name changes the type of the symbol and nothing else.
-/

namespace ThreadRegions

/-- Places in a frame are multiples of this number of bytes. -/
def frameAlignment : Nat := 8

/-- The first free place in a frame, behind the saved registers. -/
def frameBase : Nat := frameAlignment + 40

/-- Number of bytes that a value of the given type takes in a frame. -/
def frameSize (t : Ty) : Nat :=
  (t.size + (frameAlignment - 1)) / frameAlignment * frameAlignment

/-- A part of the program that names can be declared in. -/
structure Scope where
  /-- Its symbols in the order of declaration. -/
  symbols : List SymbolId
  /-- The scope around it. -/
  parent : Option ScopeId
  /-- The next free place for a local variable. -/
  locals : Nat
  /-- The next free place for a parameter. -/
  params : Nat
  /-- Number of regions around it. -/
  region : Nat
  /-- Number of scopes around it. -/
  depth : Nat
  deriving DecidableEq, Repr

/-- The scope around everything. -/
def Scope.global : Scope := ⟨[], none, frameBase, frameBase, 0, 0⟩

/-- All scopes and symbols. -/
structure Table where
  /-- The scopes by number. -/
  scopes : Array Scope
  /-- The symbols by number. -/
  symbols : Array Symbol
  /-- The open scopes other than the global one, innermost first. -/
  inner : List ScopeId
  /-- Number of regions that have been entered and not left. -/
  region : Nat
  deriving DecidableEq, Repr

namespace Table

/-- The table before any declaration. -/
def empty : Table := ⟨#[.global], #[], [], 0⟩

/-- The number of the global scope. -/
def globalId : ScopeId := 0

/-- The open scopes, innermost first. -/
def open_ (t : Table) : List ScopeId := t.inner ++ [globalId]

/-- The innermost open scope. -/
def current (t : Table) : ScopeId := t.inner.headD globalId

/-- Whether no scope but the global one is open. -/
def isGlobal (t : Table) : Bool := t.inner.isEmpty

/-- The scope with a number. -/
def scope (t : Table) (id : ScopeId) : Scope := t.scopes.getD id .global

/-- The symbol with a number. -/
def symbol (t : Table) (id : SymbolId) : Symbol := t.symbols.getD id (.fresh "" .nil .global 0)

/-- Changes the scope with a number. -/
def modifyScope (t : Table) (id : ScopeId) (f : Scope → Scope) : Table :=
  { t with scopes := t.scopes.modify id f }

/-- Changes the symbol with a number. -/
def modifySymbol (t : Table) (id : SymbolId) (f : Symbol → Symbol) : Table :=
  { t with symbols := t.symbols.modify id f }

section

variable (t : Table) (id : Nat) (f : Scope → Scope) (g : Symbol → Symbol)

@[simp] theorem inner_modifyScope : (t.modifyScope id f).inner = t.inner := rfl

@[simp] theorem region_modifyScope : (t.modifyScope id f).region = t.region := rfl

@[simp] theorem symbols_modifyScope : (t.modifyScope id f).symbols = t.symbols := rfl

@[simp] theorem inner_modifySymbol : (t.modifySymbol id g).inner = t.inner := rfl

@[simp] theorem region_modifySymbol : (t.modifySymbol id g).region = t.region := rfl

@[simp] theorem scopes_modifySymbol : (t.modifySymbol id g).scopes = t.scopes := rfl

end

/-! ### Scopes and regions -/

/-- The scope that would be opened now.  It goes on with the frame of the current one. -/
def nested (t : Table) : Scope :=
  let around := t.scope t.current
  ⟨[], some t.current, around.locals, around.params, t.region, around.depth + 1⟩

/-- Opens a scope. -/
def openScope (t : Table) (s : Scope) : Table :=
  { t with scopes := t.scopes.push s, inner := t.scopes.size :: t.inner }

/-- Enters a scope in the same frame. -/
def pushScope (t : Table) : Table := t.openScope t.nested

/-- Enters a scope with a frame of its own. -/
def pushFrame (t : Table) : Table :=
  t.openScope { t.nested with locals := frameBase, params := frameBase }

/-- Leaves the innermost scope.  The scope around it keeps its places clear of those used inside.
The global scope is not left. -/
def popScope (t : Table) : Table :=
  match t.inner with
  | [] => t
  | child :: outer =>
    let used := t.scope child
    let t := { t with inner := outer }
    t.modifyScope t.current fun around =>
      { around with
        locals := max around.locals used.locals
        params := max around.params used.params }

@[simp] theorem inner_pushScope (t : Table) : t.pushScope.inner = t.scopes.size :: t.inner := rfl

@[simp] theorem inner_pushFrame (t : Table) : t.pushFrame.inner = t.scopes.size :: t.inner := rfl

@[simp] theorem region_pushScope (t : Table) : t.pushScope.region = t.region := rfl

@[simp] theorem region_pushFrame (t : Table) : t.pushFrame.region = t.region := rfl

@[simp] theorem inner_popScope (t : Table) : t.popScope.inner = t.inner.tail := by
  unfold popScope
  split
  · next h => rw [h]; rfl
  · next h => rw [h]; rfl

@[simp] theorem region_popScope (t : Table) : t.popScope.region = t.region := by
  unfold popScope
  split <;> rfl

/-- Lets the local variables of the current scope begin behind its parameters. -/
def alignLocals (t : Table) : Table :=
  t.modifyScope t.current fun s => { s with locals := s.params }

/-- Enters a region. -/
def enterRegion (t : Table) : Table := { t with region := t.region + 1 }

/-- Leaves a region. -/
def exitRegion (t : Table) : Table := { t with region := t.region - 1 }

/-! ### Finding names -/

/-- The last symbol of a name among the given ones. -/
def findLast (t : Table) (ids : List SymbolId) (name : String) : Option SymbolId :=
  ids.reverse.find? fun id => (t.symbol id).name = name

/-- The symbol of a name in one scope. -/
def findIn (t : Table) (scope : ScopeId) (name : String) : Option SymbolId :=
  t.findLast (t.scope scope).symbols name

/-- The symbol of a name in the current scope. -/
def lookupCurrent (t : Table) (name : String) : Option SymbolId := t.findIn t.current name

/-- The symbol of a name in the innermost open scope that has one. -/
def lookup (t : Table) (name : String) : Option SymbolId :=
  t.open_.findSome? fun scope => t.findIn scope name

/-- The place of a name in its frame. -/
def offsetOf (t : Table) (name : String) : Option Int :=
  (t.lookup name).map fun id => (t.symbol id).offset

/-- The names that can be used, those of the innermost scope first and in each scope the latest
first. -/
def visibleNames (t : Table) : List String :=
  t.open_.flatMap fun scope => (t.scope scope).symbols.reverse.map fun id => (t.symbol id).name

/-! ### Declaring names -/

/-- The place in the frame that a new symbol of the given kind gets. -/
def nextOffset (s : Scope) : SymbolKind → Int
  | .param => -(s.params : Int)
  | .local_ => -(s.locals : Int)
  | .global | .namespace_ | .typeAlias => 0

/-- The scope after a place has been given away. -/
def reserve (type : Ty) (kind : SymbolKind) (s : Scope) : Scope :=
  match kind with
  | .param => { s with params := s.params + frameSize type }
  | .local_ => { s with locals := s.locals + frameSize type }
  | .global | .namespace_ | .typeAlias => s

/-- Adds a symbol without putting it into a scope.  Its number is the old number of symbols. -/
def pushSymbol (t : Table) (s : Symbol) : Table := { t with symbols := t.symbols.push s }

/-- Adds a symbol to the current scope, whatever the scope already holds. -/
def addNew (t : Table) (name : String) (type : Ty) (kind : SymbolKind) : Table :=
  let here := t.scope t.current
  let s : Symbol :=
    { Symbol.fresh name type kind t.current with
      offset := nextOffset here kind
      region := t.region }
  (t.pushSymbol s).modifyScope t.current fun scope =>
    { reserve type kind scope with symbols := scope.symbols ++ [t.symbols.size] }

/-- Changes the type of a symbol. -/
def setType (t : Table) (id : SymbolId) (type : Ty) : Table :=
  t.modifySymbol id fun s => { s with type := type }

/-- Declares a name in the current scope.  If the scope has the name, only its type is changed. -/
def add (t : Table) (name : String) (type : Ty) (kind : SymbolKind) : Table × SymbolId :=
  match t.lookupCurrent name with
  | some id => (t.setType id type, id)
  | none => (t.addNew name type kind, t.symbols.size)

@[simp] theorem inner_add (t : Table) (name : String) (type : Ty) (kind : SymbolKind) :
    (t.add name type kind).1.inner = t.inner := by
  unfold add
  split <;> rfl

@[simp] theorem region_add (t : Table) (name : String) (type : Ty) (kind : SymbolKind) :
    (t.add name type kind).1.region = t.region := by
  unfold add
  split <;> rfl

/-- Changes how a variable holds its value. -/
def setQualifier (t : Table) (id : SymbolId) (q : Qualifier) : Table :=
  t.modifySymbol id fun s => { s with qualifier := q }

/-- Declares a name with a qualifier. -/
def addQualified (t : Table) (name : String) (type : Ty) (kind : SymbolKind) (q : Qualifier) :
    Table × SymbolId :=
  let (t, id) := t.add name type kind
  (t.setQualifier id q, id)

/-- Notes down that a symbol is a function, with its two modifiers. -/
def setFunction (t : Table) (id : SymbolId) (modifier declared : Modifier) : Table :=
  t.modifySymbol id fun s =>
    { s with modifier := modifier, declared := declared, isFunction := true }

/-- The kind of a declaration in the current scope. -/
def declarationKind (t : Table) : SymbolKind := if t.isGlobal then .global else .local_

/-- Declares a function.  Outside of the global scope it takes a place in the frame. -/
def addFunction (t : Table) (name : String) (type : Ty) (modifier declared : Modifier) :
    Table × SymbolId :=
  let (t, id) := t.add name type t.declarationKind
  (t.setFunction id modifier declared, id)

/-- The list without its last element that satisfies `p`, if there is one. -/
def eraseLast? {α : Type} (p : α → Bool) (xs : List α) : Option (List α) :=
  if xs.any p then some (xs.reverse.eraseP p).reverse else none

/-- Takes a name that is no namespace out of the global scope, and says whether there was one. -/
def removeFromGlobal (t : Table) (name : String) : Table × Bool :=
  let matching (id : SymbolId) : Bool := (t.symbol id).name = name && !(t.symbol id).isNamespace
  match eraseLast? matching (t.scope globalId).symbols with
  | some ids => (t.modifyScope globalId fun s => { s with symbols := ids }, true)
  | none => (t, false)

/-! ### Namespaces -/

/-- The namespace with a name. -/
def findNamespace (t : Table) (name : String) : Option SymbolId :=
  (t.scope globalId).symbols.find? fun id => (t.symbol id).isNamespace && (t.symbol id).name = name

/-- Whether there is a namespace with a name. -/
def isNamespace (t : Table) (name : String) : Bool := (t.findNamespace name).isSome

/-- Adds a namespace to the global scope, unless the global scope has the name. -/
def addNamespace (t : Table) (name : String) : Option (Table × SymbolId) :=
  if (t.findIn globalId name).isSome then none
  else
    let added := (t.pushSymbol (.fresh name .nil .namespace_ globalId)).modifyScope globalId
      fun s => { s with symbols := s.symbols ++ [t.symbols.size] }
    some (added, t.symbols.size)

/-- The member of a namespace with a name. -/
def findMember (t : Table) (space : SymbolId) (name : String) : Option SymbolId :=
  (t.symbol space).members.find? fun id => (t.symbol id).name = name

/-- The member with a name of the namespace with a name. -/
def lookupIn (t : Table) (space name : String) : Option SymbolId :=
  (t.findNamespace space).bind fun id => t.findMember id name

/-- Adds a member to a namespace, or changes the type of the member with that name. -/
def addToNamespace (t : Table) (space name : String) (type : Ty) : Option (Table × SymbolId) :=
  (t.findNamespace space).map fun spaceId =>
    match t.findMember spaceId name with
    | some id => (t.setType id type, id)
    | none =>
      let added := (t.pushSymbol (.fresh name type .global globalId)).modifySymbol spaceId
        fun s => { s with members := s.members ++ [t.symbols.size] }
      (added, t.symbols.size)

/-- Adds a function to a namespace. -/
def addFunctionToNamespace (t : Table) (space name : String) (type : Ty)
    (modifier declared : Modifier) : Option (Table × SymbolId) :=
  (t.addToNamespace space name type).map fun (t, id) => (t.setFunction id modifier declared, id)

/-! ### Threads -/

/-- The state of a visible variable.  A name that is not known is an ordinary variable. -/
def threadState (t : Table) (name : String) : ThreadState :=
  match t.lookup name with
  | some id => (t.symbol id).state
  | none => .normal

/-- Whether a visible variable stands for a thread that may still run. -/
def isPending (t : Table) (name : String) : Bool :=
  (t.lookup name).any fun id => (t.symbol id).isPending

/-- Whether a pending thread looks at a visible variable. -/
def isFrozen (t : Table) (name : String) : Bool :=
  (t.lookup name).any fun id => (t.symbol id).isFrozen

/-- Changes the state of a symbol, if its state allows that. -/
def transition (t : Table) (id : SymbolId) (f : Symbol → Except ThreadError Symbol) :
    Except ThreadError Table :=
  (f (t.symbol id)).map fun s => t.modifySymbol id fun _ => s

/-- One more thread looks at a symbol. -/
def freeze (t : Table) (id : SymbolId) : Table := t.modifySymbol id Symbol.freeze

/-- Notes down what the thread of a handle looks at. -/
def setFrozenArgs (t : Table) (id : SymbolId) (args : List SymbolId) : Table :=
  t.modifySymbol id fun s => { s with frozenArgs := args }

/-- Lets go of one symbol that a thread looked at. -/
def release (t : Table) (id : SymbolId) : Table :=
  match t.transition id Symbol.unfreeze with
  | .ok t => t
  | .error _ => t

/-- Waits for the thread of a handle and lets go of all that the thread looked at. -/
def syncSymbol (t : Table) (id : SymbolId) : Except ThreadError Table :=
  (t.transition id Symbol.markSynchronized).map fun t =>
    (t.symbol id).frozenArgs.foldl release t

/-- Waits for the thread of the handle with a name. -/
def syncVariable (t : Table) (name : String) : Except ThreadError (Table × SymbolId) :=
  match t.lookup name with
  | none => .error (.unknownVariable name)
  | some id => (t.syncSymbol id).map fun t => (t, id)

/-! ### All that is linked -/

/-- The symbols that a scope or a namespace holds, by number. -/
def linked (t : Table) : List SymbolId :=
  (List.range t.symbols.size).filter fun id =>
    t.scopes.any (fun s => s.symbols.contains id) || t.symbols.any (fun s => s.members.contains id)

end Table

end ThreadRegions
