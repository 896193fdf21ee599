import ThreadRegions.Text.Quoted
import ThreadRegions.Tree

/-!
# Symbols

What is known about a name: its type and place in the frame, and its part in the threads of the
program.

## Main Definitions

* `SymbolKind`, `ThreadState`: the kinds of symbols and the states of a thread handle
* `Symbol`: all that is known about a name
* `Symbol.markPending`, `Symbol.markSynchronized`, `Symbol.rebind`: the life of a thread handle
* `Symbol.freeze`, `Symbol.unfreeze`: variables that a running thread looks at

## Design Notes

A variable that is bound to a started thread is pending until it is waited for.  A variable that a
pending thread looks at is frozen, once for each such thread, and must not be changed.
-/

namespace ThreadRegions

/-- The number of a scope in the symbol table. -/
abbrev ScopeId := Nat

/-- Where the value of a symbol lives. -/
inductive SymbolKind where
  | global | local_ | param | namespace_ | typeAlias
  deriving DecidableEq, Repr

/-- The name of a kind. -/
def SymbolKind.name : SymbolKind → String
  | global => "global"
  | local_ => "local"
  | param => "param"
  | namespace_ => "namespace"
  | typeAlias => "type"

/-- Whether a variable stands for a thread. -/
inductive ThreadState where
  /-- It is an ordinary variable. -/
  | normal
  /-- It stands for a thread that may still run. -/
  | pending
  /-- It stands for a thread that has been waited for. -/
  | synchronized
  deriving DecidableEq, Repr

/-- The name of a state. -/
def ThreadState.name : ThreadState → String
  | normal => "normal"
  | pending => "pending"
  | synchronized => "synchronized"

/-- Why a thread handle or a frozen variable cannot change its state. -/
inductive ThreadError where
  | notPending
  | alreadyPending
  | alreadySynchronized
  | notFrozen
  | unknownVariable (name : String)
  deriving DecidableEq, Repr

/-- The name under which the error is reported. -/
def ThreadError.name : ThreadError → String
  | notPending => "NotPending"
  | alreadyPending => "AlreadyPending"
  | alreadySynchronized => "AlreadySynchronized"
  | notFrozen => "NotFrozen"
  | unknownVariable _ => "UnknownVariable"

/-- The sentence that tells what is wrong. -/
def ThreadError.message : ThreadError → String
  | notPending => "variable is not a pending thread handle"
  | alreadyPending => "variable is already a pending thread handle"
  | alreadySynchronized => "thread handle has already been synchronized"
  | notFrozen => "variable is not frozen"
  | unknownVariable name => "unknown variable " ++ quoted name

/-- All that is known about a name. -/
structure Symbol where
  /-- The name. -/
  name : String
  /-- Its type. -/
  type : Ty
  /-- Where its value lives. -/
  kind : SymbolKind
  /-- Its place in the frame, below zero; 0 if it has none. -/
  offset : Int
  /-- Number of regions around its declaration. -/
  region : Nat
  /-- The scope it was declared in. -/
  scope : ScopeId
  /-- How it holds its value. -/
  qualifier : Qualifier
  /-- The modifier a function works with. -/
  modifier : Modifier
  /-- The modifier a function was declared with. -/
  declared : Modifier
  /-- Whether it was declared as a function. -/
  isFunction : Bool
  /-- Whether it stands for a thread. -/
  state : ThreadState
  /-- Number of pending threads that look at it. -/
  freezeCount : Nat
  /-- The variables that the thread it stands for looks at. -/
  frozenArgs : List SymbolId
  /-- The members of a namespace. -/
  members : List SymbolId
  deriving DecidableEq, Repr

namespace Symbol

/-- A symbol about which nothing more is known. -/
def fresh (name : String) (type : Ty) (kind : SymbolKind) (scope : ScopeId) : Symbol where
  name := name
  type := type
  kind := kind
  offset := 0
  region := 0
  scope := scope
  qualifier := .default
  modifier := .default
  declared := .default
  isFunction := false
  state := .normal
  freezeCount := 0
  frozenArgs := []
  members := []

/-- Whether the symbol is a namespace. -/
def isNamespace (s : Symbol) : Bool := s.kind = .namespace_

/-- Whether the symbol stands for a thread that may still run. -/
def isPending (s : Symbol) : Bool := s.state = .pending

/-- Whether the symbol stands for a thread that has been waited for. -/
def isSynchronized (s : Symbol) : Bool := s.state = .synchronized

/-- Whether a pending thread looks at the symbol. -/
def isFrozen (s : Symbol) : Bool := 0 < s.freezeCount

/-- Binds an ordinary variable to a thread. -/
def markPending (s : Symbol) : Except ThreadError Symbol :=
  match s.state with
  | .normal => .ok { s with state := .pending }
  | .pending => .error .alreadyPending
  | .synchronized => .error .alreadySynchronized

/-- Waits for the thread of a pending handle. -/
def markSynchronized (s : Symbol) : Except ThreadError Symbol :=
  match s.state with
  | .pending => .ok { s with state := .synchronized }
  | .normal => .error .notPending
  | .synchronized => .error .alreadySynchronized

/-- Makes a handle that has been waited for an ordinary variable again. -/
def rebind (s : Symbol) : Except ThreadError Symbol :=
  match s.state with
  | .synchronized => .ok { s with state := .normal, frozenArgs := [] }
  | .normal => .ok s
  | .pending => .error .alreadyPending

/-- One more thread looks at the symbol. -/
def freeze (s : Symbol) : Symbol := { s with freezeCount := s.freezeCount + 1 }

/-- One thread fewer looks at the symbol. -/
def unfreeze (s : Symbol) : Except ThreadError Symbol :=
  if s.freezeCount = 0 then .error .notFrozen
  else .ok { s with freezeCount := s.freezeCount - 1 }

end Symbol

end ThreadRegions
