import ThreadRegions.Check.Outcome

/-!
# The rules on threads

Starting a thread binds a variable to it and freezes what the thread looks at; waiting for the
thread releases all that again.

## Main Definitions

* `declaredModifier`: how the function that a thread runs was declared
* `sharedArgs`: the variables that a thread looks at
* `CheckM.recordSpawn`: a variable is bound to a thread
* `CheckM.syncOne`, `CheckM.syncMany`: waiting for threads
* `mutationError?`, `frozenError?`: writing to a variable that must not be written to
-/

namespace ThreadRegions

/-- The modifier that a called function was declared with. -/
def declaredModifier (t : Table) : Expr → Modifier
  | .var _ name =>
    match t.lookup name with
    | some id => (t.symbol id).declared
    | none => .default
  | .member _ object name =>
    match object.name?.bind fun space => t.lookupIn space name with
    | some id => (t.symbol id).declared
    | none => .default
  | .lambda _ head _ => head.modifier
  | _ => .default

/-- The symbol that a thread started with the given argument looks at: a variable of the caller that
is passed by reference or lives in a region. -/
def sharedArg? (t : Table) (q : Qualifier) (arg : Expr) : Option SymbolId :=
  (arg.name?.bind t.lookup).filter fun id => q = .asRef || (t.symbol id).type.isHeap

/-- The symbols that a thread looks at, each once, where the first argument has number `index`. -/
def sharedArgs (t : Table) (quals : Option (List Qualifier)) (index : Nat) (known : List SymbolId) :
    List Expr → List SymbolId
  | [] => known
  | arg :: others =>
    match sharedArg? t (Ty.qualifierAt quals index) arg with
    | some id =>
      sharedArgs t quals (index + 1) (if known.contains id then known else known ++ [id]) others
    | none => sharedArgs t quals (index + 1) known others

/-- The qualifiers of a called function. -/
def Expr.calleeQualifiers (callee : Expr) : Option (List Qualifier) :=
  match callee.type? with
  | some (.fn _ quals _ _) => quals
  | _ => none

/-- Whether a builtin function is called. -/
def Checker.callsBuiltin (s : Checker) (callee : Expr) : Bool :=
  (callee.name?.bind s.table.lookup).any fun id => s.builtins.contains id

/-- The symbols that a call as a thread freezes.  A builtin function freezes nothing. -/
def Checker.frozenBy (s : Checker) (callee : Expr) (args : List Expr) : List SymbolId :=
  if s.callsBuiltin callee then [] else sharedArgs s.table callee.calleeQualifiers 0 [] args

namespace CheckM

/-- Binds a variable to the thread that its initial value starts, and freezes what the thread looks
at.  A variable that stands for a thread which may still run cannot be bound again. -/
def recordSpawn (handle : SymbolId) (init : Expr) (position : Position) :
    CheckM (Option Diagnostic) := do
  match init with
  | .spawn _ (.call _ callee args) _ =>
    match (← table).transition handle fun s => s.rebind.bind Symbol.markPending with
    | .error e =>
      let name := ((← table).symbol handle).name
      onLedger fun l => l.trace s!"'{name}': {e.message}"
      return some ⟨.pendingHandleReassign name, position⟩
    | .ok bound =>
      onLedger fun l => { l with table := bound }
      let frozen := (← get).frozenBy callee args
      onLedger fun l => { l with table := frozen.foldl Table.freeze l.table }
      let name := ((← table).symbol handle).name
      note .debug s!"'{name}' is pending, {frozen.length} argument(s) frozen"
      onLedger fun l => { l with table := l.table.setFrozenArgs handle frozen }
      return none
  | _ => return none

/-- Waits for the thread of one variable. -/
def syncOne (node : Node) (handle : Expr) : CheckM Outcome := do
  let e := Expr.sync node handle false
  match handle.name? with
  | none => Outcome.fail e .syncRequiresHandle
  | some name =>
    match ← resolve name with
    | none => return ⟨e, .error (← undefined name e.start)⟩
    | some id =>
      match ((← table).symbol id).state with
      | .normal => Outcome.fail e (.notPendingHandle name)
      | .synchronized => Outcome.fail e (.alreadySynchronized name)
      | .pending =>
        match ← askLedger fun l => l.syncVariable name with
        | .error _ => Outcome.fail e (.notPendingHandle name)
        | .ok _ =>
          let t := ((← table).symbol id).type
          Outcome.succeed (.sync node (handle.withType t) false) t

/-- Finds the symbols of the variables that are to be waited for.  All of them have to stand for a
thread. -/
def resolveHandles (start : Position) : List Expr → CheckM (Except Diagnostic (List SymbolId))
  | [] => return .ok []
  | handle :: others => do
    match handle.name? with
    | none => return .error ⟨.arraySyncRequiresHandles, start⟩
    | some name =>
      match ← resolve name with
      | none => return .error (← undefined name handle.start)
      | some id =>
        if ((← table).symbol id).state = .normal then
          return .error ⟨.notPendingHandle name, handle.start⟩
        else
          return (← resolveHandles start others).map (id :: ·)

/-- Waits for the thread of a symbol, if it has not been waited for. -/
def syncPending (id : SymbolId) (name : String) : CheckM Unit := do
  if ((← table).symbol id).isPending then
    match ← askLedger fun l => l.syncVariable name with
    | .ok _ => pure ()
    | .error e => onLedger fun l => l.trace s!"'{name}': {e.message}"

/-- Waits for the threads of several variables, one after the other, and notes down their types. -/
def syncHandles : List (Expr × SymbolId) → CheckM (List Expr)
  | [] => return []
  | (handle, id) :: others => do
    syncPending id (handle.name?.getD "")
    let handle := handle.withType ((← table).symbol id).type
    return handle :: (← syncHandles others)

/-- Waits for the threads of all variables in an array literal.  Nothing is done unless each of them
stands for a thread. -/
def syncMany (node : Node) (handle : Expr) : CheckM Outcome := do
  let e := Expr.sync node handle true
  match handle with
  | .array arrayNode handles =>
    match ← resolveHandles e.start handles with
    | .error d => return ⟨e, .error d⟩
    | .ok ids =>
      let handles ← syncHandles (handles.zip ids)
      Outcome.succeed (.sync node (.array arrayNode handles) true) .void
  | _ => Outcome.fail e .arraySyncRequiresHandles

end CheckM

/-- A variable that a thread looks at or stands for cannot be assigned to. -/
def mutationError? (t : Table) (name : String) : Option Cause :=
  if t.isFrozen name then some (.frozenMutation name)
  else if t.isPending name then some (.pendingHandleReassign name)
  else none

/-- A variable that a thread looks at cannot be changed in part. -/
def frozenError? (t : Table) (target : Expr) : Option Cause :=
  match target.root? with
  | some name => if t.isFrozen name then some (.frozenMutation name) else none
  | none => none

end ThreadRegions
