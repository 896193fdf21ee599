import Mathlib.Data.List.Basic
import ThreadRegions.Check.Walk

/-!
# Tables that number their symbols in different ways

Two tables may hold the same symbols under different numbers, and one of them may hold symbols that
can no longer be reached.  The checker finds out about a symbol by its name, so it cannot tell such
tables apart.

## Main Definitions

* `Symbol.Like`, `Table.Like`: what the checker finds out is the same, up to numbers
* `Table.Renumbering`: a relation between tables that every operation keeps

## Main Results

* `Table.Like.mutationError?`, `Table.Like.sharedArgs` and others like them: the questions that the
  rules ask
* `Table.Renumbering.same`: a table and itself
-/

namespace ThreadRegions

/-- All that the rules ask of a symbol is the same. -/
structure Symbol.Like (s s' : Symbol) : Prop where
  name : s'.name = s.name
  type : s'.type = s.type
  kind : s'.kind = s.kind
  region : s'.region = s.region
  declared : s'.declared = s.declared
  isFunction : s'.isFunction = s.isFunction
  state : s'.state = s.state
  freezeCount : s'.freezeCount = s.freezeCount

namespace Symbol.Like

variable {s s' : Symbol}

theorem refl (s : Symbol) : s.Like s := ⟨rfl, rfl, rfl, rfl, rfl, rfl, rfl, rfl⟩

theorem isNamespace (h : s.Like s') : s'.isNamespace = s.isNamespace := by
  rw [Symbol.isNamespace, h.kind, Symbol.isNamespace]

theorem isPending (h : s.Like s') : s'.isPending = s.isPending := by
  rw [Symbol.isPending, h.state, Symbol.isPending]

theorem isFrozen (h : s.Like s') : s'.isFrozen = s.isFrozen := by
  rw [Symbol.isFrozen, h.freezeCount, Symbol.isFrozen]

end Symbol.Like

namespace Table

/-- The names of the members of a namespace. -/
def memberNames (t : Table) (id : SymbolId) : List String :=
  (t.symbol id).members.map fun a => (t.symbol a).name

/-- All that the rules ask of a table is the same, where `number` gives the numbers of the symbols
in the second table. -/
structure Like (number : SymbolId → SymbolId) (t t' : Table) : Prop where
  region : t'.region = t.region
  isGlobal : t'.isGlobal = t.isGlobal
  symbol : ∀ id, (t.symbol id).Like (t'.symbol (number id))
  lookup : ∀ name, t'.lookup name = (t.lookup name).map number
  lookupCurrent : ∀ name, t'.lookupCurrent name = (t.lookupCurrent name).map number
  lookupIn : ∀ space name, t'.lookupIn space name = (t.lookupIn space name).map number
  isNamespace : ∀ name, t'.isNamespace name = t.isNamespace name
  memberNames : ∀ id, t'.memberNames (number id) = t.memberNames id
  visibleNames : t'.visibleNames = t.visibleNames

namespace Like

variable {number : SymbolId → SymbolId} {t t' : Table}

/-- Numbers that are all the same. -/
theorem refl (t : Table) : t.Like id t where
  region := rfl
  isGlobal := rfl
  symbol _ := .refl _
  lookup name := (congrFun Option.map_id (t.lookup name)).symm
  lookupCurrent name := (congrFun Option.map_id (t.lookupCurrent name)).symm
  lookupIn space name := (congrFun Option.map_id (t.lookupIn space name)).symm
  isNamespace _ := rfl
  memberNames _ := rfl
  visibleNames := rfl

theorem declarationKind (h : t.Like number t') : t'.declarationKind = t.declarationKind := by
  rw [Table.declarationKind, h.isGlobal, Table.declarationKind]

/-- A name is frozen in both tables or in none. -/
theorem isFrozen (h : t.Like number t') (name : String) : t'.isFrozen name = t.isFrozen name := by
  rw [Table.isFrozen, h.lookup, Table.isFrozen, Option.any_map]
  congr 1
  funext id
  exact (h.symbol id).isFrozen

theorem isPending (h : t.Like number t') (name : String) :
    t'.isPending name = t.isPending name := by
  rw [Table.isPending, h.lookup, Table.isPending, Option.any_map]
  congr 1
  funext id
  exact (h.symbol id).isPending

theorem mutationError? (h : t.Like number t') (name : String) :
    ThreadRegions.mutationError? t' name = ThreadRegions.mutationError? t name := by
  rw [ThreadRegions.mutationError?, h.isFrozen, h.isPending, ThreadRegions.mutationError?]

theorem frozenError? (h : t.Like number t') (target : Expr) :
    ThreadRegions.frozenError? t' target = ThreadRegions.frozenError? t target := by
  unfold ThreadRegions.frozenError?
  cases target.root? with
  | none => rfl
  | some name => simp only [h.isFrozen]

theorem namespaceError? (h : t.Like number t') (name : String) :
    ThreadRegions.namespaceError? t' name = ThreadRegions.namespaceError? t name := by
  rw [ThreadRegions.namespaceError?, h.isNamespace, h.lookup, Option.isSome_map,
    ThreadRegions.namespaceError?]

theorem callsLen (h : t.Like number t') (callee : Expr) :
    t'.callsLen callee = t.callsLen callee := by
  rw [Table.callsLen, h.lookup, Option.isNone_map, Table.callsLen]

theorem filter_lookup (h : t.Like number t') (e : Expr) {p p' : SymbolId → Bool}
    (hp : ∀ id, p' (number id) = p id) :
    (e.name?.bind t'.lookup).filter p' = ((e.name?.bind t.lookup).filter p).map number := by
  cases e.name? with
  | none => rfl
  | some name =>
    rw [Option.bind_some, Option.bind_some, h.lookup, Option.filter_map]
    congr 2
    funext id
    exact hp id

theorem namespaceOf? (h : t.Like number t') (object : Expr) :
    t'.namespaceOf? object = (t.namespaceOf? object).map number :=
  h.filter_lookup object fun id => (h.symbol id).isNamespace

/-- The modifier of a called function, by its name or as a member of a namespace. -/
theorem declaredModifier (h : t.Like number t') (callee : Expr) :
    ThreadRegions.declaredModifier t' callee = ThreadRegions.declaredModifier t callee := by
  cases callee with
  | var n name =>
    rw [ThreadRegions.declaredModifier, h.lookup, ThreadRegions.declaredModifier]
    cases t.lookup name with
    | none => rfl
    | some id => exact (h.symbol id).declared
  | member n object name =>
    rw [ThreadRegions.declaredModifier, ThreadRegions.declaredModifier]
    cases object.name? with
    | none => rfl
    | some space =>
      rw [Option.bind_some, Option.bind_some, h.lookupIn]
      cases t.lookupIn space name with
      | none => rfl
      | some id => exact (h.symbol id).declared
  | _ => rfl

/-- Numbers that are different stay different. -/
theorem contains_map (hn : number.Injective) (ids : List SymbolId) (id : SymbolId) :
    (ids.map number).contains (number id) = ids.contains id := by
  rw [Bool.eq_iff_iff, List.contains_iff_mem, List.contains_iff_mem]
  exact List.mem_map_of_injective hn

/-- Whether an argument is shared with a thread depends on its type only. -/
theorem sharedArg? (h : t.Like number t') (q : Qualifier) (arg : Expr) :
    ThreadRegions.sharedArg? t' q arg = (ThreadRegions.sharedArg? t q arg).map number := by
  refine h.filter_lookup arg fun id => ?_
  rw [(h.symbol id).type]

theorem sharedArgs (h : t.Like number t') (hn : number.Injective)
    (quals : Option (List Qualifier)) (index : Nat) (known : List SymbolId) (args : List Expr) :
    ThreadRegions.sharedArgs t' quals index (known.map number) args =
      (ThreadRegions.sharedArgs t quals index known args).map number := by
  induction args generalizing index known with
  | nil => rfl
  | cons arg others ih =>
    rw [ThreadRegions.sharedArgs, ThreadRegions.sharedArgs, h.sharedArg?]
    cases ThreadRegions.sharedArg? t (Ty.qualifierAt quals index) arg with
    | none => exact ih (index + 1) known
    | some id =>
      -- an argument that is known already is not added again
      dsimp only [Option.map_some]
      rw [contains_map hn, ← ih]
      congr 1
      split
      · rfl
      · rw [List.map_append, List.map_singleton]

end Like

/-- The tables with symbols that they have just been asked for. -/
def Linked (number : SymbolId → SymbolId) (R : Table → Table → Prop) (p p' : Table × SymbolId) :
    Prop :=
  R p.1 p'.1 ∧ p'.2 = number p.2

/-- The two answers are the same error, or both tables. -/
inductive Both {α : Type} (R : α → α → Prop) : Except ThreadError α → Except ThreadError α → Prop
  | error (e : ThreadError) : Both R (.error e) (.error e)
  | ok {a a' : α} : R a a' → Both R (.ok a) (.ok a')

/-- Tables in the relation look the same to the checker, and do so after every operation. -/
structure Renumbering (number : SymbolId → SymbolId) (R : Table → Table → Prop) : Prop where
  injective : number.Injective
  like : ∀ {t t'}, R t t' → t.Like number t'
  pushScope : ∀ {t t'}, R t t' → R t.pushScope t'.pushScope
  pushFrame : ∀ {t t'}, R t t' → R t.pushFrame t'.pushFrame
  popScope : ∀ {t t'}, R t t' → R t.popScope t'.popScope
  alignLocals : ∀ {t t'}, R t t' → R t.alignLocals t'.alignLocals
  enterRegion : ∀ {t t'}, R t t' → R t.enterRegion t'.enterRegion
  exitRegion : ∀ {t t'}, R t t' → R t.exitRegion t'.exitRegion
  add : ∀ {t t'}, R t t' → ∀ name type kind,
    Linked number R (t.add name type kind) (t'.add name type kind)
  setQualifier : ∀ {t t'}, R t t' → ∀ id q, R (t.setQualifier id q) (t'.setQualifier (number id) q)
  setFunction : ∀ {t t'}, R t t' → ∀ id modifier declared,
    R (t.setFunction id modifier declared) (t'.setFunction (number id) modifier declared)
  addNamespace : ∀ {t t'}, R t t' → ∀ name,
    Option.Rel (Linked number R) (t.addNamespace name) (t'.addNamespace name)
  addToNamespace : ∀ {t t'}, R t t' → ∀ space name type,
    Option.Rel (Linked number R) (t.addToNamespace space name type)
      (t'.addToNamespace space name type)
  syncVariable : ∀ {t t'}, R t t' → ∀ name,
    Both (Linked number R) (t.syncVariable name) (t'.syncVariable name)
  bind : ∀ {t t'}, R t t' → ∀ id,
    Both R (t.transition id fun s => s.rebind.bind Symbol.markPending)
      (t'.transition (number id) fun s => s.rebind.bind Symbol.markPending)
  freeze : ∀ {t t'}, R t t' → ∀ id, R (t.freeze id) (t'.freeze (number id))
  setFrozenArgs : ∀ {t t'}, R t t' → ∀ id args,
    R (t.setFrozenArgs id args) (t'.setFrozenArgs (number id) (args.map number))

namespace Renumbering

variable {number : SymbolId → SymbolId} {R : Table → Table → Prop} {t t' : Table}

/-- The symbol that has been declared is the same one. -/
theorem addQualified (h : Renumbering number R) (ht : R t t') (name : String) (type : Ty)
    (kind : SymbolKind) (q : Qualifier) :
    Linked number R (t.addQualified name type kind q) (t'.addQualified name type kind q) := by
  obtain ⟨hadd, hid⟩ := h.add ht name type kind
  refine ⟨?_, hid⟩
  show R _ ((t'.add name type kind).1.setQualifier (t'.add name type kind).2 q)
  rw [hid]
  exact h.setQualifier hadd _ q

theorem addFunction (h : Renumbering number R) (ht : R t t') (name : String) (type : Ty)
    (modifier declared : Modifier) :
    Linked number R (t.addFunction name type modifier declared)
      (t'.addFunction name type modifier declared) := by
  rw [Table.addFunction, Table.addFunction, (h.like ht).declarationKind]
  obtain ⟨hadd, hid⟩ := h.add ht name type t.declarationKind
  refine ⟨?_, hid⟩
  dsimp only
  rw [hid]
  exact h.setFunction hadd _ modifier declared

/-- A namespace is missing in both tables or in none. -/
theorem addFunctionToNamespace (h : Renumbering number R) (ht : R t t') (space name : String)
    (type : Ty) (modifier declared : Modifier) :
    Option.Rel (Linked number R) (t.addFunctionToNamespace space name type modifier declared)
      (t'.addFunctionToNamespace space name type modifier declared) := by
  have hadd := h.addToNamespace ht space name type
  unfold Table.addFunctionToNamespace
  -- the two answers have to be variables for the cases
  generalize t.addToNamespace space name type = found at hadd ⊢
  generalize t'.addToNamespace space name type = found' at hadd ⊢
  cases hadd with
  | none => exact .none
  | some hadd =>
    obtain ⟨hadd, hid⟩ := hadd
    refine .some ⟨?_, hid⟩
    dsimp only
    rw [hid]
    exact h.setFunction hadd _ modifier declared

theorem foldl_freeze (h : Renumbering number R) (ids : List SymbolId) (ht : R t t') :
    R (ids.foldl Table.freeze t) ((ids.map number).foldl Table.freeze t') := by
  induction ids generalizing t t' with
  | nil => exact ht
  | cons id others ih => exact ih (h.freeze ht id)

theorem same : Renumbering id fun t t' => t' = t where
  injective := Function.injective_id
  like := by
    rintro _ t rfl
    exact .refl t
  pushScope h := congrArg Table.pushScope h
  pushFrame h := congrArg Table.pushFrame h
  popScope h := congrArg Table.popScope h
  alignLocals h := congrArg Table.alignLocals h
  enterRegion h := congrArg Table.enterRegion h
  exitRegion h := congrArg Table.exitRegion h
  add := by
    rintro _ t rfl name type kind
    exact ⟨rfl, rfl⟩
  setQualifier h id q := congrArg (Table.setQualifier · id q) h
  setFunction h id modifier declared := congrArg (Table.setFunction · id modifier declared) h
  addNamespace := by
    rintro _ t rfl name
    cases t.addNamespace name with
    | none => exact .none
    | some found => exact .some ⟨rfl, rfl⟩
  addToNamespace := by
    rintro _ t rfl space name type
    cases t.addToNamespace space name type with
    | none => exact .none
    | some found => exact .some ⟨rfl, rfl⟩
  syncVariable := by
    rintro _ t rfl name
    cases t.syncVariable name with
    | error e => exact .error e
    | ok found => exact .ok ⟨rfl, rfl⟩
  bind := by
    rintro _ t rfl handle
    show Both _ _ (t.transition handle _)
    cases t.transition handle fun s => s.rebind.bind Symbol.markPending with
    | error e => exact .error e
    | ok bound => exact .ok rfl
  freeze h id := congrArg (Table.freeze · id) h
  setFrozenArgs := by
    rintro _ t rfl handle args
    rw [List.map_id]
    rfl

end Renumbering

end Table

end ThreadRegions
