import Mathlib.Data.Finmap
import ThreadRegions.Proofs.Names

/-!
# The symbol table as a stack of finite maps

A table keeps all scopes and symbols it ever had and finds a name by going through lists of numbers.
What a reader of a program has in mind is simpler: a stack of finite maps from names to symbols, one
for each open scope, and one more map for each namespace.  Here that stack is given operations of
its own, and every sequence of operations on a table is shown to do to the table what it does to the
stack.

## Main Definitions

* `Operation`, `Table.run`: what can be done to a table, one operation after the other
* `ScopeStack`, `ScopeStack.run`: the stack, and the same operations on it
* `Table.Refines`: the invariant that ties a table to its stack

## Main Results

* `Table.Refines.apply`: one operation keeps the invariant
* `Table.Refines.run`: so does every sequence of operations

## Design Notes

A map of the stack binds names to the numbers of symbols.  The numbers are handed out in order by
both sides, so the two sides agree on them and not only up to renaming.

The stack knows which symbols are namespaces: these are the keys of `ScopeStack.spaces`.  A symbol
of that kind may be declared in any scope, but only a binding of the global scope is used as one.
-/

namespace ThreadRegions

/-! ### Operations -/

/-- What can be done to the scopes and names of a table. -/
inductive Operation where
  | pushScope
  | pushFrame
  | popScope
  | add (name : String) (type : Ty) (kind : SymbolKind)
  | addQualified (name : String) (type : Ty) (kind : SymbolKind) (q : Qualifier)
  | addFunction (name : String) (type : Ty) (modifier declared : Modifier)
  | addNamespace (name : String)
  | addToNamespace (space name : String) (type : Ty)
  | addFunctionToNamespace (space name : String) (type : Ty) (modifier declared : Modifier)
  | removeFromGlobal (name : String)

namespace Table

/-- The table after an operation.  One that fails leaves the table as it is. -/
def apply (t : Table) : Operation → Table
  | .pushScope => t.pushScope
  | .pushFrame => t.pushFrame
  | .popScope => t.popScope
  | .add name type kind => (t.add name type kind).1
  | .addQualified name type kind q => (t.addQualified name type kind q).1
  | .addFunction name type modifier declared => (t.addFunction name type modifier declared).1
  | .addNamespace name => ((t.addNamespace name).map Prod.fst).getD t
  | .addToNamespace space name type => ((t.addToNamespace space name type).map Prod.fst).getD t
  | .addFunctionToNamespace space name type modifier declared =>
    ((t.addFunctionToNamespace space name type modifier declared).map Prod.fst).getD t
  | .removeFromGlobal name => (t.removeFromGlobal name).1

/-- The table after operations, the first one first. -/
def run (t : Table) (ops : List Operation) : Table := ops.foldl apply t

@[simp] theorem run_nil (t : Table) : t.run [] = t := rfl

@[simp] theorem run_cons (t : Table) (op : Operation) (ops : List Operation) :
    t.run (op :: ops) = (t.apply op).run ops := rfl

theorem run_append (t : Table) (ops ops' : List Operation) :
    t.run (ops ++ ops') = (t.run ops).run ops' :=
  List.foldl_append

end Table

/-! ### The stack -/

/-- What the names of one scope or of one namespace stand for. -/
abbrev Bindings := Finmap fun _ : String => SymbolId

/-- Finite maps from names to symbols, one for each open scope. -/
structure ScopeStack where
  /-- The maps of the scopes other than the global one, innermost first. -/
  inner : List Bindings
  /-- The map of the global scope. -/
  global : Bindings
  /-- The members of each symbol that is a namespace. -/
  spaces : Finmap fun _ : SymbolId => Bindings
  /-- The number of the next symbol. -/
  next : SymbolId

namespace ScopeStack

/-- The stack before any declaration. -/
def empty : ScopeStack := ⟨[], ∅, ∅, 0⟩

/-- All maps, innermost first. -/
def levels (s : ScopeStack) : List Bindings := s.inner ++ [s.global]

/-- The map of the innermost scope. -/
def top (s : ScopeStack) : Bindings := s.inner.headD s.global

/-- The binding of a name in the innermost scope that has one. -/
def lookup (s : ScopeStack) (name : String) : Option SymbolId :=
  s.levels.findSome? fun m => m.lookup name

/-- The members of the namespace that a name stands for in the global scope. -/
def space? (s : ScopeStack) (name : String) : Option (SymbolId × Bindings) :=
  (s.global.lookup name).bind fun b => (s.spaces.lookup b).map (b, ·)

/-- The members of the namespace that a name stands for are those of its symbol. -/
theorem lookup_of_space? {s : ScopeStack} {name : String} {b : SymbolId} {members : Bindings}
    (h : s.space? name = some (b, members)) : s.spaces.lookup b = some members := by
  obtain ⟨a, -, ha⟩ := Option.bind_eq_some_iff.1 h
  obtain ⟨m, hm, hpair⟩ := Option.map_eq_some_iff.1 ha
  cases hpair
  exact hm

/-- The member with a name of the namespace with a name. -/
def member (s : ScopeStack) (space name : String) : Option SymbolId :=
  (s.space? space).bind fun b => b.2.lookup name

/-- Binds a name in the innermost scope. -/
def bind (s : ScopeStack) (name : String) (a : SymbolId) : ScopeStack :=
  match s.inner with
  | [] => { s with global := s.global.insert name a }
  | m :: outer => { s with inner := m.insert name a :: outer }

/-- Hands out the next number, to a namespace without members if `space` is true. -/
def fresh (s : ScopeStack) (space : Bool) : ScopeStack :=
  { s with
    spaces := if space then s.spaces.insert s.next ∅ else s.spaces
    next := s.next + 1 }

section

variable {s : ScopeStack} {space : Bool} {b : SymbolId}

/-- The symbols that have been there keep their members. -/
theorem lookup_fresh_of_ne (h : b ≠ s.next) :
    (s.fresh space).spaces.lookup b = s.spaces.lookup b := by
  cases space
  · rfl
  · exact Finmap.lookup_insert_of_ne _ h

/-- A new symbol has no members, and is a namespace only if it is asked to be one. -/
theorem lookup_fresh_self (h : s.next ∉ s.spaces) :
    (s.fresh space).spaces.lookup s.next = if space then some ∅ else none := by
  cases space
  · exact Finmap.lookup_eq_none.2 h
  · exact Finmap.lookup_insert _

end

/-- Declares a name in the innermost scope, unless that scope has the name. -/
def declare (s : ScopeStack) (name : String) (space : Bool) : ScopeStack :=
  if name ∈ s.top then s else (s.bind name s.next).fresh space

/-- Declares a namespace in the global scope, unless that scope has the name. -/
def declareSpace (s : ScopeStack) (name : String) : ScopeStack :=
  if name ∈ s.global then s else { s with global := s.global.insert name s.next }.fresh true

/-- A new namespace does not touch other names. -/
theorem lookup_declareSpace_of_ne (s : ScopeStack) {name other : String} (h : other ≠ name) :
    (s.declareSpace other).global.lookup name = s.global.lookup name := by
  unfold declareSpace
  split
  · rfl
  · exact Finmap.lookup_insert_of_ne _ (Ne.symm h)

/-- Declares a member of a namespace, unless there is no such namespace or it has the name. -/
def declareMember (s : ScopeStack) (space name : String) : ScopeStack :=
  match s.space? space with
  | none => s
  | some (b, members) =>
    if name ∈ members then s
    else { s with spaces := s.spaces.insert b (members.insert name s.next) }.fresh false

/-- Takes a name out of the global scope, unless it is a namespace. -/
def remove (s : ScopeStack) (name : String) : ScopeStack :=
  if (s.space? name).isSome then s else { s with global := s.global.erase name }

/-- Taking away a name does not touch the others. -/
theorem lookup_remove_of_ne (s : ScopeStack) {name other : String} (h : other ≠ name) :
    (s.remove other).global.lookup name = s.global.lookup name := by
  unfold remove
  split
  · rfl
  · exact Finmap.lookup_erase_ne (Ne.symm h)

/-- The stack after an operation. -/
def apply (s : ScopeStack) : Operation → ScopeStack
  | .pushScope | .pushFrame => { s with inner := ∅ :: s.inner }
  | .popScope => { s with inner := s.inner.tail }
  | .add name _ kind | .addQualified name _ kind _ => s.declare name (kind = .namespace_)
  | .addFunction name _ _ _ => s.declare name false
  | .addNamespace name => s.declareSpace name
  | .addToNamespace space name _ | .addFunctionToNamespace space name _ _ _ =>
    s.declareMember space name
  | .removeFromGlobal name => s.remove name

/-- The stack after operations, the first one first. -/
def run (s : ScopeStack) (ops : List Operation) : ScopeStack := ops.foldl apply s

@[simp] theorem run_cons (s : ScopeStack) (op : Operation) (ops : List Operation) :
    s.run (op :: ops) = (s.apply op).run ops := rfl

end ScopeStack

namespace Table

/-! ### One list of symbols and one map -/

/-- The map binds exactly the names of the given symbols, each to its symbol. -/
def Lists (t : Table) (ids : List SymbolId) (m : Bindings) : Prop :=
  ∀ name a, m.lookup name = some a ↔ a ∈ ids ∧ (t.symbol a).name = name

/-- The names of the given symbols. -/
def namesOf (t : Table) (ids : List SymbolId) : List String := ids.map fun a => (t.symbol a).name

namespace Lists

variable {t t' : Table} {ids : List SymbolId} {m : Bindings}

theorem nil (t : Table) : t.Lists [] ∅ := by
  intro name a
  simp

/-- Symbols that keep their names are listed by the same map. -/
theorem congr (h : t.Lists ids m) (hn : ∀ a ∈ ids, (t'.symbol a).name = (t.symbol a).name) :
    t'.Lists ids m := by
  intro name a
  rw [h name a]
  refine and_congr_right fun ha => ?_
  rw [hn a ha]

/-- A map has exactly the names of its symbols. -/
theorem mem_iff (h : t.Lists ids m) (name : String) : name ∈ m ↔ name ∈ t.namesOf ids := by
  rw [Finmap.mem_iff, namesOf, List.mem_map]
  exact exists_congr fun a => h name a

/-- Whatever search goes through the symbols and stops at the name finds what the map says. -/
theorem find?_eq (h : t.Lists ids m) {found : List SymbolId} (hmem : ∀ a, a ∈ found ↔ a ∈ ids)
    (name : String) : found.find? (fun a => (t.symbol a).name = name) = m.lookup name := by
  cases hf : found.find? (fun a => (t.symbol a).name = name) with
  | some a =>
    have hname : (t.symbol a).name = name := by simpa using List.find?_some hf
    exact ((h name a).2 ⟨(hmem a).1 (List.mem_of_find?_eq_some hf), hname⟩).symm
  | none =>
    rw [List.find?_eq_none] at hf
    symm
    rw [Finmap.lookup_eq_none, h.mem_iff, namesOf, List.mem_map]
    rintro ⟨a, ha, hname⟩
    exact hf a ((hmem a).2 ha) (by simpa using hname)

/-- The search of the table starts at the end, which makes no difference where names are different.
-/
theorem findLast_eq (h : t.Lists ids m) (name : String) : t.findLast ids name = m.lookup name :=
  h.find?_eq (fun _ => List.mem_reverse) name

theorem snoc (h : t.Lists ids m) {name : String} {a : SymbolId} (hfree : name ∉ m)
    (hn : (t.symbol a).name = name) : t.Lists (ids ++ [a]) (m.insert name a) := by
  intro other b
  rw [List.mem_append, List.mem_singleton]
  -- the free name is bound by no other symbol, so it stands for the new one
  by_cases ho : other = name
  · subst ho
    rw [Finmap.lookup_insert]
    constructor
    · rintro ⟨⟩
      exact ⟨.inr rfl, hn⟩
    · rintro ⟨hb | rfl, hname⟩
      · exact absurd (Finmap.mem_of_lookup_eq_some ((h other b).2 ⟨hb, hname⟩)) hfree
      · rfl
  · rw [Finmap.lookup_insert_of_ne _ ho, h other b]
    constructor
    · rintro ⟨hb, hname⟩
      exact ⟨.inl hb, hname⟩
    · rintro ⟨hb | rfl, hname⟩
      · exact ⟨hb, hname⟩
      · exact absurd (hname.symm.trans hn) ho

theorem erase (h : t.Lists ids m) (name : String) {left : List SymbolId}
    (hl : ∀ a, a ∈ left ↔ a ∈ ids ∧ (t.symbol a).name ≠ name) : t.Lists left (m.erase name) := by
  intro other a
  rw [hl a]
  by_cases ho : other = name
  · subst ho
    rw [Finmap.lookup_erase]
    constructor
    · intro hnone
      cases hnone
    · rintro ⟨⟨-, hne⟩, hname⟩
      exact absurd hname hne
  · rw [Finmap.lookup_erase_ne ho, h other a]
    constructor
    · rintro ⟨ha, hname⟩
      exact ⟨⟨ha, fun heq => ho (hname.symm.trans heq)⟩, hname⟩
    · rintro ⟨⟨ha, -⟩, hname⟩
      exact ⟨ha, hname⟩

end Lists

/-! ### The table and the stack -/

/-- The stack says what the table holds. -/
structure Refines (t : Table) (s : ScopeStack) : Prop where
  wellFormed : t.WellFormed
  next : s.next = t.symbols.size
  inner : List.Forall₂ (fun c m => t.Lists (t.scope c).symbols m) t.inner s.inner
  global : t.Lists (t.scope globalId).symbols s.global
  spaces : ∀ b, b ∈ s.spaces ↔ b < t.symbols.size ∧ (t.symbol b).isNamespace
  members : ∀ b ms, s.spaces.lookup b = some ms → t.Lists (t.symbol b).members ms
  names : ∀ c, (t.namesOf (t.scope c).symbols).Nodup
  memberNames : ∀ b, (t.namesOf (t.symbol b).members).Nodup
  parents : t.open_.IsChain fun c d => (t.scope c).parent = some d
  root : (t.scope globalId).parent = none

/-- Both sides begin with an empty global scope. -/
theorem refines_empty : empty.Refines .empty where
  wellFormed := wellFormed_empty
  next := rfl
  inner := .nil
  global := .nil _
  spaces b := by simp [ScopeStack.empty, empty, Finmap.notMem_empty]
  members b ms h := by simp [ScopeStack.empty] at h
  names c := by
    rcases c with - | c
    · exact List.nodup_nil
    · exact List.nodup_nil
  memberNames b := by
    rw [symbol_of_size_le (by simp [empty])]
    exact List.nodup_nil
  parents := .singleton _
  root := rfl

/-- Only the names of the symbols themselves matter. -/
theorem namesOf_congr {t t' : Table} {ids : List SymbolId}
    (h : ∀ a ∈ ids, (t'.symbol a).name = (t.symbol a).name) : t'.namesOf ids = t.namesOf ids :=
  List.map_congr_left h

/-- Names stay distinct when a free one is added. -/
theorem nodup_namesOf_snoc {t : Table} {ids : List SymbolId} {a : SymbolId}
    (h : (t.namesOf ids).Nodup) (ha : (t.symbol a).name ∉ t.namesOf ids) :
    (t.namesOf (ids ++ [a])).Nodup := by
  rw [namesOf, List.map_append, List.map_singleton, ← namesOf, List.nodup_append]
  refine ⟨h, List.nodup_singleton _, fun name hname other hother => ?_⟩
  rintro rfl
  exact ha (List.mem_singleton.1 hother ▸ hname)

/-- Some symbols are taken out of a scope. -/
theorem WellFormed.unlink {t : Table} (h : t.WellFormed) {c : ScopeId} {g : Scope → Scope}
    (hg : (g (t.scope c)).symbols ⊆ (t.scope c).symbols) : (t.modifyScope c g).WellFormed := by
  have hsub : ∀ d, ((t.modifyScope c g).scope d).symbols ⊆ (t.scope d).symbols := by
    intro d
    by_cases hd : d = c
    · subst hd
      by_cases hlt : d < t.scopes.size
      · rw [scope_modifyScope_self hlt]
        exact hg
      · rw [scope_of_size_le (by simpa using hlt)]
        exact List.nil_subset _
    · rw [scope_modifyScope_of_ne hd]
      exact List.Subset.refl _
  refine ⟨by simpa using h.global_lt, fun d hd => by simpa using h.inner_lt d hd, h.sorted,
    fun d a ha => h.linked d a (hsub d ha), fun b a ha => ⟨(h.members b a ha).1, fun d hd => ?_⟩⟩
  exact (h.members b a ha).2 d (hsub d hd)

/-- Nothing is found to be taken away. -/
theorem eraseLast?_eq_none {α : Type} {p : α → Bool} {xs : List α} (h : eraseLast? p xs = none) :
    ∀ a ∈ xs, p a = false := by
  unfold eraseLast? at h
  split at h
  · cases h
  · next hany => simpa using hany

/-- One element is gone, and it is one that satisfies `p`. -/
theorem eraseLast?_eq_some {α : Type} {p : α → Bool} {xs left : List α} (hn : xs.Nodup)
    (h : eraseLast? p xs = some left) :
    left.Sublist xs ∧ ∃ b ∈ xs, p b ∧ ∀ a, a ∈ left ↔ a ∈ xs ∧ a ≠ b := by
  unfold eraseLast? at h
  split at h
  · next hany =>
    cases h
    obtain ⟨a, ha, hpa⟩ := List.any_eq_true.1 hany
    obtain ⟨b, l₁, l₂, -, hb, hsplit, herase⟩ :=
      List.exists_of_eraseP (List.mem_reverse.2 ha) hpa
    -- the list is searched from its end, so it is cut around the element from there
    have hxs : xs = l₂.reverse ++ b :: l₁.reverse := by
      rw [← List.reverse_reverse xs, hsplit]
      simp
    rw [herase, List.reverse_append]
    rw [hxs] at hn ⊢
    refine ⟨?_, b, by simp, hb, fun c => ?_⟩
    · exact List.Sublist.append (List.Sublist.refl _) (List.sublist_cons_self _ _)
    · rw [List.nodup_middle] at hn
      obtain ⟨hnot, -⟩ := List.nodup_cons.1 hn
      constructor
      · intro hc
        refine ⟨?_, fun hcb => hnot (hcb ▸ hc)⟩
        rw [List.mem_append, List.mem_cons]
        rw [List.mem_append] at hc
        tauto
      · rintro ⟨hc, hne⟩
        rw [List.mem_append, List.mem_cons] at hc
        rw [List.mem_append]
        tauto
  · cases h

namespace Refines

variable {t : Table} {s : ScopeStack} (h : t.Refines s)

include h

/-- The open scopes are the maps of the stack, level by level. -/
theorem open_ : List.Forall₂ (fun c m => t.Lists (t.scope c).symbols m) t.open_ s.levels :=
  List.rel_append h.inner (.cons h.global .nil)

/-- A name stands for the same symbol on both sides. -/
theorem lookup_eq (name : String) : t.lookup name = s.lookup name := by
  have hlevels := h.open_
  unfold lookup ScopeStack.lookup
  -- level by level, the innermost first
  generalize t.open_ = scopes, s.levels = maps at hlevels
  induction hlevels with
  | nil => rfl
  | cons hm _ ih => rw [List.findSome?_cons, List.findSome?_cons, ih, findIn, hm.findLast_eq]

/-- The same for the global scope alone. -/
theorem findIn_global (name : String) : t.findIn globalId name = s.global.lookup name :=
  h.global.findLast_eq name

/-- The current scope is the map on top of the stack. -/
theorem current : t.Lists (t.scope t.current).symbols s.top := by
  cases hi : t.inner with
  | nil =>
    have hs := h.inner
    rw [hi] at hs
    have hnil : s.inner = [] := List.forall₂_nil_left_iff.1 hs
    rw [Table.current, ScopeStack.top, hi, hnil]
    exact h.global
  | cons c outer =>
    have hs := h.inner
    rw [hi] at hs
    obtain ⟨m, maps, hm, -, hcons⟩ := List.forall₂_cons_left_iff.1 hs
    rw [Table.current, ScopeStack.top, hi, hcons]
    exact hm

/-- The namespace of a name is found by going through all global symbols for the first one of that
name that is a namespace.  The names are different, so it is the one that the map has. -/
theorem findNamespace_eq (name : String) : t.findNamespace name = (s.space? name).map Prod.fst := by
  unfold findNamespace ScopeStack.space?
  cases hg : s.global.lookup name with
  | none =>
    rw [Finmap.lookup_eq_none, h.global.mem_iff, namesOf, List.mem_map, not_exists] at hg
    refine List.find?_eq_none.2 fun a ha hfound => hg a ⟨ha, ?_⟩
    simpa using (Bool.and_eq_true_iff.1 hfound).2
  | some b =>
    obtain ⟨hb, hname⟩ := (h.global name b).1 hg
    -- no other symbol of the global scope has the name
    have honly : ∀ a ∈ (t.scope globalId).symbols,
        ((t.symbol a).isNamespace && (t.symbol a).name = name) = true → a = b := by
      intro a ha hfound
      have hn : (t.symbol a).name = name := by simpa using (Bool.and_eq_true_iff.1 hfound).2
      exact Option.some_inj.1 (((h.global name a).2 ⟨ha, hn⟩).symm.trans hg)
    rw [Option.bind_some]
    -- the one symbol of the name may be something else than a namespace
    cases hs : s.spaces.lookup b with
    | some ms =>
      have hspace := ((h.spaces b).1 (Finmap.mem_of_lookup_eq_some hs)).2
      cases hf : (t.scope globalId).symbols.find? fun a =>
          (t.symbol a).isNamespace && decide ((t.symbol a).name = name) with
      | some a =>
        have hfound := List.find?_some hf
        rw [honly a (List.mem_of_find?_eq_some hf) hfound]
        rfl
      | none =>
        refine absurd ?_ (List.find?_eq_none.1 hf b hb)
        simp [hspace, hname]
    | none =>
      refine List.find?_eq_none.2 fun a ha hfound => ?_
      obtain rfl := honly a ha hfound
      refine Finmap.lookup_eq_none.1 hs ((h.spaces a).2 ⟨(h.wellFormed.linked _ a ha).1, ?_⟩)
      exact (Bool.and_eq_true_iff.1 hfound).1

/-- The members of a namespace are searched from the beginning. -/
theorem findMember_eq {space name : String} {b : SymbolId} {ms : Bindings}
    (hs : s.space? space = some (b, ms)) : t.findMember b name = ms.lookup name := by
  exact (h.members b ms (ScopeStack.lookup_of_space? hs)).find?_eq (fun _ => Iff.rfl) name

/-- A member stands for the same symbol on both sides. -/
theorem lookupIn_eq (space name : String) : t.lookupIn space name = s.member space name := by
  unfold lookupIn ScopeStack.member
  rw [h.findNamespace_eq]
  cases hs : s.space? space with
  | none => rfl
  | some b => exact h.findMember_eq hs

/-! ### Each operation -/

theorem modifySymbol {a : SymbolId} {f : Symbol → Symbol}
    (hn : (f (t.symbol a)).name = (t.symbol a).name)
    (hk : (f (t.symbol a)).kind = (t.symbol a).kind)
    (hs : (f (t.symbol a)).scope = (t.symbol a).scope)
    (hm : (f (t.symbol a)).members = (t.symbol a).members) : (t.modifySymbol a f).Refines s := by
  have hname : ∀ b, ((t.modifySymbol a f).symbol b).name = (t.symbol b).name :=
    view_modifySymbol Symbol.name hn
  have hspace : ∀ b, ((t.modifySymbol a f).symbol b).isNamespace = (t.symbol b).isNamespace :=
    view_modifySymbol Symbol.isNamespace (by simp [Symbol.isNamespace, hk])
  have hmembers : ∀ b, ((t.modifySymbol a f).symbol b).members = (t.symbol b).members :=
    view_modifySymbol Symbol.members hm
  refine ⟨h.wellFormed.modifySymbol hs hm, by simpa using h.next, ?_, ?_, fun b => ?_,
    fun b ms hb => ?_, fun c => ?_, fun b => ?_, h.parents, h.root⟩
  · exact h.inner.imp fun c m hc => hc.congr fun b _ => hname b
  · exact h.global.congr fun b _ => hname b
  · rw [h.spaces b, size_modifySymbol, hspace]
  · rw [hmembers]
    exact (h.members b ms hb).congr fun d _ => hname d
  · rw [namesOf_congr fun b _ => hname b]
    exact h.names c
  · rw [hmembers, namesOf_congr fun d _ => hname d]
    exact h.memberNames b

/-- A scope is entered that links to the current one. -/
theorem openScope {sc : Scope} (hsym : sc.symbols = []) (hp : sc.parent = some t.current) :
    (t.openScope sc).Refines { s with inner := ∅ :: s.inner } := by
  have hold : ∀ c, c < t.scopes.size → (t.openScope sc).scope c = t.scope c := fun c hc =>
    scope_openScope_of_ne sc (Nat.ne_of_lt hc)
  refine ⟨h.wellFormed.openScope hsym, h.next, ?_, ?_, h.spaces, h.members, fun c => ?_,
    h.memberNames, ?_, by rw [hold _ h.wellFormed.global_lt, h.root]⟩
  · refine .cons ?_ ?_
    · rw [scope_openScope_self, hsym]
      exact .nil _
    · refine List.Forall₂.imp ?_ ((List.forall₂_and_left _ _).2 ⟨h.wellFormed.inner_lt, h.inner⟩)
      rintro c m ⟨hlt, hm⟩
      rw [hold c hlt]
      exact hm
  · rw [hold _ h.wellFormed.global_lt]
    exact h.global
  · by_cases hc : c = t.scopes.size
    · rw [hc, scope_openScope_self, hsym]
      exact List.nodup_nil
    · rw [scope_openScope_of_ne sc hc]
      exact h.names c
  · have hparents := h.parents
    show List.IsChain _ (t.scopes.size :: t.open_)
    rw [open_eq_cons] at hparents ⊢
    -- the new scope links to the scope that was current, and the links below it are the old ones
    refine .cons_cons (by rw [scope_openScope_self, hp]) (hparents.imp_of_mem_imp ?_)
    intro c d hc _ hcd
    rw [← open_eq_cons] at hc
    rw [hold c (h.wellFormed.open_lt hc)]
    exact hcd

/-- The current scope is left.  Its symbols stay in the table, which the stack does not see. -/
theorem popScope : t.popScope.Refines { s with inner := s.inner.tail } := by
  have hsym : ∀ c, (t.popScope.scope c).symbols = (t.scope c).symbols := fun c =>
    (Untouched.popScope t c).symbols
  have hold : ∀ a, t.popScope.symbol a = t.symbol a := by
    intro a
    unfold Table.popScope
    split <;> rfl
  have hsize : t.popScope.symbols = t.symbols := by
    unfold Table.popScope
    split <;> rfl
  have hparent : ∀ c, (t.popScope.scope c).parent = (t.scope c).parent := by
    intro c
    unfold Table.popScope
    split
    · rfl
    · next child outer _ =>
      exact view_modifyScope (t := { t with inner := outer }) Scope.parent rfl c
  have hlists : ∀ {ids m}, t.Lists ids m → t.popScope.Lists ids m := fun hl =>
    hl.congr fun a _ => by rw [hold]
  have hnames : ∀ ids, t.popScope.namesOf ids = t.namesOf ids := fun ids =>
    namesOf_congr fun a _ => by rw [hold]
  refine ⟨h.wellFormed.popScope, by rw [hsize]; exact h.next, ?_, ?_, fun b => ?_,
    fun b ms hb => ?_, fun c => ?_, fun b => ?_, ?_, by rw [hparent, h.root]⟩
  · rw [inner_popScope]
    have hinner : List.Forall₂ (fun c m => t.popScope.Lists (t.popScope.scope c).symbols m)
        t.inner s.inner := h.inner.imp fun c m hc => by
      rw [hsym]
      exact hlists hc
    show List.Forall₂ _ t.inner.tail s.inner.tail
    -- one level is gone on both sides, if there was one
    generalize t.inner = scopes, s.inner = maps at hinner
    cases hinner with
    | nil => exact .nil
    | cons _ houter => exact houter
  · rw [hsym]
    exact hlists h.global
  · rw [hsize, hold]
    exact h.spaces b
  · rw [hold]
    exact hlists (h.members b ms hb)
  · rw [hsym, hnames]
    exact h.names c
  · rw [hold, hnames]
    exact h.memberNames b
  · have hparents : t.open_.IsChain fun c d => (t.popScope.scope c).parent = some d :=
      h.parents.imp fun c d hcd => by rw [hparent, hcd]
    have hopen : t.popScope.open_ <:+ t.open_ := by
      rw [Table.open_, Table.open_, inner_popScope]
      exact List.suffix_append_self_iff.2 (List.tail_suffix _)
    exact hparents.suffix hopen

/-! ### A new symbol -/

section

-- the table in which the scope `c` holds one more symbol
variable {t' : Table} {c : ScopeId} {sym : Symbol} {g : Scope → Scope}
  (ht' : t' = (t.pushSymbol sym).modifyScope c g)

include ht'

omit h in
theorem symbol_link_of_ne {a : SymbolId} (ha : a ≠ t.symbols.size) : t'.symbol a = t.symbol a := by
  rw [ht', symbol_modifyScope, symbol_pushSymbol_of_ne sym ha]

omit h in
theorem symbol_link_self : t'.symbol t.symbols.size = sym := by
  rw [ht', symbol_modifyScope, symbol_pushSymbol_self sym]

omit h in
/-- The scope ends with the new symbol. -/
theorem symbols_link_self (hc : c < t.scopes.size)
    (hg : (g (t.scope c)).symbols = (t.scope c).symbols ++ [t.symbols.size]) :
    (t'.scope c).symbols = (t.scope c).symbols ++ [t.symbols.size] := by
  rw [ht', scope_modifyScope_self (by exact hc)]
  exact hg

omit h in
theorem scope_link_of_ne {d : ScopeId} (hd : d ≠ c) : t'.scope d = t.scope d := by
  rw [ht', scope_modifyScope_of_ne hd, scope_pushSymbol]

theorem name_link (d : ScopeId) :
    ∀ a ∈ (t.scope d).symbols, (t'.symbol a).name = (t.symbol a).name := by
  intro a ha
  rw [symbol_link_of_ne ht' (Nat.ne_of_lt (h.wellFormed.linked d a ha).1)]

/-- The other scopes are listed by the same maps. -/
theorem lists_link_of_ne {d : ScopeId} {m : Bindings} (hd : d ≠ c)
    (hl : t.Lists (t.scope d).symbols m) : t'.Lists (t'.scope d).symbols m := by
  rw [scope_link_of_ne ht' hd]
  exact hl.congr (h.name_link ht' d)

/-- The map of the scope gets one more name, with the number that the stack hands out. -/
theorem lists_link_self {m : Bindings} (hc : c < t.scopes.size)
    (hg : (g (t.scope c)).symbols = (t.scope c).symbols ++ [t.symbols.size])
    (hl : t.Lists (t.scope c).symbols m) (hfree : sym.name ∉ m) :
    t'.Lists (t'.scope c).symbols (m.insert sym.name s.next) := by
  rw [symbols_link_self ht' hc hg, h.next]
  exact (hl.congr (h.name_link ht' c)).snoc hfree (by rw [symbol_link_self ht'])

/-- A symbol with a free name is put into a scope, and the other stack has the new maps. -/
theorem link {s' : ScopeStack} {m : Bindings} (hc : c < t.scopes.size) (hscope : sym.scope = c)
    (hmembers : sym.members = [])
    (hg : (g (t.scope c)).symbols = (t.scope c).symbols ++ [t.symbols.size])
    (hp : (g (t.scope c)).parent = (t.scope c).parent) (hl : t.Lists (t.scope c).symbols m)
    (hfree : sym.name ∉ m)
    (hinner : List.Forall₂ (fun d m => t'.Lists (t'.scope d).symbols m) t.inner s'.inner)
    (hglobal : t'.Lists (t'.scope globalId).symbols s'.global) (hnext : s'.next = s.next + 1)
    (hspaces : s'.spaces = (s.fresh sym.isNamespace).spaces) : t'.Refines s' := by
  have hsize : t'.symbols.size = t.symbols.size + 1 := by
    rw [ht', symbols_modifyScope, size_pushSymbol]
  have hnew : s.next ∉ s.spaces := by
    intro hmem
    exact Nat.lt_irrefl _ (h.next ▸ ((h.spaces _).1 hmem).1)
  have hmember : ∀ b, ∀ a ∈ (t.symbol b).members, (t'.symbol a).name = (t.symbol a).name := by
    intro b a ha
    rw [symbol_link_of_ne ht' (Nat.ne_of_lt (h.wellFormed.members b a ha).1)]
  have hti : t'.inner = t.inner := by rw [ht', inner_modifyScope, inner_pushSymbol]
  have hparent : ∀ d, (t'.scope d).parent = (t.scope d).parent := by
    intro d
    rw [ht', view_modifyScope (t := t.pushSymbol sym) Scope.parent hp, scope_pushSymbol]
  refine ⟨ht' ▸ h.wellFormed.link hc hscope hmembers hg, by rw [hnext, h.next, hsize],
    hti ▸ hinner, hglobal, fun b => ?_, fun b ms hb => ?_, fun d => ?_, fun b => ?_, ?_,
    by rw [hparent, h.root]⟩
  · rw [hspaces, hsize, ← Finmap.lookup_isSome]
    -- the new symbol is a namespace if it has been asked for, and the old ones are what they were
    by_cases hb : b = t.symbols.size
    · rw [hb, symbol_link_self ht', ← h.next, ScopeStack.lookup_fresh_self hnew]
      cases sym.isNamespace <;> simp
    · rw [symbol_link_of_ne ht' hb, ScopeStack.lookup_fresh_of_ne (h.next ▸ hb),
        Finmap.lookup_isSome, h.spaces b]
      refine and_congr_left fun _ => ⟨Nat.lt_succ_of_lt, fun hle => ?_⟩
      exact Nat.lt_of_le_of_ne (Nat.le_of_lt_succ hle) hb
  · rw [hspaces] at hb
    -- a namespace that has just been added has no members
    by_cases hbs : b = t.symbols.size
    · rw [hbs, ← h.next, ScopeStack.lookup_fresh_self hnew] at hb
      rw [hbs, symbol_link_self ht', hmembers]
      split at hb
      · cases hb
        exact .nil _
      · cases hb
    · rw [ScopeStack.lookup_fresh_of_ne (h.next ▸ hbs)] at hb
      rw [symbol_link_of_ne ht' hbs]
      exact (h.members b ms hb).congr (hmember b)
  · by_cases hd : d = c
    · subst hd
      rw [symbols_link_self ht' hc hg]
      refine nodup_namesOf_snoc ?_ ?_
      · rw [namesOf_congr (h.name_link ht' d)]
        exact h.names d
      · rwa [namesOf_congr (h.name_link ht' d), symbol_link_self ht', ← hl.mem_iff]
    · rw [scope_link_of_ne ht' hd, namesOf_congr (h.name_link ht' d)]
      exact h.names d
  · by_cases hb : b = t.symbols.size
    · rw [hb, symbol_link_self ht', hmembers]
      exact List.nodup_nil
    · rw [symbol_link_of_ne ht' hb, namesOf_congr (hmember b)]
      exact h.memberNames b
  · rw [Table.open_, hti]
    exact h.parents.imp fun d e hd => by rw [hparent, hd]

end

/-- A symbol under a free name goes into the map on top, which is the global one if no scope is
open. -/
theorem addNew (name : String) (type : Ty) (kind : SymbolKind) (hfree : name ∉ s.top) :
    (t.addNew name type kind).Refines ((s.bind name s.next).fresh (kind = .namespace_)) := by
  have hlt := h.wellFormed.current_lt
  have hp : (reserve type kind (t.scope t.current)).parent = (t.scope t.current).parent := by
    cases kind <;> rfl
  generalize ht' : t.addNew name type kind = t'
  unfold Table.addNew at ht'
  have hself := h.lists_link_self ht'.symm hlt rfl h.current hfree
  have hinner := h.inner
  unfold ScopeStack.bind
  -- in the global scope alone, the map on top is the global one
  cases hi : t.inner with
  | nil =>
    rw [hi] at hinner
    have hs : s.inner = [] := List.forall₂_nil_left_iff.1 hinner
    have hglobal : t.current = globalId := by rw [Table.current, hi, List.headD_nil]
    rw [ScopeStack.top, hs, List.headD_nil, hglobal] at hself
    rw [hs]
    refine h.link ht'.symm hlt rfl rfl rfl hp h.current hfree ?_ hself rfl rfl
    rw [hi]
    exact .nil
  | cons c outer =>
    rw [hi] at hinner
    obtain ⟨m, maps, -, hmaps, hs⟩ := List.forall₂_cons_left_iff.1 hinner
    have htail : t.open_.tail = outer ++ [globalId] := by rw [Table.open_, hi]; rfl
    have hne : ∀ d ∈ outer ++ [globalId], d ≠ t.current := fun d hd =>
      h.wellFormed.ne_current_of_mem_tail (htail ▸ hd)
    have hcurrent : t.current = c := by rw [Table.current, hi, List.headD_cons]
    rw [ScopeStack.top, hs, List.headD_cons] at hself
    rw [hs]
    refine h.link ht'.symm hlt rfl rfl rfl hp h.current hfree ?_
      (h.lists_link_of_ne ht'.symm (hne _ (by simp)) h.global) rfl rfl
    rw [hi, ← hcurrent]
    refine .cons hself (List.Forall₂.imp ?_ ((List.forall₂_and_left outer maps).2
      ⟨fun d hd => hne d (List.mem_append_left _ hd), hmaps⟩))
    rintro d m' ⟨hd, hm'⟩
    exact h.lists_link_of_ne ht'.symm hd hm'

/-- A name that the current scope has keeps its symbol, whose type changes; the stack does not
change at all. -/
theorem add (name : String) (type : Ty) (kind : SymbolKind) :
    (t.add name type kind).1.Refines (s.declare name (kind = .namespace_)) := by
  unfold Table.add ScopeStack.declare
  have hcur := h.current
  rw [lookupCurrent, findIn, hcur.findLast_eq]
  cases hl : s.top.lookup name with
  | some a =>
    rw [if_pos (Finmap.mem_of_lookup_eq_some hl)]
    exact h.modifySymbol rfl rfl rfl rfl
  | none =>
    have hfree := Finmap.lookup_eq_none.1 hl
    rw [if_neg hfree]
    exact h.addNew name type kind hfree

/-- Qualifiers have nothing to do with names. -/
theorem addQualified (name : String) (type : Ty) (kind : SymbolKind) (q : Qualifier) :
    (t.addQualified name type kind q).1.Refines (s.declare name (kind = .namespace_)) :=
  (h.add name type kind).modifySymbol rfl rfl rfl rfl

/-- Functions are declared as global or local symbols, so they are no namespaces. -/
theorem addFunction (name : String) (type : Ty) (modifier declared : Modifier) :
    (t.addFunction name type modifier declared).1.Refines (s.declare name false) := by
  have hkind : decide (t.declarationKind = .namespace_) = false := by
    unfold declarationKind
    split <;> rfl
  have hadd := h.add name type t.declarationKind
  rw [hkind] at hadd
  exact hadd.modifySymbol rfl rfl rfl rfl

/-- A namespace goes into the global scope, however many scopes are open. -/
theorem addNamespace (name : String) :
    (((t.addNamespace name).map Prod.fst).getD t).Refines (s.declareSpace name) := by
  unfold Table.addNamespace ScopeStack.declareSpace
  rw [findIn, h.global.findLast_eq]
  by_cases hfree : name ∈ s.global
  · rw [if_pos hfree, if_pos (Finmap.lookup_isSome.2 hfree)]
    exact h
  · have hg : globalId < t.scopes.size := h.wellFormed.global_lt
    rw [if_neg hfree, if_neg (mt Finmap.lookup_isSome.1 hfree)]
    refine h.link rfl hg rfl rfl rfl rfl h.global hfree ?_
      (h.lists_link_self rfl hg rfl h.global hfree) rfl rfl
    refine List.Forall₂.imp ?_ ((List.forall₂_and_left _ _).2
      ⟨fun c hc => h.wellFormed.ne_globalId hc, h.inner⟩)
    rintro c m ⟨hne, hm⟩
    exact h.lists_link_of_ne rfl hne hm

/-! ### Namespaces -/

/-- A symbol with a free name becomes a member of a namespace. -/
theorem enlist {t' : Table} {b : SymbolId} (sym : Symbol) {ms : Bindings}
    (ht' : t' = (t.pushSymbol sym).modifySymbol b fun space =>
      { space with members := space.members ++ [t.symbols.size] })
    (hmembers : sym.members = []) (hspace : sym.isNamespace = false)
    (hb : s.spaces.lookup b = some ms) (hfree : sym.name ∉ ms) :
    t'.Refines
      ({ s with spaces := s.spaces.insert b (ms.insert sym.name s.next) }.fresh false) := by
  have hlt := ((h.spaces b).1 (Finmap.mem_of_lookup_eq_some hb)).1
  have hne : b ≠ t.symbols.size := Nat.ne_of_lt hlt
  have hsize : t'.symbols.size = t.symbols.size + 1 := by
    rw [ht', size_modifySymbol, size_pushSymbol]
  -- the new symbol is as given, and the others keep what has to do with names
  have hnew : t'.symbol t.symbols.size = sym := by
    rw [ht', symbol_modifySymbol_of_ne (Ne.symm hne), symbol_pushSymbol_self]
  have hname : ∀ a, a ≠ t.symbols.size → (t'.symbol a).name = (t.symbol a).name := by
    intro a ha
    rw [ht', view_modifySymbol Symbol.name rfl, symbol_pushSymbol_of_ne _ ha]
  have hkind : ∀ a, a ≠ t.symbols.size → (t'.symbol a).isNamespace = (t.symbol a).isNamespace := by
    intro a ha
    rw [ht', view_modifySymbol Symbol.isNamespace rfl, symbol_pushSymbol_of_ne _ ha]
  have hself : (t'.symbol b).members = (t.symbol b).members ++ [t.symbols.size] := by
    rw [ht', symbol_modifySymbol_self (by simpa using Nat.lt_succ_of_lt hlt),
      symbol_pushSymbol_of_ne _ hne]
  have hothers : ∀ d, d ≠ b → d ≠ t.symbols.size → t'.symbol d = t.symbol d := by
    intro d hd hds
    rw [ht', symbol_modifySymbol_of_ne hd, symbol_pushSymbol_of_ne _ hds]
  have hlinked : ∀ c, ∀ a ∈ (t.scope c).symbols, (t'.symbol a).name = (t.symbol a).name :=
    fun c a ha => hname a (Nat.ne_of_lt (h.wellFormed.linked c a ha).1)
  have hmember : ∀ d, ∀ a ∈ (t.symbol d).members, (t'.symbol a).name = (t.symbol a).name :=
    fun d a ha => hname a (Nat.ne_of_lt (h.wellFormed.members d a ha).1)
  have hscope : ∀ c, t'.scope c = t.scope c := fun c => by
    rw [ht', scope_modifySymbol, scope_pushSymbol]
  have hti : t'.inner = t.inner := by rw [ht', inner_modifySymbol, inner_pushSymbol]
  refine ⟨ht' ▸ h.wellFormed.enlist hmembers, by rw [hsize, ← h.next]; rfl, ?_, ?_, fun d => ?_,
    fun d ms' hd => ?_, fun c => ?_, fun d => ?_, ?_, by rw [hscope, h.root]⟩
  · rw [hti]
    exact h.inner.imp fun c m hc => by
      rw [hscope]
      exact hc.congr (hlinked c)
  · rw [hscope]
    exact h.global.congr (hlinked _)
  · show d ∈ s.spaces.insert b (ms.insert sym.name s.next) ↔ _
    rw [Finmap.mem_insert, h.spaces, hsize]
    by_cases hds : d = t.symbols.size
    · rw [hds, hnew, hspace]
      simpa using Ne.symm hne
    · rw [hkind d hds]
      constructor
      · rintro (rfl | ⟨hd, hk⟩)
        · exact ⟨Nat.lt_succ_of_lt hlt, ((h.spaces d).1 (Finmap.mem_of_lookup_eq_some hb)).2⟩
        · exact ⟨Nat.lt_succ_of_lt hd, hk⟩
      · rintro ⟨hd, hk⟩
        exact .inr ⟨Nat.lt_of_le_of_ne (Nat.le_of_lt_succ hd) hds, hk⟩
  · have hd : (s.spaces.insert b (ms.insert sym.name s.next)).lookup d = some ms' := hd
    by_cases hdb : d = b
    · subst hdb
      rw [Finmap.lookup_insert] at hd
      cases hd
      rw [hself, h.next]
      exact ((h.members d ms hb).congr (hmember d)).snoc hfree (by rw [hnew])
    · rw [Finmap.lookup_insert_of_ne _ hdb] at hd
      have hds := Nat.ne_of_lt ((h.spaces d).1 (Finmap.mem_of_lookup_eq_some hd)).1
      rw [hothers d hdb hds]
      exact (h.members d ms' hd).congr (hmember d)
  · rw [hscope, namesOf_congr (hlinked c)]
    exact h.names c
  · by_cases hdb : d = b
    · subst hdb
      rw [hself]
      refine nodup_namesOf_snoc ?_ ?_
      · rw [namesOf_congr (hmember d)]
        exact h.memberNames d
      · rwa [namesOf_congr (hmember d), hnew, ← (h.members d ms hb).mem_iff]
    · by_cases hds : d = t.symbols.size
      · rw [hds, hnew, hmembers]
        exact List.nodup_nil
      · rw [hothers d hdb hds, namesOf_congr (hmember d)]
        exact h.memberNames d
  · rw [Table.open_, hti]
    exact h.parents.imp fun d e hd => by rw [hscope, hd]

/-- A member of a namespace that is not there is not declared, on both sides. -/
theorem addToNamespace (space name : String) (type : Ty) :
    (((t.addToNamespace space name type).map Prod.fst).getD t).Refines
      (s.declareMember space name) := by
  unfold Table.addToNamespace ScopeStack.declareMember
  rw [h.findNamespace_eq]
  cases hs : s.space? space with
  | none => exact h
  | some pair =>
    obtain ⟨b, ms⟩ := pair
    simp only [Option.map_some, Option.getD_some]
    rw [h.findMember_eq hs]
    cases hl : ms.lookup name with
    | some a =>
      rw [if_pos (Finmap.mem_of_lookup_eq_some hl)]
      exact h.modifySymbol rfl rfl rfl rfl
    | none =>
      rw [if_neg (Finmap.lookup_eq_none.1 hl)]
      exact h.enlist (.fresh name type .global globalId) rfl rfl rfl
        (ScopeStack.lookup_of_space? hs) (Finmap.lookup_eq_none.1 hl)

/-- The modifiers of a function have nothing to do with names. -/
theorem addFunctionToNamespace (space name : String) (type : Ty) (modifier declared : Modifier) :
    (((t.addFunctionToNamespace space name type modifier declared).map Prod.fst).getD t).Refines
      (s.declareMember space name) := by
  have hadd := h.addToNamespace space name type
  unfold Table.addFunctionToNamespace
  cases ha : t.addToNamespace space name type with
  | none =>
    rw [ha] at hadd
    exact hadd
  | some pair =>
    rw [ha] at hadd
    exact hadd.modifySymbol rfl rfl rfl rfl

/-! ### Names that are taken away -/

/-- A name stands for a namespace exactly when its symbol in the global scope is one. -/
theorem space?_isSome_iff {name : String} {a : SymbolId} (ha : a ∈ (t.scope globalId).symbols)
    (hname : (t.symbol a).name = name) : (s.space? name).isSome ↔ (t.symbol a).isNamespace := by
  have hl : s.global.lookup name = some a := (h.global name a).2 ⟨ha, hname⟩
  rw [ScopeStack.space?, hl, Option.bind_some, Option.isSome_map, Finmap.lookup_isSome, h.spaces]
  exact and_iff_right (h.wellFormed.linked _ a ha).1

/-- Some symbols are taken out of the global scope. -/
theorem unlink {g : Scope → Scope} {m : Bindings}
    (hsub : (g (t.scope globalId)).symbols.Sublist (t.scope globalId).symbols)
    (hp : (g (t.scope globalId)).parent = (t.scope globalId).parent)
    (hl : t.Lists (g (t.scope globalId)).symbols m) :
    (t.modifyScope globalId g).Refines { s with global := m } := by
  have hglobal := scope_modifyScope_self (g := g) h.wellFormed.global_lt
  refine ⟨h.wellFormed.unlink hsub.subset, h.next, ?_, ?_, h.spaces, h.members, fun c => ?_,
    h.memberNames, ?_, by rw [view_modifyScope Scope.parent hp, h.root]⟩
  · refine List.Forall₂.imp ?_ ((List.forall₂_and_left _ _).2
      ⟨fun c hc => h.wellFormed.ne_globalId hc, h.inner⟩)
    rintro c m ⟨hne, hm⟩
    rw [scope_modifyScope_of_ne hne]
    exact hm
  · rw [hglobal]
    exact hl
  · by_cases hc : c = globalId
    · rw [hc, hglobal]
      exact (h.names globalId).sublist (hsub.map _)
    · rw [scope_modifyScope_of_ne hc]
      exact h.names c
  · exact h.parents.imp fun c d hcd => by rw [view_modifyScope Scope.parent hp, hcd]

/-- The last symbol of the name that is no namespace is taken away.  There is at most one of the
name, so it is the whole binding. -/
theorem removeFromGlobal (name : String) :
    (t.removeFromGlobal name).1.Refines (s.remove name) := by
  have hids : (t.scope globalId).symbols.Nodup := (h.names globalId).of_map
  unfold Table.removeFromGlobal ScopeStack.remove
  dsimp only
  split
  · next left hleft =>
    obtain ⟨hsub, b, hb, hmatch, hmem⟩ := eraseLast?_eq_some hids hleft
    rw [Bool.and_eq_true_iff, decide_eq_true_iff] at hmatch
    have hspace : ¬ (s.space? name).isSome := by
      rw [h.space?_isSome_iff hb hmatch.1]
      simpa using hmatch.2
    rw [if_neg hspace]
    refine h.unlink hsub rfl (h.global.erase name fun a => ?_)
    rw [hmem a]
    refine and_congr_right fun ha => not_congr ⟨fun hab => hab ▸ hmatch.1, fun hname => ?_⟩
    -- the map binds the name to one symbol
    have hlookup := (h.global name a).2 ⟨ha, hname⟩
    rw [(h.global name b).2 ⟨hb, hmatch.1⟩] at hlookup
    exact (Option.some.inj hlookup).symm
  · next hnone =>
    have hmatch := eraseLast?_eq_none hnone
    -- if nothing has been taken away, a symbol of the name is a namespace or there is none
    split
    · exact h
    · next hspace =>
      refine { h with global := h.global.erase name fun a => ?_ }
      refine ⟨fun ha => ⟨ha, fun hname => ?_⟩, fun ha => ha.1⟩
      rw [h.space?_isSome_iff ha hname] at hspace
      exact hspace (by simpa [hname] using hmatch a ha)

/-! ### Every sequence of operations -/

/-- One operation does to the table what it does to the stack. -/
theorem apply (op : Operation) : (t.apply op).Refines (s.apply op) := by
  cases op with
  | pushScope => exact h.openScope rfl rfl
  | pushFrame => exact h.openScope rfl rfl
  | popScope => exact h.popScope
  | add name type kind => exact h.add name type kind
  | addQualified name type kind q => exact h.addQualified name type kind q
  | addFunction name type modifier declared => exact h.addFunction name type modifier declared
  | addNamespace name => exact h.addNamespace name
  | addToNamespace space name type => exact h.addToNamespace space name type
  | addFunctionToNamespace space name type modifier declared =>
    exact h.addFunctionToNamespace space name type modifier declared
  | removeFromGlobal name => exact h.removeFromGlobal name

/-- Every sequence of operations does to the table what it does to the stack. -/
theorem run (ops : List Operation) : (t.run ops).Refines (s.run ops) := by
  induction ops generalizing t s with
  | nil => exact h
  | cons op ops ih => exact ih (h.apply op)

end Refines

end Table

end ThreadRegions
