import ThreadRegions.Proofs.Persistence
import ThreadRegions.Proofs.ScopeStack

/-!
# Numbers of scopes and symbols

The number of a scope or of a symbol is noted down in many places: in other scopes, in namespaces,
in what a thread looks at, and in the tree that has been checked.  All of these rely on the table to
keep the number in use for the same thing, whatever it is asked to do afterwards.  The loops that go
from a scope to the scope around it rely on getting to the global scope.

## Main Definitions

* `Request`, `Table.serve`, `Table.serveAll`: what a table can be asked to do, and what it answers
* `Handle`, `Table.Holds`: a number that a table hands out, and whether it is in use
* `Limited.lookup`, `Limited.visibleNames`: the loops along the scopes, with a limit on the rounds
* `Table.Grounded`: the invariant
* `Table.Intact`: what it means for the scopes and for the loops

## Main Results

* `Table.serve_cases`: a request opens one scope inside the current one, or none
* `Table.Grounded.serve`, `Table.Grounded.serveAll`: requests keep the invariant
* `Table.serveAll_intact`: every sequence of requests
-/

namespace ThreadRegions

/-! ### Requests -/

/-- How a symbol is asked to change its part in the threads of a program. -/
inductive Turn where
  | markPending | markSynchronized | rebind | unfreeze

/-- The symbol after it has changed, unless it refuses. -/
def Turn.on : Turn → Symbol → Except ThreadError Symbol
  | markPending => Symbol.markPending
  | markSynchronized => Symbol.markSynchronized
  | rebind => Symbol.rebind
  | unfreeze => Symbol.unfreeze

/-- However a symbol is asked, it changes nothing but its part in threads. -/
theorem Turn.plain_on {how : Turn} {s s' : Symbol} (h : how.on s = .ok s') :
    s'.plain = s.plain := by
  cases how with
  | markPending =>
    change s.markPending = .ok s' at h
    unfold Symbol.markPending at h
    split at h <;> cases h
    rfl
  | markSynchronized =>
    obtain ⟨-, rfl⟩ := Symbol.markSynchronized_eq_ok h
    rfl
  | rebind =>
    change s.rebind = .ok s' at h
    unfold Symbol.rebind at h
    split at h <;> cases h <;> rfl
  | unfreeze =>
    change s.unfreeze = .ok s' at h
    unfold Symbol.unfreeze at h
    split at h <;> cases h
    rfl

/-- What a table can be asked to do. -/
inductive Request where
  | change (op : Operation)
  | alignLocals
  | enterRegion
  | exitRegion
  | turn (how : Turn) (id : SymbolId)
  | freeze (id : SymbolId)
  | setFrozenArgs (id : SymbolId) (args : List SymbolId)
  | sync (name : String)
  | lookup (name : String)
  | lookupCurrent (name : String)
  | lookupIn (space name : String)

/-- A number that a table hands out. -/
inductive Handle where
  | scope (c : ScopeId)
  | symbol (a : SymbolId)
  deriving DecidableEq

namespace Table

/-- The number is in use. -/
def Holds (t : Table) : Handle → Prop
  | .scope c => c < t.scopes.size
  | .symbol a => a < t.symbols.size

/-- The number that an operation answers with. -/
def issued (t : Table) : Operation → Option Handle
  | .pushScope => some (.scope t.pushScope.current)
  | .pushFrame => some (.scope t.pushFrame.current)
  | .popScope | .removeFromGlobal _ => none
  | .add name type kind => some (.symbol (t.add name type kind).2)
  | .addQualified name type kind q => some (.symbol (t.addQualified name type kind q).2)
  | .addFunction name type modifier declared =>
    some (.symbol (t.addFunction name type modifier declared).2)
  | .addNamespace name => (t.addNamespace name).map fun r => .symbol r.2
  | .addToNamespace space name type => (t.addToNamespace space name type).map fun r => .symbol r.2
  | .addFunctionToNamespace space name type modifier declared =>
    (t.addFunctionToNamespace space name type modifier declared).map fun r => .symbol r.2

/-- The table after a request, and the number that the request is answered with.  A request that
fails leaves the table as it is. -/
def serve (t : Table) : Request → Table × Option Handle
  | .change op => (t.apply op, t.issued op)
  | .alignLocals => (t.alignLocals, none)
  | .enterRegion => (t.enterRegion, none)
  | .exitRegion => (t.exitRegion, none)
  | .turn how id => ((t.transition id how.on).toOption.getD t, none)
  | .freeze id => (t.freeze id, none)
  | .setFrozenArgs id args => (t.setFrozenArgs id args, none)
  | .sync name =>
    (((t.syncVariable name).toOption.map Prod.fst).getD t,
      (t.syncVariable name).toOption.map fun r => .symbol r.2)
  | .lookup name => (t, (t.lookup name).map .symbol)
  | .lookupCurrent name => (t, (t.lookupCurrent name).map .symbol)
  | .lookupIn space name => (t, (t.lookupIn space name).map .symbol)

/-- The table after requests, the first one first. -/
def serveAll (t : Table) (rs : List Request) : Table := rs.foldl (fun t r => (t.serve r).1) t

theorem serveAll_cons (t : Table) (r : Request) (rs : List Request) :
    t.serveAll (r :: rs) = (t.serve r).1.serveAll rs := rfl

theorem serveAll_append (t : Table) (rs rs' : List Request) :
    t.serveAll (rs ++ rs') = (t.serveAll rs).serveAll rs' :=
  List.foldl_append

/-! ### What a request does -/

/-- What holds of a table and of the result of an operation holds if the operation fails, too. -/
theorem getD_of {P : Table → Prop} {t : Table} {o : Option (Table × SymbolId)} (ht : P t)
    (ho : ∀ t' id, o = some (t', id) → P t') : P ((o.map Prod.fst).getD t) := by
  cases o with
  | none => exact ht
  | some r => exact ho r.1 r.2 rfl

/-- A symbol that refuses is left as it is. -/
theorem sameButThreads_turn (t : Table) (how : Turn) (id : SymbolId) :
    t.SameButThreads ((t.transition id how.on).toOption.getD t) := by
  cases h : t.transition id how.on with
  | error e => exact .refl t
  | ok t' =>
    obtain ⟨s, hs, rfl⟩ := transition_eq_ok h
    exact .modifySymbol (Turn.plain_on hs)

theorem eq_ok_of_toOption {e : Except ThreadError (Table × SymbolId)} {r : Table × SymbolId}
    (h : e.toOption = some r) : e = .ok r := by
  cases e with
  | error _ => cases h
  | ok _ => cases h; rfl

/-- Waiting for a name that cannot be waited for does nothing. -/
theorem sameButThreads_sync (t : Table) (name : String) :
    t.SameButThreads (((t.syncVariable name).toOption.map Prod.fst).getD t) :=
  getD_of (.refl t) fun _ _ h => sameButThreads_syncVariable (eq_ok_of_toOption h)

/-- A request opens one scope, right inside the current one, or none. -/
theorem serve_cases (t : Table) (r : Request) :
    (∃ s : Scope, s.symbols = [] ∧ s.parent = some t.current ∧
      s.depth = (t.scope t.current).depth + 1 ∧ (t.serve r).1 = t.openScope s) ∨
    t.OpensNone (t.serve r).1 := by
  cases r with
  | change op =>
    cases op with
    | pushScope => exact .inl ⟨_, rfl, rfl, rfl, rfl⟩
    | pushFrame => exact .inl ⟨_, rfl, rfl, rfl, rfl⟩
    | popScope => exact .inr (.popScope t)
    | add name type kind => exact .inr (.add name type kind)
    | addQualified name type kind q => exact .inr (.addQualified name type kind q)
    | addFunction name type modifier declared =>
      exact .inr (.addFunction name type modifier declared)
    | addNamespace name => exact .inr (getD_of (.refl t) fun _ _ => .addNamespace)
    | addToNamespace space name type => exact .inr (getD_of (.refl t) fun _ _ => .addToNamespace)
    | addFunctionToNamespace space name type modifier declared =>
      exact .inr (getD_of (.refl t) fun _ _ => .addFunctionToNamespace)
    | removeFromGlobal name => exact .inr (.removeFromGlobal name)
  | alignLocals => exact .inr (.alignLocals t)
  | enterRegion => exact .inr (.enterRegion t)
  | exitRegion => exact .inr (.exitRegion t)
  | turn how id => exact .inr (.of_sameButThreads (t.sameButThreads_turn how id))
  | freeze id => exact .inr (.modifySymbol rfl)
  | setFrozenArgs id args => exact .inr (.modifySymbol rfl)
  | sync name => exact .inr (.of_sameButThreads (t.sameButThreads_sync name))
  | lookup | lookupCurrent | lookupIn => exact .inr (.refl t)

/-- A request leaves all scopes and symbols as they are. -/
theorem persists_serve (t : Table) (r : Request) : t.Persists (t.serve r).1 := by
  obtain ⟨s, -, -, -, hs⟩ | h := t.serve_cases r
  · rw [hs]
    exact .openScope s
  · exact h.toPersists

theorem persists_serveAll (t : Table) (rs : List Request) : t.Persists (t.serveAll rs) := by
  induction rs generalizing t with
  | nil => exact .refl t
  | cons r rs ih => exact (t.persists_serve r).trans (ih _)

/-- A number that is in use stays in use. -/
theorem Persists.holds {t t' : Table} (h : t.Persists t') {handle : Handle} (hh : t.Holds handle) :
    t'.Holds handle := by
  cases handle with
  | scope c => exact Nat.lt_of_lt_of_le hh h.scopes_le
  | symbol a => exact Nat.lt_of_lt_of_le hh h.symbols_le

theorem eraseLast?_subset {α : Type} {p : α → Bool} {xs left : List α}
    (h : eraseLast? p xs = some left) : left ⊆ xs := by
  unfold eraseLast? at h
  split at h
  · cases h
    intro a ha
    exact List.mem_reverse.1 (List.mem_of_mem_eraseP (List.mem_reverse.1 ha))
  · cases h

namespace WellFormed

variable {t : Table} (h : t.WellFormed)

include h

/-- A symbol that is taken out of the global scope is still in the table. -/
theorem removeFromGlobal (name : String) : (t.removeFromGlobal name).1.WellFormed := by
  unfold Table.removeFromGlobal
  dsimp only
  split
  · next left hleft => exact h.unlink (eraseLast?_subset hleft)
  · exact h

/-- Operations keep tables well-formed, whether they fail or not. -/
theorem apply (op : Operation) : (t.apply op).WellFormed := by
  cases op with
  | pushScope => exact h.pushScope
  | pushFrame => exact h.pushFrame
  | popScope => exact h.popScope
  | add name type kind => exact h.add name type kind
  | addQualified name type kind q => exact h.addQualified name type kind q
  | addFunction name type modifier declared => exact h.addFunction name type modifier declared
  | addNamespace name => exact getD_of h fun _ _ => h.addNamespace
  | addToNamespace space name type => exact getD_of h fun _ _ => h.addToNamespace
  | addFunctionToNamespace space name type modifier declared =>
    exact getD_of h fun _ _ => h.addFunctionToNamespace
  | removeFromGlobal name => exact h.removeFromGlobal name

theorem serve (r : Request) : (t.serve r).1.WellFormed := by
  cases r with
  | change op => exact h.apply op
  | alignLocals => exact h.alignLocals
  | enterRegion => exact h.enterRegion
  | exitRegion => exact h.exitRegion
  | turn how id => exact (t.sameButThreads_turn how id).wellFormed h
  | freeze id => exact h.modifySymbol rfl rfl
  | setFrozenArgs id args => exact h.modifySymbol rfl rfl
  | sync name => exact (t.sameButThreads_sync name).wellFormed h
  | lookup | lookupCurrent | lookupIn => exact h

/-! ### Numbers that are handed out -/

/-- A declaration answers with a new number, or with that of the symbol which had the name. -/
theorem add_lt (name : String) (type : Ty) (kind : SymbolKind) :
    (t.add name type kind).2 < (t.add name type kind).1.symbols.size := by
  unfold Table.add
  split
  · next a ha =>
    rw [Table.setType, size_modifySymbol]
    exact h.lookupCurrent_lt ha
  · exact Nat.lt_of_lt_of_eq (Nat.lt_succ_self _) (size_pushSymbol ..).symm

theorem addToNamespace_lt {space name : String} {type : Ty} {t' : Table} {id : SymbolId}
    (ha : t.addToNamespace space name type = some (t', id)) : id < t'.symbols.size := by
  obtain ⟨b, -, hb⟩ := Option.map_eq_some_iff.1 ha
  -- the namespace may have had a member of that name
  split at hb
  · next a hm =>
    cases hb
    rw [Table.setType, size_modifySymbol]
    exact (h.members b _ (List.mem_of_find?_eq_some hm)).1
  · cases hb
    simp

omit h in
theorem addNamespace_lt {name : String} {t' : Table} {id : SymbolId}
    (ha : t.addNamespace name = some (t', id)) : id < t'.symbols.size := by
  obtain ⟨-, rfl, rfl⟩ := addNamespace_eq_some ha
  simp

theorem addFunctionToNamespace_lt {space name : String} {type : Ty} {modifier declared : Modifier}
    {t' : Table} {id : SymbolId}
    (ha : t.addFunctionToNamespace space name type modifier declared = some (t', id)) :
    id < t'.symbols.size := by
  obtain ⟨⟨t₁, a⟩, hadd, hb⟩ := Option.map_eq_some_iff.1 ha
  cases hb
  rw [Table.setFunction, size_modifySymbol]
  exact h.addToNamespace_lt hadd

omit h in
/-- An operation that may fail answers with a number of the table that it leaves. -/
theorem holds_of_map {o : Option (Table × SymbolId)} {handle : Handle}
    (ho : ∀ t' id, o = some (t', id) → id < t'.symbols.size)
    (hh : (o.map fun r => Handle.symbol r.2) = some handle) :
    ((o.map Prod.fst).getD t).Holds handle := by
  obtain ⟨r, rfl, rfl⟩ := Option.map_eq_some_iff.1 hh
  exact ho r.1 r.2 rfl

/-- An operation answers with a number of the table that it leaves. -/
theorem issued_holds {op : Operation} {handle : Handle} (hh : t.issued op = some handle) :
    (t.apply op).Holds handle := by
  cases op with
  | pushScope =>
    cases hh
    exact h.pushScope.current_lt
  | pushFrame =>
    cases hh
    exact h.pushFrame.current_lt
  | popScope | removeFromGlobal => cases hh
  | add name type kind =>
    cases hh
    exact h.add_lt name type kind
  | addQualified name type kind q =>
    cases hh
    exact Nat.lt_of_lt_of_eq (h.add_lt name type kind) (size_modifySymbol ..).symm
  | addFunction name type modifier declared =>
    cases hh
    exact Nat.lt_of_lt_of_eq (h.add_lt name type _) (size_modifySymbol ..).symm
  | addNamespace name => exact holds_of_map (fun _ _ => addNamespace_lt) hh
  | addToNamespace space name type => exact holds_of_map (fun _ _ => h.addToNamespace_lt) hh
  | addFunctionToNamespace space name type modifier declared =>
    exact holds_of_map (fun _ _ => h.addFunctionToNamespace_lt) hh

theorem serve_holds {r : Request} {handle : Handle} (hh : (t.serve r).2 = some handle) :
    (t.serve r).1.Holds handle := by
  cases r with
  | change op => exact h.issued_holds hh
  | alignLocals | enterRegion | exitRegion | turn | freeze | setFrozenArgs => cases hh
  | sync name =>
    refine holds_of_map (fun t' id hv => ?_) hh
    have hok := eq_ok_of_toOption hv
    rw [(sameButThreads_syncVariable hok).size]
    exact h.lookup_lt (syncVariable_eq_ok hok).1
  | lookup name =>
    obtain ⟨a, ha, rfl⟩ := Option.map_eq_some_iff.1 hh
    exact h.lookup_lt ha
  | lookupCurrent name =>
    obtain ⟨a, ha, rfl⟩ := Option.map_eq_some_iff.1 hh
    exact h.lookupCurrent_lt ha
  | lookupIn space name =>
    obtain ⟨a, ha, rfl⟩ := Option.map_eq_some_iff.1 hh
    obtain ⟨b, -, hb⟩ := Option.bind_eq_some_iff.1 ha
    exact (h.members b a (List.mem_of_find?_eq_some hb)).1

end WellFormed

/-! ### The scopes -/

/-- The global scope is around all others, and the open scopes lie in each other. -/
structure Grounded (t : Table) : Prop where
  wellFormed : t.WellFormed
  parent_global : (t.scope globalId).parent = none
  depth_global : (t.scope globalId).depth = 0
  parent : ∀ c, c < t.scopes.size → c ≠ globalId → ∃ p, (t.scope c).parent = some p ∧ p < c ∧
    (t.scope c).depth = (t.scope p).depth + 1
  chain : t.open_.IsChain fun c d => (t.scope c).parent = some d

theorem Persists.parent_eq {t t' : Table} (h : t.Persists t') {c : ScopeId}
    (hc : c < t.scopes.size) : (t'.scope c).parent = (t.scope c).parent :=
  congrArg Prod.fst (h.scope c hc)

theorem Persists.depth_eq {t t' : Table} (h : t.Persists t') {c : ScopeId}
    (hc : c < t.scopes.size) : (t'.scope c).depth = (t.scope c).depth :=
  congrArg (fun p => p.2.1) (h.scope c hc)

/-- At the beginning there is the global scope and no other. -/
theorem grounded_empty : empty.Grounded where
  wellFormed := wellFormed_empty
  parent_global := rfl
  depth_global := rfl
  parent _ hc hne := absurd (Nat.lt_one_iff.1 hc) hne
  chain := .singleton _

namespace Grounded

variable {t t' : Table} (h : t.Grounded)

include h

/-- The scope around a scope is where it was. -/
theorem parent_of_persists (hp : t.Persists t') {c : ScopeId} (hc : c < t.scopes.size)
    (hne : c ≠ globalId) : ∃ p, (t'.scope c).parent = some p ∧ p < c ∧
      (t'.scope c).depth = (t'.scope p).depth + 1 := by
  obtain ⟨p, hparent, hlt, hdepth⟩ := h.parent c hc hne
  refine ⟨p, (hp.parent_eq hc).trans hparent, hlt, ?_⟩
  rw [hp.depth_eq hc, hp.depth_eq (Nat.lt_trans hlt hc), hdepth]

/-- The open scopes still link to each other. -/
theorem chain_of_persists (hp : t.Persists t') :
    t.open_.IsChain fun c d => (t'.scope c).parent = some d :=
  h.chain.imp_of_mem_imp fun _ _ hc _ hcd => (hp.parent_eq (h.wellFormed.open_lt hc)).trans hcd

/-- A new scope lies on the next level, inside of the current one. -/
theorem openScope {s : Scope} (hs : s.symbols = []) (hparent : s.parent = some t.current)
    (hdepth : s.depth = (t.scope t.current).depth + 1) : (t.openScope s).Grounded := by
  have hp : t.Persists (t.openScope s) := .openScope s
  have hglobal := h.wellFormed.global_lt
  refine ⟨h.wellFormed.openScope hs, (hp.parent_eq hglobal).trans h.parent_global,
    (hp.depth_eq hglobal).trans h.depth_global, fun c hc hne => ?_, ?_⟩
  · rw [size_openScope] at hc
    -- only the new scope has a link that was not there before
    rcases Nat.lt_or_eq_of_le (Nat.le_of_lt_succ hc) with hold | rfl
    · exact h.parent_of_persists hp hold hne
    · refine ⟨t.current, ?_, h.wellFormed.current_lt, ?_⟩
      · rw [scope_openScope_self, hparent]
      · rw [scope_openScope_self, hdepth, hp.depth_eq h.wellFormed.current_lt]
  · have hchain := h.chain_of_persists hp
    show List.IsChain _ (t.scopes.size :: t.open_)
    rw [open_eq_cons] at hchain ⊢
    exact .cons_cons (by rw [scope_openScope_self, hparent]) hchain

/-- Where no scope is opened, some of the open ones may have been left. -/
theorem of_opensNone (ho : t.OpensNone t') (hw : t'.WellFormed) : t'.Grounded where
  wellFormed := hw
  parent_global := (ho.parent_eq h.wellFormed.global_lt).trans h.parent_global
  depth_global := (ho.depth_eq h.wellFormed.global_lt).trans h.depth_global
  parent c hc hne := h.parent_of_persists ho.toPersists (ho.scopes_eq ▸ hc) hne
  chain := by
    have hopen : t'.open_ <:+ t.open_ := List.suffix_append_self_iff.2 ho.inner_suffix
    exact (h.chain_of_persists ho.toPersists).suffix hopen

theorem serve (r : Request) : (t.serve r).1.Grounded := by
  obtain ⟨s, hs, hparent, hdepth, heq⟩ | ho := t.serve_cases r
  · rw [heq]
    exact h.openScope hs hparent hdepth
  · exact h.of_opensNone ho (h.wellFormed.serve r)

theorem serveAll (rs : List Request) : (t.serveAll rs).Grounded := by
  induction rs generalizing t with
  | nil => exact h
  | cons r rs ih => exact ih (h.serve r)

end Grounded

end Table

/-! ### Going outward -/

namespace Limited

/-- Looks for a name in a scope and in those around it, for a limited number of rounds.  Without a
limit this would be a loop that follows links. -/
def lookupFrom (t : Table) (name : String) : Nat → Option ScopeId → Option (Option SymbolId)
  | 0, _ => none
  | _ + 1, none => some none
  | rounds + 1, some c =>
    match t.findIn c name with
    | some a => some (some a)
    | none => lookupFrom t name rounds (t.scope c).parent

/-- Collects the names of a scope and of those around it, for a limited number of rounds. -/
def namesFrom (t : Table) (found : List String) : Nat → Option ScopeId → Option (List String)
  | 0, _ => none
  | _ + 1, none => some found
  | rounds + 1, some c =>
    namesFrom t (found ++ (t.scope c).symbols.reverse.map fun id => (t.symbol id).name) rounds
      (t.scope c).parent

/-- The symbol of a name, if the scopes are gone through in the given number of rounds. -/
def lookup (rounds : Nat) (t : Table) (name : String) : Option (Option SymbolId) :=
  lookupFrom t name rounds (some t.current)

/-- The names that can be used, if the scopes are gone through in the given number of rounds. -/
def visibleNames (rounds : Nat) (t : Table) : Option (List String) :=
  namesFrom t [] rounds (some t.current)

end Limited

namespace Table

/-- The scopes on the way from a scope outward, until there is no scope around. -/
inductive Outward (t : Table) : Option ScopeId → List ScopeId → Prop
  | done : t.Outward none []
  | step {c : ScopeId} {around : Option ScopeId} {cs : List ScopeId} :
      (t.scope c).parent = around → t.Outward around cs → t.Outward (some c) (c :: cs)

namespace Outward

variable {t : Table} {start : Option ScopeId} {cs : List ScopeId} {rounds : Nat}

/-- With enough rounds, the loop finds what is found in the scopes on its way. -/
theorem lookupFrom_eq (h : t.Outward start cs) (name : String) (hr : cs.length < rounds) :
    Limited.lookupFrom t name rounds start = some (cs.findSome? fun c => t.findIn c name) := by
  -- one round for each scope on the way, and one for its end
  induction h generalizing rounds with
  | done =>
    obtain ⟨rounds, rfl⟩ := Nat.exists_eq_add_one_of_ne_zero (Nat.ne_of_gt hr)
    rfl
  | @step c around cs hparent _ ih =>
    obtain ⟨rounds, rfl⟩ := Nat.exists_eq_add_one_of_ne_zero (Nat.ne_of_gt (Nat.zero_lt_of_lt hr))
    rw [Limited.lookupFrom, List.findSome?_cons, hparent]
    cases t.findIn c name with
    | some a => rfl
    | none => exact ih (Nat.lt_of_succ_lt_succ hr)

/-- With enough rounds, the loop collects the names of the scopes on its way. -/
theorem namesFrom_eq (h : t.Outward start cs) (found : List String) (hr : cs.length < rounds) :
    Limited.namesFrom t found rounds start = some (found ++
      cs.flatMap fun c => (t.scope c).symbols.reverse.map fun id => (t.symbol id).name) := by
  induction h generalizing rounds found with
  | done =>
    obtain ⟨rounds, rfl⟩ := Nat.exists_eq_add_one_of_ne_zero (Nat.ne_of_gt hr)
    rw [Limited.namesFrom, List.flatMap_nil, List.append_nil]
  | @step c around cs hparent _ ih =>
    obtain ⟨rounds, rfl⟩ := Nat.exists_eq_add_one_of_ne_zero (Nat.ne_of_gt (Nat.zero_lt_of_lt hr))
    rw [Limited.namesFrom, hparent, ih _ (Nat.lt_of_succ_lt_succ hr), List.flatMap_cons,
      List.append_assoc]

end Outward

namespace Grounded

variable {t : Table} (h : t.Grounded)

include h

/-- From the current scope outward there are the open scopes. -/
theorem outward : t.Outward (some t.current) t.open_ := by
  have hchain := h.chain
  unfold current open_ at *
  generalize t.inner = inner at *
  -- the links of the open scopes lead from each one to the next
  induction inner with
  | nil => exact .step h.parent_global .done
  | cons c inner ih =>
    have hparent : (t.scope c).parent = some (inner.headD globalId) := by
      cases inner <;> exact (List.isChain_cons_cons.1 hchain).1
    exact .step hparent (ih hchain.tail)

/-- The depth of a scope is the number of scopes around it. -/
theorem length_outward {start : Option ScopeId} {cs : List ScopeId} (ho : t.Outward start cs)
    {c : ScopeId} (hs : start = some c) (hc : c < t.scopes.size) :
    cs.length = (t.scope c).depth + 1 := by
  induction ho generalizing c with
  | done => cases hs
  | @step c around cs hparent ho ih =>
    cases hs
    -- the way ends at the global scope, and there only
    by_cases hg : c = globalId
    · rw [hg, h.parent_global] at hparent
      subst hparent
      cases ho
      rw [hg, h.depth_global]
      rfl
    · obtain ⟨p, hp, hlt, hdepth⟩ := h.parent c hc hg
      rw [List.length_cons, ih (hparent.symm.trans hp) (Nat.lt_trans hlt hc), hdepth]

end Grounded

/-! ### All requests -/

/-- The scopes are a tree with the global scope at its root, and the loops from the current scope
outward come to an end. -/
structure Intact (t : Table) : Prop where
  /-- The current scope is there. -/
  current_lt : t.current < t.scopes.size
  /-- The global scope lies in no other one, -/
  global : (t.scope globalId).parent = none ∧ (t.scope globalId).depth = 0
  /-- and every other scope lies in an earlier one, on the next level. -/
  parent : ∀ c, c < t.scopes.size → c ≠ globalId → ∃ p, (t.scope c).parent = some p ∧ p < c ∧
    (t.scope c).depth = (t.scope p).depth + 1
  /-- There is a round for each scope and one more. -/
  lookup : ∀ rounds, (t.scope t.current).depth + 1 < rounds →
    ∀ name, Limited.lookup rounds t name = some (t.lookup name)
  visibleNames : ∀ rounds, (t.scope t.current).depth + 1 < rounds →
    Limited.visibleNames rounds t = some t.visibleNames

/-- The invariant gives the number of scopes on the way, and so the number of rounds that is enough.
-/
theorem Grounded.intact {t : Table} (h : t.Grounded) : t.Intact := by
  have hlength := h.length_outward h.outward rfl h.wellFormed.current_lt
  exact
    { current_lt := h.wellFormed.current_lt
      global := ⟨h.parent_global, h.depth_global⟩
      parent := h.parent
      lookup := fun rounds hr name => h.outward.lookupFrom_eq name (hlength ▸ hr)
      visibleNames := fun rounds hr => h.outward.namesFrom_eq [] (hlength ▸ hr) }

/-- Whatever a table has been asked to do, its scopes are a tree and its loops come to an end.
Whatever it is asked to do afterwards, its numbers stand for the same scopes and symbols, and a
number that it has answered with is in use. -/
theorem serveAll_intact (before after : List Request) :
    (empty.serveAll before).Intact ∧
      (empty.serveAll before).Persists (empty.serveAll (before ++ after)) ∧
      ∀ r handle, ((empty.serveAll before).serve r).2 = some handle →
        (empty.serveAll (before ++ r :: after)).Holds handle := by
  have hg := grounded_empty.serveAll before
  refine ⟨hg.intact, ?_, fun r handle hr => ?_⟩
  · rw [serveAll_append]
    exact persists_serveAll _ after
  · rw [serveAll_append, serveAll_cons]
    exact (persists_serveAll _ after).holds (hg.wellFormed.serve_holds hr)

namespace Sample

/-- A namespace with a member, and a thread handle around the current scope. -/
def started : List Request :=
  [.change (.addNamespace "m"), .change (.addToNamespace "m" "f" .int), .change .pushFrame,
    .change (.add "h" .int .local_), .turn .markPending 2, .enterRegion, .change .pushScope]

/-- The handle is hidden by another variable, and then all scopes are left. -/
def finished : List Request :=
  [.change (.add "h" .str .local_), .change .popScope, .turn .rebind 2, .change .popScope,
    .change (.removeFromGlobal "h"), .change .popScope]

end Sample

/-- The number of the handle is still in use after its scope has been left. -/
theorem serveAll_intact_finished :
    ((empty.serveAll Sample.started).serve (.sync "h")).2 = some (.symbol 2) ∧
      (empty.serveAll (Sample.started ++ .sync "h" :: Sample.finished)).Holds (.symbol 2) ∧
      (empty.serveAll Sample.started).current = 2 ∧
      Limited.lookup 4 (empty.serveAll Sample.started) "m" = some (some 0) := by
  have hsync : ((empty.serveAll Sample.started).serve (.sync "h")).2 = some (.symbol 2) := by
    decide +kernel
  obtain ⟨hintact, -, hholds⟩ := serveAll_intact Sample.started Sample.finished
  refine ⟨hsync, hholds _ _ hsync, by decide +kernel, ?_⟩
  rw [hintact.lookup 4 (by decide +kernel)]
  decide +kernel

end Table

end ThreadRegions
