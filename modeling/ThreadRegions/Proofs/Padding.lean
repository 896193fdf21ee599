import Mathlib.Data.List.Basic
import ThreadRegions.Proofs.Likeness
import ThreadRegions.Proofs.WellFormed

/-!
# Symbols and scopes that are out of reach

Scopes are numbered and never removed, and neither are their symbols.  So the table after a block
holds symbols and scopes that nothing refers to any more, and all that comes later gets a higher
number than without the block.  Two such tables are compared here: the second one has some numbers
that the first one has not.

## Main Definitions

* `skip`: the numbers that are left when some have been taken
* `Symbol.Counterpart`: a symbol and the same symbol with other numbers
* `Table.Padded`: a table, and the same table with symbols and scopes out of reach

## Main Results

* `Table.Padded.like`: the rules cannot tell the tables apart
* `Table.renumbering_padded`: no operation makes a difference
-/

namespace ThreadRegions

/-- The number that `id` becomes when `k` numbers are taken from `n` on. -/
def skip (n k id : Nat) : Nat := if id < n then id else id + k

section

variable {n k : Nat}

/-- Numbers below those that have been taken stay. -/
theorem skip_of_lt {id : Nat} (h : id < n) : skip n k id = id := if_pos h

theorem skip_of_le {id : Nat} (h : n ≤ id) : skip n k id = id + k := if_neg (Nat.not_lt.2 h)

/-- No two symbols get one number. -/
theorem skip_injective : Function.Injective (skip n k) := by
  intro a b h
  unfold skip at h
  split at h <;> split at h <;> omega

/-- A number stands for a symbol of the first table exactly when its counterpart stands for one of
the second. -/
theorem skip_lt_iff {a size : Nat} (h : n ≤ size) : skip n k a < size + k ↔ a < size := by
  unfold skip
  split <;> omega

theorem map_skip {ids : List Nat} (h : ∀ id ∈ ids, id < n) : ids.map (skip n k) = ids :=
  (List.map_congr_left fun id hid => skip_of_lt (h id hid)).trans (List.map_id ids)

end

/-- All that the rules ask of a symbol is the same, and it refers to other symbols by the numbers
that `number` gives them. -/
structure Symbol.Counterpart (number : SymbolId → SymbolId) (s s' : Symbol) : Prop
    extends s.Like s' where
  frozenArgs : s'.frozenArgs = s.frozenArgs.map number
  members : s'.members = s.members.map number

namespace Table

/-- The answers are the same error, or symbols that are counterparts. -/
abbrev BothParts (number : SymbolId → SymbolId) : Except ThreadError Symbol →
    Except ThreadError Symbol → Prop :=
  Both (Symbol.Counterpart number)

section Threads

variable {number : SymbolId → SymbolId} {s s' : Symbol}

/-- Only a thread that is running can be waited for, on both sides. -/
theorem counterpart_markSynchronized (h : s.Counterpart number s') :
    BothParts number s.markSynchronized s'.markSynchronized := by
  unfold Symbol.markSynchronized
  rw [h.state]
  cases s.state with
  | normal => exact .error _
  | pending => exact .ok { h with state := rfl }
  | synchronized => exact .error _

/-- Only a variable that stands for no thread can begin to stand for one. -/
theorem counterpart_markPending (h : s.Counterpart number s') :
    BothParts number s.markPending s'.markPending := by
  unfold Symbol.markPending
  rw [h.state]
  cases s.state with
  | normal => exact .ok { h with state := rfl }
  | pending => exact .error _
  | synchronized => exact .error _

/-- A variable whose thread has been waited for is made ready first, which forgets the arguments
that were frozen. -/
theorem counterpart_bind (h : s.Counterpart number s') :
    BothParts number (s.rebind.bind Symbol.markPending) (s'.rebind.bind Symbol.markPending) := by
  unfold Symbol.rebind
  rw [h.state]
  cases s.state with
  | normal => exact counterpart_markPending h
  | pending => exact .error _
  | synchronized =>
    have hready : Symbol.Counterpart number { s with state := .normal, frozenArgs := [] }
        { s' with state := .normal, frozenArgs := [] } := { h with state := rfl, frozenArgs := rfl }
    exact counterpart_markPending hready

/-- A symbol is released once less than it has been frozen. -/
theorem counterpart_unfreeze (h : s.Counterpart number s') :
    BothParts number s.unfreeze s'.unfreeze := by
  unfold Symbol.unfreeze
  rw [h.freezeCount]
  split
  · exact .error _
  · exact .ok { h with freezeCount := rfl }

end Threads

/-- The second table is the first one with `k` symbols from `n` on and `d` scopes from `m` on that
nothing refers to. -/
structure Padded (n k m d : Nat) (t t' : Table) : Prop where
  pos : 0 < m
  symbols_le : n ≤ t.symbols.size
  scopes_le : m ≤ t.scopes.size
  symbols_size : t'.symbols.size = t.symbols.size + k
  scopes_size : t'.scopes.size = t.scopes.size + d
  open_lt : ∀ c ∈ t.open_, c < t.scopes.size
  inner : t'.inner = t.inner.map (skip m d)
  region : t'.region = t.region
  symbol : ∀ id, (t.symbol id).Counterpart (skip n k) (t'.symbol (skip n k id))
  listed : ∀ c ∈ t.open_, (t'.scope (skip m d c)).symbols = (t.scope c).symbols.map (skip n k)

namespace Padded

variable {n k m d : Nat} {t t' : Table}

/-! ### What the rules ask -/

section

variable (h : t.Padded n k m d t')

include h

/-- The global scope has the first number, so it stays. -/
theorem global_eq : skip m d globalId = globalId := skip_of_lt h.pos

/-- The same scopes are open, under other numbers. -/
theorem open_eq : t'.open_ = t.open_.map (skip m d) := by
  rw [open_, h.inner, open_, List.map_append, List.map_singleton, h.global_eq]

theorem current_eq : t'.current = skip m d t.current := by
  rw [current, h.inner, current]
  cases t.inner with
  | nil => exact h.global_eq.symm
  | cons c outer => rfl

/-- The next symbol gets the number of its counterpart. -/
theorem next_eq : skip n k t.symbols.size = t'.symbols.size := by
  rw [skip_of_le h.symbols_le, h.symbols_size]

/-- The next scope gets the number of its counterpart. -/
theorem nextScope_eq : skip m d t.scopes.size = t'.scopes.size := by
  rw [skip_of_le h.scopes_le, h.scopes_size]

theorem name_eq (id : SymbolId) : (t'.symbol (skip n k id)).name = (t.symbol id).name :=
  (h.symbol id).name

theorem find?_map (ids : List SymbolId) (name : String) :
    (ids.map (skip n k)).find? (fun id => (t'.symbol id).name = name) =
      (ids.find? fun id => (t.symbol id).name = name).map (skip n k) := by
  rw [List.find?_map]
  congr 2
  funext id
  rw [Function.comp_apply, h.name_eq]

theorem findIn_eq {c : ScopeId} (hc : c ∈ t.open_) (name : String) :
    t'.findIn (skip m d c) name = (t.findIn c name).map (skip n k) := by
  unfold findIn findLast
  rw [h.listed c hc, ← List.map_reverse]
  exact h.find?_map _ name

theorem findSome?_eq {scopes : List ScopeId} (hs : ∀ c ∈ scopes, c ∈ t.open_) (name : String) :
    (scopes.map (skip m d)).findSome? (fun c => t'.findIn c name) =
      (scopes.findSome? fun c => t.findIn c name).map (skip n k) := by
  induction scopes with
  | nil => rfl
  | cons c others ih =>
    obtain ⟨hc, hothers⟩ := List.forall_mem_cons.1 hs
    rw [List.map_cons, List.findSome?_cons, List.findSome?_cons, h.findIn_eq hc, ih hothers]
    cases t.findIn c name <;> rfl

/-- A name stands for the counterpart of what it stands for in the first table. -/
theorem lookup_eq (name : String) : t'.lookup name = (t.lookup name).map (skip n k) := by
  unfold lookup
  rw [h.open_eq]
  exact h.findSome?_eq (fun _ hc => hc) name

theorem lookupCurrent_eq (name : String) :
    t'.lookupCurrent name = (t.lookupCurrent name).map (skip n k) := by
  rw [lookupCurrent, h.current_eq]
  exact h.findIn_eq t.current_mem_open name

/-- The global scope is open all the time. -/
theorem global_listed :
    (t'.scope globalId).symbols = (t.scope globalId).symbols.map (skip n k) := by
  have hlisted := h.listed globalId (List.mem_append_right _ (List.mem_singleton_self _))
  rwa [h.global_eq] at hlisted

/-- Namespaces are found in the global scope, so they are counterparts too. -/
theorem findNamespace_eq (name : String) :
    t'.findNamespace name = (t.findNamespace name).map (skip n k) := by
  unfold findNamespace
  rw [h.global_listed, List.find?_map]
  congr 2
  funext id
  rw [Function.comp_apply, (h.symbol id).isNamespace, h.name_eq]

/-- A namespace refers to its members by their numbers. -/
theorem findMember_eq (space : SymbolId) (name : String) :
    t'.findMember (skip n k space) name = (t.findMember space name).map (skip n k) := by
  unfold findMember
  rw [(h.symbol space).members]
  exact h.find?_map _ name

/-- The rules cannot tell the tables apart. -/
theorem like : t.Like (skip n k) t' where
  region := h.region
  isGlobal := by
    rw [isGlobal, h.inner, List.isEmpty_map, isGlobal]
  symbol id := (h.symbol id).toLike
  lookup := h.lookup_eq
  lookupCurrent := h.lookupCurrent_eq
  lookupIn space name := by
    unfold lookupIn
    rw [h.findNamespace_eq]
    cases t.findNamespace space with
    | none => rfl
    | some id => exact h.findMember_eq id name
  isNamespace name := by
    rw [isNamespace, h.findNamespace_eq, Option.isSome_map, isNamespace]
  memberNames id := by
    unfold memberNames
    rw [(h.symbol id).members, List.map_map]
    exact List.map_congr_left fun a _ => h.name_eq a
  visibleNames := by
    unfold visibleNames
    rw [h.open_eq, List.flatMap_map]
    refine List.flatMap_congr fun c hc => ?_
    rw [h.listed c hc, ← List.map_reverse, List.map_map]
    exact List.map_congr_left fun a _ => h.name_eq a

end

/-! ### What the operations do -/

theorem modifySymbol (h : t.Padded n k m d t') {id : SymbolId} {f f' : Symbol → Symbol}
    (hf : (f (t.symbol id)).Counterpart (skip n k) (f' (t'.symbol (skip n k id)))) :
    (t.modifySymbol id f).Padded n k m d (t'.modifySymbol (skip n k id) f') where
  pos := h.pos
  symbols_le := by simpa using h.symbols_le
  scopes_le := h.scopes_le
  symbols_size := by simpa using h.symbols_size
  scopes_size := h.scopes_size
  open_lt := h.open_lt
  inner := h.inner
  region := h.region
  symbol a := by
    by_cases ha : a = id
    · subst ha
      by_cases hlt : a < t.symbols.size
      · have hlt' : skip n k a < t'.symbols.size := by
          rw [h.symbols_size]
          exact (skip_lt_iff h.symbols_le).2 hlt
        rwa [symbol_modifySymbol_self hlt, symbol_modifySymbol_self hlt']
      · -- there is no such symbol, and so nothing is changed
        have hle : t.symbols.size ≤ a := Nat.le_of_not_lt hlt
        have hle' : t'.symbols.size ≤ skip n k a := by
          rw [h.symbols_size]
          exact Nat.le_of_not_lt fun hlt' => hlt ((skip_lt_iff h.symbols_le).1 hlt')
        have hsame := h.symbol a
        rw [symbol_of_size_le hle, symbol_of_size_le hle'] at hsame
        rwa [symbol_of_size_le (by simpa using hle), symbol_of_size_le (by simpa using hle')]
    · rw [symbol_modifySymbol_of_ne ha,
        symbol_modifySymbol_of_ne fun heq => ha (skip_injective heq)]
      exact h.symbol a
  listed := h.listed

theorem modifyScope (h : t.Padded n k m d t') {c : ScopeId} (hc : c ∈ t.open_)
    {g g' : Scope → Scope}
    (hg : (g' (t'.scope (skip m d c))).symbols = (g (t.scope c)).symbols.map (skip n k)) :
    (t.modifyScope c g).Padded n k m d (t'.modifyScope (skip m d c) g') where
  pos := h.pos
  symbols_le := h.symbols_le
  scopes_le := by simpa using h.scopes_le
  symbols_size := h.symbols_size
  scopes_size := by simpa using h.scopes_size
  open_lt a ha := by simpa using h.open_lt a ha
  inner := h.inner
  region := h.region
  symbol := h.symbol
  listed a ha := by
    by_cases hac : a = c
    · subst hac
      have hlt : a < t.scopes.size := h.open_lt a hc
      have hlt' : skip m d a < t'.scopes.size := by
        rw [h.scopes_size]
        exact (skip_lt_iff h.scopes_le).2 hlt
      rwa [scope_modifyScope_self hlt, scope_modifyScope_self hlt']
    · rw [scope_modifyScope_of_ne hac,
        scope_modifyScope_of_ne fun heq => hac (skip_injective heq)]
      exact h.listed a ha

theorem pushSymbol (h : t.Padded n k m d t') {s s' : Symbol}
    (hs : s.Counterpart (skip n k) s') :
    (t.pushSymbol s).Padded n k m d (t'.pushSymbol s') where
  pos := h.pos
  symbols_le := by
    rw [size_pushSymbol]
    exact Nat.le_succ_of_le h.symbols_le
  scopes_le := h.scopes_le
  symbols_size := by
    rw [size_pushSymbol, size_pushSymbol, h.symbols_size, Nat.add_right_comm]
  scopes_size := h.scopes_size
  open_lt := h.open_lt
  inner := h.inner
  region := h.region
  symbol a := by
    have hsize := h.next_eq
    by_cases ha : a = t.symbols.size
    · rw [ha, hsize, symbol_pushSymbol_self, symbol_pushSymbol_self]
      exact hs
    · have ha' : skip n k a ≠ t'.symbols.size := fun heq =>
        ha (skip_injective (heq.trans hsize.symm))
      rw [symbol_pushSymbol_of_ne s ha, symbol_pushSymbol_of_ne s' ha']
      exact h.symbol a
  listed := h.listed

theorem openScope (h : t.Padded n k m d t') {s s' : Scope} (hs : s.symbols = [])
    (hs' : s'.symbols = []) : (t.openScope s).Padded n k m d (t'.openScope s') where
  pos := h.pos
  symbols_le := h.symbols_le
  scopes_le := by
    rw [size_openScope]
    exact Nat.le_succ_of_le h.scopes_le
  symbols_size := h.symbols_size
  scopes_size := by
    rw [size_openScope, size_openScope, h.scopes_size, Nat.add_right_comm]
  open_lt c hc := by
    rw [size_openScope]
    rcases List.mem_cons.1 hc with rfl | hc
    · exact Nat.lt_succ_self _
    · exact Nat.lt_succ_of_lt (h.open_lt c hc)
  inner := by
    rw [inner_openScope, inner_openScope, List.map_cons, h.inner, h.nextScope_eq]
  region := h.region
  symbol := h.symbol
  listed c hc := by
    rcases List.mem_cons.1 hc with rfl | hc
    · rw [h.nextScope_eq, scope_openScope_self, scope_openScope_self, hs, hs']
      rfl
    · have hne : c ≠ t.scopes.size := Nat.ne_of_lt (h.open_lt c hc)
      have hne' : skip m d c ≠ t'.scopes.size := fun heq =>
        hne (skip_injective (heq.trans h.nextScope_eq.symm))
      rw [scope_openScope_of_ne s hne, scope_openScope_of_ne s' hne']
      exact h.listed c hc

theorem leave (h : t.Padded n k m d t') {c : ScopeId} {outer : List ScopeId}
    (hi : t.inner = c :: outer) :
    { t with inner := outer }.Padded n k m d { t' with inner := outer.map (skip m d) } where
  pos := h.pos
  symbols_le := h.symbols_le
  scopes_le := h.scopes_le
  symbols_size := h.symbols_size
  scopes_size := h.scopes_size
  open_lt a ha := h.open_lt a (by rw [open_, hi]; exact List.mem_cons_of_mem c ha)
  inner := rfl
  region := h.region
  symbol := h.symbol
  listed a ha := h.listed a (by rw [open_, hi]; exact List.mem_cons_of_mem c ha)

/-- The scope that is left becomes one that nothing refers to, on both sides. -/
theorem popScope (h : t.Padded n k m d t') : t.popScope.Padded n k m d t'.popScope := by
  have hinner := h.inner
  unfold Table.popScope
  -- in the global scope nothing is left, in neither table
  cases hi : t.inner with
  | nil =>
    rw [hi] at hinner
    rw [hinner]
    exact h
  | cons c outer =>
    rw [hi, List.map_cons] at hinner
    rw [hinner]
    have hleave := h.leave hi
    dsimp only
    rw [hleave.current_eq]
    exact hleave.modifyScope (current_mem_open _) (hleave.listed _ (current_mem_open _))

/-- Counters are not compared. -/
theorem alignLocals (h : t.Padded n k m d t') : t.alignLocals.Padded n k m d t'.alignLocals := by
  unfold Table.alignLocals
  rw [h.current_eq]
  exact h.modifyScope t.current_mem_open (h.listed _ t.current_mem_open)

theorem enterRegion (h : t.Padded n k m d t') : t.enterRegion.Padded n k m d t'.enterRegion :=
  { h with region := congrArg (· + 1) h.region }

theorem exitRegion (h : t.Padded n k m d t') : t.exitRegion.Padded n k m d t'.exitRegion :=
  { h with region := congrArg (· - 1) h.region }

/-- Putting a new symbol into an open scope. -/
theorem link (h : t.Padded n k m d t') {s s' : Symbol} (hs : s.Counterpart (skip n k) s')
    {c : ScopeId} (hc : c ∈ t.open_) {g g' : Scope → Scope}
    (hg : ∀ scope : Scope, (g scope).symbols = scope.symbols ++ [t.symbols.size])
    (hg' : ∀ scope : Scope, (g' scope).symbols = scope.symbols ++ [t'.symbols.size]) :
    ((t.pushSymbol s).modifyScope c g).Padded n k m d
      ((t'.pushSymbol s').modifyScope (skip m d c) g') := by
  refine (h.pushSymbol hs).modifyScope hc ?_
  rw [hg, hg', List.map_append, List.map_singleton, h.next_eq]
  exact congrArg (· ++ _) (h.listed c hc)

/-- A new symbol is out of nobody's reach, so it has a counterpart. -/
theorem addNew (h : t.Padded n k m d t') (name : String) (type : Ty) (kind : SymbolKind) :
    (t.addNew name type kind).Padded n k m d (t'.addNew name type kind) := by
  unfold Table.addNew
  dsimp only
  rw [h.current_eq]
  refine h.link ?_ t.current_mem_open (fun _ => rfl) (fun _ => rfl)
  exact
    { name := rfl, type := rfl, kind := rfl, region := h.region, declared := rfl,
      isFunction := rfl, state := rfl, freezeCount := rfl, frozenArgs := rfl, members := rfl }

/-- A symbol and its counterpart get the same type. -/
theorem setType (h : t.Padded n k m d t') (id : SymbolId) (type : Ty) :
    (t.setType id type).Padded n k m d (t'.setType (skip n k id) type) :=
  h.modifySymbol { h.symbol id with type := rfl }

/-- Both tables have the name in the current scope or neither has it, and they answer numbers that
belong together. -/
theorem add (h : t.Padded n k m d t') (name : String) (type : Ty) (kind : SymbolKind) :
    Linked (skip n k) (Padded n k m d) (t.add name type kind) (t'.add name type kind) := by
  unfold Table.add
  rw [h.lookupCurrent_eq]
  -- a name that is new gets the next number on both sides
  cases t.lookupCurrent name with
  | none => exact ⟨h.addNew name type kind, h.next_eq.symm⟩
  | some id => exact ⟨h.setType id type, rfl⟩

/-- A namespace is added to both tables or to neither. -/
theorem addNamespace (h : t.Padded n k m d t') (name : String) :
    Option.Rel (Linked (skip n k) (Padded n k m d)) (t.addNamespace name)
      (t'.addNamespace name) := by
  have hglobal : globalId ∈ t.open_ := List.mem_append_right _ (List.mem_singleton_self _)
  have hfind := h.findIn_eq hglobal name
  rw [h.global_eq] at hfind
  unfold Table.addNamespace
  rw [hfind, Option.isSome_map]
  split
  · exact .none
  · have hlink : ((t.pushSymbol (.fresh name .nil .namespace_ globalId)).modifyScope globalId
          fun s => { s with symbols := s.symbols ++ [t.symbols.size] }).Padded n k m d
        ((t'.pushSymbol (.fresh name .nil .namespace_ globalId)).modifyScope (skip m d globalId)
          fun s => { s with symbols := s.symbols ++ [t'.symbols.size] }) :=
      h.link ⟨.refl _, rfl, rfl⟩ hglobal (fun _ => rfl) (fun _ => rfl)
    rw [h.global_eq] at hlink
    exact .some ⟨hlink, h.next_eq.symm⟩

theorem addToNamespace (h : t.Padded n k m d t') (space name : String) (type : Ty) :
    Option.Rel (Linked (skip n k) (Padded n k m d)) (t.addToNamespace space name type)
      (t'.addToNamespace space name type) := by
  unfold Table.addToNamespace
  rw [h.findNamespace_eq]
  cases t.findNamespace space with
  | none => exact .none
  | some spaceId =>
    refine .some ?_
    dsimp only
    rw [h.findMember_eq]
    cases t.findMember spaceId name with
    | some id => exact ⟨h.setType id type, rfl⟩
    | none =>
      have hpush : (t.pushSymbol (.fresh name type .global globalId)).Padded n k m d
          (t'.pushSymbol (.fresh name type .global globalId)) :=
        h.pushSymbol ⟨.refl _, rfl, rfl⟩
      have hspace := hpush.symbol spaceId
      refine ⟨hpush.modifySymbol { hspace with members := ?_ }, h.next_eq.symm⟩
      rw [hspace.members, List.map_append, List.map_singleton, h.next_eq]

/-! ### Threads -/

/-- What a symbol allows its counterpart allows, with the same error if it does not. -/
theorem transition (h : t.Padded n k m d t') {f : Symbol → Except ThreadError Symbol}
    (hf : ∀ {s s'}, s.Counterpart (skip n k) s' → BothParts (skip n k) (f s) (f s'))
    (id : SymbolId) :
    Both (Padded n k m d) (t.transition id f) (t'.transition (skip n k id) f) := by
  have hid := hf (h.symbol id)
  unfold Table.transition
  -- the two answers are cut loose from the tables, so that their cases are those of `Both`
  generalize f (t.symbol id) = found at hid ⊢
  generalize f (t'.symbol (skip n k id)) = found' at hid ⊢
  cases hid with
  | error e => exact .error e
  | ok hs => exact .ok (h.modifySymbol hs)

/-- A symbol that is not frozen is left as it is, on both sides. -/
theorem release (h : t.Padded n k m d t') (id : SymbolId) :
    (t.release id).Padded n k m d (t'.release (skip n k id)) := by
  have hid := h.transition counterpart_unfreeze id
  unfold Table.release
  generalize t.transition id Symbol.unfreeze = found at hid ⊢
  generalize t'.transition (skip n k id) Symbol.unfreeze = found' at hid ⊢
  cases hid with
  | error e => exact h
  | ok ht => exact ht

theorem foldl_release (ids : List SymbolId) (h : t.Padded n k m d t') :
    (ids.foldl Table.release t).Padded n k m d
      ((ids.map (skip n k)).foldl Table.release t') := by
  induction ids generalizing t t' with
  | nil => exact h
  | cons id others ih => exact ih (h.release id)

/-- Waiting for a thread releases the counterparts of its arguments. -/
theorem syncSymbol (h : t.Padded n k m d t') (id : SymbolId) :
    Both (Padded n k m d) (t.syncSymbol id) (t'.syncSymbol (skip n k id)) := by
  have hid := h.transition counterpart_markSynchronized id
  unfold Table.syncSymbol
  generalize t.transition id Symbol.markSynchronized = found at hid ⊢
  generalize t'.transition (skip n k id) Symbol.markSynchronized = found' at hid ⊢
  cases hid with
  | error e => exact .error e
  | ok ht =>
    refine .ok ?_
    dsimp only
    rw [(ht.symbol id).frozenArgs]
    exact ht.foldl_release _

theorem syncVariable (h : t.Padded n k m d t') (name : String) :
    Both (Linked (skip n k) (Padded n k m d)) (t.syncVariable name) (t'.syncVariable name) := by
  unfold Table.syncVariable
  rw [h.lookup_eq]
  cases t.lookup name with
  | none => exact .error _
  | some id =>
    have hid := h.syncSymbol id
    dsimp only [Option.map_some]
    generalize t.syncSymbol id = found at hid ⊢
    generalize t'.syncSymbol (skip n k id) = found' at hid ⊢
    cases hid with
    | error e => exact .error e
    | ok ht => exact .ok ⟨ht, rfl⟩

end Padded

/-- No operation can tell whether there are symbols and scopes out of reach. -/
theorem renumbering_padded (n k m d : Nat) : Renumbering (skip n k) (Padded n k m d) where
  injective := skip_injective
  like h := h.like
  pushScope h := h.openScope rfl rfl
  pushFrame h := h.openScope rfl rfl
  popScope h := h.popScope
  alignLocals h := h.alignLocals
  enterRegion h := h.enterRegion
  exitRegion h := h.exitRegion
  add h := h.add
  setQualifier h id _ := h.modifySymbol { h.symbol id with }
  setFunction h id _ _ := h.modifySymbol { h.symbol id with declared := rfl, isFunction := rfl }
  addNamespace h := h.addNamespace
  addToNamespace h := h.addToNamespace
  syncVariable h := h.syncVariable
  bind h := h.transition counterpart_bind
  freeze h id :=
    h.modifySymbol { h.symbol id with freezeCount := congrArg (· + 1) (h.symbol id).freezeCount }
  setFrozenArgs h id _ := h.modifySymbol { h.symbol id with frozenArgs := rfl }

end Table

end ThreadRegions
