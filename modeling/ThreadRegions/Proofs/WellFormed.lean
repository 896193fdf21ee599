import ThreadRegions.Proofs.Action

/-!
# Well-formed symbol tables

Numbers of scopes and symbols are only handed out by the table itself, so they never point to
nowhere.  Here this is made precise, and each operation of the table is shown to keep it.

## Main Definitions

* `Table.WellFormed`: scopes are opened in order, and every link leads to a symbol that knows where
  it is linked
* `Table.addParams`: the parameters of a function, one after the other
* `Table.SameButThreads`: tables that differ only in what they know about threads
* `Table.looksAt`: a handle is bound to a thread that looks at the given symbols

## Main Results

* one lemma for each operation, by which it keeps tables well-formed
-/

namespace ThreadRegions

namespace Table

/-! ### Changing one symbol or one scope -/

section

variable (t : Table) (id : Nat) (f : Symbol → Symbol) (g : Scope → Scope)

@[simp] theorem size_modifySymbol : (t.modifySymbol id f).symbols.size = t.symbols.size := by
  simp [modifySymbol]

@[simp] theorem size_modifyScope : (t.modifyScope id g).scopes.size = t.scopes.size := by
  simp [modifyScope]

@[simp] theorem size_pushSymbol (s : Symbol) :
    (t.pushSymbol s).symbols.size = t.symbols.size + 1 := by
  simp [pushSymbol]

@[simp] theorem size_openScope (s : Scope) : (t.openScope s).scopes.size = t.scopes.size + 1 := by
  simp [openScope]

@[simp] theorem symbol_modifyScope (a : SymbolId) :
    (t.modifyScope id g).symbol a = t.symbol a := rfl

@[simp] theorem scope_modifySymbol (c : ScopeId) : (t.modifySymbol id f).scope c = t.scope c := rfl

@[simp] theorem scope_pushSymbol (s : Symbol) (c : ScopeId) :
    (t.pushSymbol s).scope c = t.scope c := rfl

@[simp] theorem symbol_openScope (s : Scope) (a : SymbolId) :
    (t.openScope s).symbol a = t.symbol a := rfl

@[simp] theorem symbols_openScope (s : Scope) : (t.openScope s).symbols = t.symbols := rfl

@[simp] theorem inner_openScope (s : Scope) :
    (t.openScope s).inner = t.scopes.size :: t.inner := rfl

@[simp] theorem inner_pushSymbol (s : Symbol) : (t.pushSymbol s).inner = t.inner := rfl

@[simp] theorem scopes_pushSymbol (s : Symbol) : (t.pushSymbol s).scopes = t.scopes := rfl

end

section

variable {t : Table} {id : Nat} {f : Symbol → Symbol} {g : Scope → Scope}

theorem symbol_modifySymbol_self (h : id < t.symbols.size) :
    (t.modifySymbol id f).symbol id = f (t.symbol id) := by
  simp [symbol, modifySymbol, Array.getD_eq_getD_getElem?, Array.getElem_modify_self, h]

theorem symbol_modifySymbol_of_ne {a : SymbolId} (h : a ≠ id) :
    (t.modifySymbol id f).symbol a = t.symbol a := by
  simp [symbol, modifySymbol, Array.getD_eq_getD_getElem?, Array.getElem?_modify, Ne.symm h]

/-- A number that is not in use stands for a symbol without a name. -/
theorem symbol_of_size_le {a : SymbolId} (h : t.symbols.size ≤ a) :
    t.symbol a = .fresh "" .nil .global 0 := by
  simp [symbol, Array.getD_eq_getD_getElem?, h]

/-- What a change of one symbol leaves alone is as before. -/
theorem view_modifySymbol {α : Type} (view : Symbol → α)
    (hf : view (f (t.symbol id)) = view (t.symbol id)) (a : SymbolId) :
    view ((t.modifySymbol id f).symbol a) = view (t.symbol a) := by
  by_cases ha : a = id
  · subst ha
    -- a number that is not in use stands for the same symbol before and after
    by_cases hlt : a < t.symbols.size
    · rw [symbol_modifySymbol_self hlt, hf]
    · rw [symbol_of_size_le (Nat.le_of_not_lt hlt), symbol_of_size_le (by simpa using hlt)]
  · rw [symbol_modifySymbol_of_ne ha]

theorem scope_modifyScope_self (h : id < t.scopes.size) :
    (t.modifyScope id g).scope id = g (t.scope id) := by
  simp [scope, modifyScope, Array.getD_eq_getD_getElem?, Array.getElem_modify_self, h]

theorem scope_modifyScope_of_ne {c : ScopeId} (h : c ≠ id) :
    (t.modifyScope id g).scope c = t.scope c := by
  simp [scope, modifyScope, Array.getD_eq_getD_getElem?, Array.getElem?_modify, Ne.symm h]

/-- A number that is not in use stands for an empty scope. -/
theorem scope_of_size_le {c : ScopeId} (h : t.scopes.size ≤ c) : t.scope c = .global := by
  simp [scope, Array.getD_eq_getD_getElem?, h]

theorem view_modifyScope {α : Type} (view : Scope → α)
    (hg : view (g (t.scope id)) = view (t.scope id)) (c : ScopeId) :
    view ((t.modifyScope id g).scope c) = view (t.scope c) := by
  by_cases hc : c = id
  · subst hc
    by_cases hlt : c < t.scopes.size
    · rw [scope_modifyScope_self hlt, hg]
    · rw [scope_of_size_le (Nat.le_of_not_lt hlt), scope_of_size_le (by simpa using hlt)]
  · rw [scope_modifyScope_of_ne hc]

/-- A new symbol gets the next number. -/
theorem symbol_pushSymbol_self (s : Symbol) : (t.pushSymbol s).symbol t.symbols.size = s := by
  simp [symbol, pushSymbol, Array.getD_eq_getD_getElem?]

theorem symbol_pushSymbol_of_ne (s : Symbol) {a : SymbolId} (h : a ≠ t.symbols.size) :
    (t.pushSymbol s).symbol a = t.symbol a := by
  simp [symbol, pushSymbol, Array.getD_eq_getD_getElem?, Array.getElem?_push, h]

/-- A new scope gets the next number. -/
theorem scope_openScope_self (s : Scope) : (t.openScope s).scope t.scopes.size = s := by
  simp [scope, openScope, Array.getD_eq_getD_getElem?]

theorem scope_openScope_of_ne (s : Scope) {c : ScopeId} (h : c ≠ t.scopes.size) :
    (t.openScope s).scope c = t.scope c := by
  simp [scope, openScope, Array.getD_eq_getD_getElem?, Array.getElem?_push, h]

end

/-- Declares parameters in the current scope. -/
def addParams (t : Table) (params : List (String × Ty × Qualifier)) : Table :=
  params.foldl (fun t p => (t.addQualified p.1 p.2.1 .param p.2.2).1) t

/-! ### Well-formed tables -/

/-- Scopes are opened in order, and every link leads to a symbol that knows where it is linked. -/
structure WellFormed (t : Table) : Prop where
  /-- The global scope is there. -/
  global_lt : globalId < t.scopes.size
  /-- Every open scope is there. -/
  inner_lt : ∀ c ∈ t.inner, c < t.scopes.size
  /-- A scope is opened after the scopes around it. -/
  sorted : t.open_.Pairwise (· > ·)
  /-- The symbols of a scope are there and belong to it. -/
  linked : ∀ c, ∀ a ∈ (t.scope c).symbols, a < t.symbols.size ∧ (t.symbol a).scope = c
  /-- The members of a namespace are there and belong to no scope. -/
  members : ∀ b, ∀ a ∈ (t.symbol b).members, a < t.symbols.size ∧ ∀ c, a ∉ (t.scope c).symbols

/-- The empty table has the global scope and no symbols. -/
theorem wellFormed_empty : empty.WellFormed where
  global_lt := by decide
  inner_lt := by simp [empty]
  sorted := by simp [open_, empty]
  linked c a ha := by
    -- numbers beyond the global scope stand for an empty scope too
    have hc : (empty.scope c).symbols = [] := by
      rcases c with - | c
      · rfl
      · rfl
    simp [hc] at ha
  members b a ha := by
    rw [symbol_of_size_le (by simp [empty])] at ha
    cases ha

/-- There is always a current scope, if only the global one. -/
theorem current_mem_open (t : Table) : t.current ∈ t.open_ := by
  cases h : t.inner <;> simp [current, open_, h]

/-- The current scope is the innermost one. -/
theorem open_eq_cons (t : Table) : t.open_ = t.current :: t.open_.tail := by
  cases h : t.inner <;> simp [open_, current, h]

/-- A symbol that is found is in the scope and has the name. -/
theorem findIn_eq_some {t : Table} {c : ScopeId} {name : String} {a : SymbolId}
    (h : t.findIn c name = some a) : a ∈ (t.scope c).symbols ∧ (t.symbol a).name = name := by
  have hm := List.mem_of_find?_eq_some h
  have hn := List.find?_some h
  exact ⟨by simpa using hm, by simpa using hn⟩

/-- A symbol that is found is in one of the open scopes. -/
theorem lookup_eq_some {t : Table} {name : String} {a : SymbolId} (h : t.lookup name = some a) :
    ∃ c ∈ t.open_, a ∈ (t.scope c).symbols ∧ (t.symbol a).name = name := by
  obtain ⟨c, hc, hf⟩ := List.exists_of_findSome?_eq_some h
  exact ⟨c, hc, findIn_eq_some hf⟩

namespace WellFormed

variable {t : Table} (h : t.WellFormed)

include h

theorem open_lt {c : ScopeId} (hc : c ∈ t.open_) : c < t.scopes.size := by
  rcases List.mem_append.1 hc with hc | hc
  · exact h.inner_lt c hc
  · exact List.mem_singleton.1 hc ▸ h.global_lt

theorem current_lt : t.current < t.scopes.size := h.open_lt t.current_mem_open

/-- The global scope is not among the scopes inside of it. -/
theorem ne_globalId {c : ScopeId} (hc : c ∈ t.inner) : c ≠ globalId :=
  Nat.ne_of_gt ((List.pairwise_append.1 h.sorted).2.2 c hc _ (List.mem_singleton_self _))

/-- Whatever a name leads to is there. -/
theorem lookup_lt {name : String} {a : SymbolId} (ha : t.lookup name = some a) :
    a < t.symbols.size := by
  obtain ⟨c, -, hc, -⟩ := lookup_eq_some ha
  exact (h.linked c a hc).1

theorem lookupCurrent_lt {name : String} {a : SymbolId} (ha : t.lookupCurrent name = some a) :
    a < t.symbols.size :=
  (h.linked _ a (findIn_eq_some ha).1).1

/-! ### Changes that leave the links alone -/

/-- A symbol has two links: the scope that it is in, and the members that it has. -/
theorem modifySymbol {id : SymbolId} {f : Symbol → Symbol}
    (hs : (f (t.symbol id)).scope = (t.symbol id).scope)
    (hm : (f (t.symbol id)).members = (t.symbol id).members) :
    (t.modifySymbol id f).WellFormed where
  global_lt := h.global_lt
  inner_lt := h.inner_lt
  sorted := h.sorted
  linked c a ha := by
    rw [view_modifySymbol Symbol.scope hs, size_modifySymbol]
    exact h.linked c a ha
  members b a ha := by
    rw [view_modifySymbol Symbol.members hm] at ha
    rw [size_modifySymbol]
    exact h.members b a ha

/-- A scope has its symbols for links. -/
theorem modifyScope {c : ScopeId} {g : Scope → Scope}
    (hg : (g (t.scope c)).symbols = (t.scope c).symbols) : (t.modifyScope c g).WellFormed where
  global_lt := by simpa using h.global_lt
  inner_lt d hd := by simpa using h.inner_lt d hd
  sorted := h.sorted
  linked d a ha := by
    rw [view_modifyScope Scope.symbols hg] at ha
    exact h.linked d a ha
  members b a ha := by
    refine ⟨(h.members b a ha).1, fun d => ?_⟩
    rw [view_modifyScope Scope.symbols hg]
    exact (h.members b a ha).2 d

theorem setType (id : SymbolId) (type : Ty) : (t.setType id type).WellFormed :=
  h.modifySymbol rfl rfl

theorem setQualifier (id : SymbolId) (q : Qualifier) : (t.setQualifier id q).WellFormed :=
  h.modifySymbol rfl rfl

theorem setFunction (id : SymbolId) (modifier declared : Modifier) :
    (t.setFunction id modifier declared).WellFormed :=
  h.modifySymbol rfl rfl

theorem alignLocals : t.alignLocals.WellFormed := h.modifyScope rfl

/-- The number of regions is in no link. -/
theorem enterRegion : t.enterRegion.WellFormed :=
  ⟨h.global_lt, h.inner_lt, h.sorted, h.linked, h.members⟩

theorem exitRegion : t.exitRegion.WellFormed :=
  ⟨h.global_lt, h.inner_lt, h.sorted, h.linked, h.members⟩

/-! ### Entering and leaving a scope -/

/-- A new scope is empty, and its number is larger than those of the scopes around it. -/
theorem openScope {s : Scope} (hs : s.symbols = []) : (t.openScope s).WellFormed where
  global_lt := by simpa using Nat.lt_succ_of_lt h.global_lt
  inner_lt c hc := by
    simp only [inner_openScope, List.mem_cons, size_openScope] at hc ⊢
    rcases hc with rfl | hc
    · exact Nat.lt_succ_self _
    · exact Nat.lt_succ_of_lt (h.inner_lt c hc)
  sorted := by
    -- the new scope has the largest number, since all open scopes are there
    refine List.pairwise_cons.2 ⟨fun c hc => ?_, h.sorted⟩
    exact h.open_lt hc
  linked c a ha := by
    by_cases hc : c = t.scopes.size
    · simp [hc, scope_openScope_self, hs] at ha
    · rw [scope_openScope_of_ne s hc] at ha
      exact h.linked c a ha
  members b a ha := by
    refine ⟨(h.members b a ha).1, fun c => ?_⟩
    by_cases hc : c = t.scopes.size
    · simp [hc, scope_openScope_self, hs]
    · rw [scope_openScope_of_ne s hc]
      exact (h.members b a ha).2 c

theorem pushScope : t.pushScope.WellFormed := h.openScope rfl

theorem pushFrame : t.pushFrame.WellFormed := h.openScope rfl

/-- The scopes that stay open are still in order. -/
theorem popScope : t.popScope.WellFormed := by
  unfold Table.popScope
  split
  · exact h
  · next child outer hi =>
    -- the links do not depend on which scopes are open
    have hout : WellFormed { t with inner := outer } := by
      refine ⟨h.global_lt, fun c hc => h.inner_lt c ?_, ?_, h.linked, h.members⟩
      · rw [hi]
        exact List.mem_cons_of_mem child hc
      · have hs := h.sorted
        rw [open_, hi] at hs
        exact (List.pairwise_cons.1 hs).2
    exact hout.modifyScope rfl

/-! ### Declaring names -/

/-- A new symbol is put into a scope. -/
theorem link {c : ScopeId} {s : Symbol} {g : Scope → Scope} (hc : c < t.scopes.size)
    (hs : s.scope = c) (hm : s.members = [])
    (hg : (g (t.scope c)).symbols = (t.scope c).symbols ++ [t.symbols.size]) :
    ((t.pushSymbol s).modifyScope c g).WellFormed where
  global_lt := by simpa using h.global_lt
  inner_lt d hd := by simpa using h.inner_lt d hd
  sorted := h.sorted
  linked d a ha := by
    simp only [size_pushSymbol, symbols_modifyScope, symbol_modifyScope]
    by_cases hd : d = c
    · subst hd
      rw [scope_modifyScope_self (by simpa using hc), scope_pushSymbol, hg, List.mem_append,
        List.mem_singleton] at ha
      -- the symbols of the scope are the old ones and the new one
      rcases ha with ha | rfl
      · obtain ⟨hlt, hscope⟩ := h.linked d a ha
        rw [symbol_pushSymbol_of_ne _ (Nat.ne_of_lt hlt)]
        exact ⟨Nat.lt_succ_of_lt hlt, hscope⟩
      · rw [symbol_pushSymbol_self]
        exact ⟨Nat.lt_succ_self _, hs⟩
    · rw [scope_modifyScope_of_ne hd] at ha
      obtain ⟨hlt, hscope⟩ := h.linked d a ha
      rw [symbol_pushSymbol_of_ne _ (Nat.ne_of_lt hlt)]
      exact ⟨Nat.lt_succ_of_lt hlt, hscope⟩
  members b a ha := by
    simp only [size_pushSymbol, symbols_modifyScope, symbol_modifyScope] at ha ⊢
    -- the new symbol is no namespace with members
    have hb : b ≠ t.symbols.size := by
      rintro rfl
      rw [symbol_pushSymbol_self, hm] at ha
      cases ha
    rw [symbol_pushSymbol_of_ne _ hb] at ha
    obtain ⟨hlt, hlink⟩ := h.members b a ha
    refine ⟨Nat.lt_succ_of_lt hlt, fun d => ?_⟩
    by_cases hd : d = c
    · subst hd
      rw [scope_modifyScope_self (by simpa using hc), scope_pushSymbol, hg]
      simpa using ⟨hlink d, Nat.ne_of_lt hlt⟩
    · rw [scope_modifyScope_of_ne hd]
      exact hlink d

theorem addNew (name : String) (type : Ty) (kind : SymbolKind) :
    (t.addNew name type kind).WellFormed :=
  h.link h.current_lt rfl rfl rfl

/-- A name that the scope already has keeps its symbol. -/
theorem add (name : String) (type : Ty) (kind : SymbolKind) :
    (t.add name type kind).1.WellFormed := by
  unfold Table.add
  split
  · exact h.setType _ _
  · exact h.addNew name type kind

theorem addQualified (name : String) (type : Ty) (kind : SymbolKind) (q : Qualifier) :
    (t.addQualified name type kind q).1.WellFormed :=
  (h.add name type kind).setQualifier _ q

theorem addFunction (name : String) (type : Ty) (modifier declared : Modifier) :
    (t.addFunction name type modifier declared).1.WellFormed :=
  (h.add name type _).setFunction _ modifier declared

theorem addParams (params : List (String × Ty × Qualifier)) : (t.addParams params).WellFormed := by
  induction params generalizing t with
  | nil => exact h
  | cons p others ih => exact ih (h.addQualified p.1 p.2.1 .param p.2.2)

/-! ### Namespaces -/

/-- A namespace is put into the global scope, wherever it is declared. -/
theorem addNamespace {name : String} {t' : Table} {id : SymbolId}
    (ha : t.addNamespace name = some (t', id)) : t'.WellFormed := by
  unfold Table.addNamespace at ha
  split at ha
  · cases ha
  · cases ha
    exact h.link h.global_lt rfl rfl rfl

theorem enlist {b : SymbolId} {s : Symbol} (hm : s.members = []) :
    ((t.pushSymbol s).modifySymbol b fun space =>
      { space with members := space.members ++ [t.symbols.size] }).WellFormed where
  global_lt := h.global_lt
  inner_lt := h.inner_lt
  sorted := h.sorted
  linked c a ha := by
    obtain ⟨hlt, hscope⟩ := h.linked c a ha
    rw [view_modifySymbol Symbol.scope rfl, symbol_pushSymbol_of_ne _ (Nat.ne_of_lt hlt)]
    rw [size_modifySymbol, size_pushSymbol]
    exact ⟨Nat.lt_succ_of_lt hlt, hscope⟩
  members d a ha := by
    -- the members of a symbol are those from before, and for the namespace the new one
    have hmem : a = t.symbols.size ∨ ∃ d, a ∈ (t.symbol d).members := by
      by_cases hd : d = b ∧ b < (t.pushSymbol s).symbols.size
      · rw [hd.1, symbol_modifySymbol_self hd.2, List.mem_append, List.mem_singleton] at ha
        rcases ha with ha | ha
        · by_cases hb : b = t.symbols.size
          · rw [hb, symbol_pushSymbol_self, hm] at ha
            cases ha
          · rw [symbol_pushSymbol_of_ne _ hb] at ha
            exact .inr ⟨b, ha⟩
        · exact .inl ha
      · have hsame : ((t.pushSymbol s).modifySymbol b fun space =>
            { space with members := space.members ++ [t.symbols.size] }).symbol d =
              (t.pushSymbol s).symbol d := by
          by_cases hdb : d = b
          · have hlt := fun hlt => hd ⟨hdb, hlt⟩
            rw [hdb, symbol_of_size_le (by simpa using hlt), symbol_of_size_le (by simpa using hlt)]
          · exact symbol_modifySymbol_of_ne hdb
        rw [hsame] at ha
        by_cases hds : d = t.symbols.size
        · rw [hds, symbol_pushSymbol_self, hm] at ha
          cases ha
        · rw [symbol_pushSymbol_of_ne _ hds] at ha
          exact .inr ⟨d, ha⟩
    rw [size_modifySymbol, size_pushSymbol]
    -- the new symbol is in no scope, since its number was not in use
    rcases hmem with rfl | ⟨d, hd⟩
    · exact ⟨Nat.lt_succ_self _, fun c hc => Nat.lt_irrefl _ (h.linked c _ hc).1⟩
    · exact ⟨Nat.lt_succ_of_lt (h.members d a hd).1, (h.members d a hd).2⟩

/-- A member that is already there is given another type. -/
theorem addToNamespace {space name : String} {type : Ty} {t' : Table} {id : SymbolId}
    (ha : t.addToNamespace space name type = some (t', id)) : t'.WellFormed := by
  obtain ⟨b, -, hb⟩ := Option.map_eq_some_iff.1 ha
  split at hb
  · cases hb
    exact h.setType _ _
  · cases hb
    exact h.enlist rfl

/-- The marks of a function are no links. -/
theorem addFunctionToNamespace {space name : String} {type : Ty} {modifier declared : Modifier}
    {t' : Table} {id : SymbolId}
    (ha : t.addFunctionToNamespace space name type modifier declared = some (t', id)) :
    t'.WellFormed := by
  obtain ⟨⟨t₁, a⟩, hadd, hb⟩ := Option.map_eq_some_iff.1 ha
  cases hb
  exact (h.addToNamespace hadd).setFunction _ modifier declared

end WellFormed

/-! ### A new symbol -/

section

variable (t : Table) (name : String) (type : Ty) (kind : SymbolKind)

/-- The current scope holds one symbol more, and has fewer free places. -/
theorem scope_addNew_self (hw : t.WellFormed) :
    (t.addNew name type kind).scope t.current =
      { reserve type kind (t.scope t.current) with
        symbols := (t.scope t.current).symbols ++ [t.symbols.size] } :=
  scope_modifyScope_self (by exact hw.current_lt)

theorem scope_addNew_of_ne {d : ScopeId} (hd : d ≠ t.current) :
    (t.addNew name type kind).scope d = t.scope d :=
  scope_modifyScope_of_ne hd

/-- All that is known of a new symbol. -/
theorem symbol_addNew_self :
    (t.addNew name type kind).symbol t.symbols.size =
      { Symbol.fresh name type kind t.current with
        offset := nextOffset (t.scope t.current) kind
        region := t.region } :=
  symbol_pushSymbol_self _

/-- The old symbols are the same as before. -/
theorem symbol_addNew_of_lt {a : SymbolId} (ha : a < t.symbols.size) :
    (t.addNew name type kind).symbol a = t.symbol a :=
  symbol_pushSymbol_of_ne _ (Nat.ne_of_lt ha)

end

end Table

/-! ### Threads -/

namespace Symbol

/-- The symbol without its part in the threads of the program. -/
def plain (s : Symbol) : Symbol := { s with state := .normal, freezeCount := 0, frozenArgs := [] }

variable {s s' : Symbol}

/-- Only a thread that may still run can be waited for. -/
theorem markSynchronized_eq_ok (h : s.markSynchronized = .ok s') :
    s.state = .pending ∧ s' = { s with state := .synchronized } := by
  unfold markSynchronized at h
  split at h
  · next hs => exact ⟨hs, (Except.ok.inj h).symm⟩
  · cases h
  · cases h

/-- A variable is bound to a thread if it does not stand for one that may still run. -/
theorem rebind_markPending_eq_ok (h : s.rebind.bind markPending = .ok s') :
    s.state ≠ .pending ∧ s'.state = .pending ∧ s'.freezeCount = s.freezeCount ∧
      s'.plain = s.plain := by
  unfold rebind at h
  split at h
  · next hs =>
    cases h
    exact ⟨by simp [hs], rfl, rfl, rfl⟩
  · next hs =>
    simp only [Except.bind, markPending, hs] at h
    cases h
    exact ⟨by simp [hs], rfl, rfl, rfl⟩
  · cases h

end Symbol

namespace Table

/-- If the state of a symbol allows the change, this symbol is changed and no other. -/
theorem transition_eq_ok {t t' : Table} {id : SymbolId} {f : Symbol → Except ThreadError Symbol}
    (h : t.transition id f = .ok t') :
    ∃ s, f (t.symbol id) = .ok s ∧ t' = t.modifySymbol id fun _ => s := by
  unfold transition at h
  cases hs : f (t.symbol id) with
  | error e => simp [hs, Except.map] at h
  | ok s =>
    simp only [hs, Except.map, Except.ok.injEq] at h
    exact ⟨s, rfl, h.symm⟩

/-- The tables differ only in what they know about threads. -/
structure SameButThreads (t t' : Table) : Prop where
  scopes : t'.scopes = t.scopes
  inner : t'.inner = t.inner
  region : t'.region = t.region
  size : t'.symbols.size = t.symbols.size
  plain : ∀ a, (t'.symbol a).plain = (t.symbol a).plain

namespace SameButThreads

variable {t t₁ t₂ : Table}

theorem refl (t : Table) : t.SameButThreads t := ⟨rfl, rfl, rfl, rfl, fun _ => rfl⟩

theorem trans (h : t.SameButThreads t₁) (h' : t₁.SameButThreads t₂) : t.SameButThreads t₂ :=
  ⟨h'.scopes.trans h.scopes, h'.inner.trans h.inner, h'.region.trans h.region,
    h'.size.trans h.size, fun a => (h'.plain a).trans (h.plain a)⟩

theorem modifySymbol {id : SymbolId} {f : Symbol → Symbol}
    (hf : (f (t.symbol id)).plain = (t.symbol id).plain) :
    t.SameButThreads (t.modifySymbol id f) :=
  ⟨rfl, rfl, rfl, t.size_modifySymbol id f, view_modifySymbol Symbol.plain hf⟩

theorem setFrozenArgs (id : SymbolId) (args : List SymbolId) :
    t.SameButThreads (t.setFrozenArgs id args) :=
  modifySymbol rfl

theorem foldl_freeze (ids : List SymbolId) : t.SameButThreads (ids.foldl freeze t) := by
  induction ids generalizing t with
  | nil => exact refl t
  | cons id others ih => exact (modifySymbol rfl).trans ih

/-- A symbol that is not frozen stays as it is. -/
theorem release (id : SymbolId) : t.SameButThreads (t.release id) := by
  unfold Table.release
  split
  · next t' h =>
    obtain ⟨s, hs, rfl⟩ := transition_eq_ok h
    unfold Symbol.unfreeze at hs
    split at hs
    · cases hs
    · cases hs
      exact modifySymbol rfl
  · exact refl t

theorem foldl_release (ids : List SymbolId) : t.SameButThreads (ids.foldl Table.release t) := by
  induction ids generalizing t with
  | nil => exact refl t
  | cons id others ih => exact (release id).trans ih

theorem bind {id : SymbolId}
    (h : t.transition id (fun s => s.rebind.bind Symbol.markPending) = .ok t₁) :
    t.SameButThreads t₁ := by
  obtain ⟨s, hs, rfl⟩ := transition_eq_ok h
  exact modifySymbol (Symbol.rebind_markPending_eq_ok hs).2.2.2

theorem markSynchronized {id : SymbolId} (h : t.transition id Symbol.markSynchronized = .ok t₁) :
    t.SameButThreads t₁ := by
  obtain ⟨s, hs, rfl⟩ := transition_eq_ok h
  obtain ⟨-, rfl⟩ := Symbol.markSynchronized_eq_ok hs
  exact modifySymbol rfl

/-- Any field that has nothing to do with threads is the same. -/
theorem field {α : Type} (h : t.SameButThreads t₁) (view : Symbol → α)
    (hv : ∀ s, view s.plain = view s) (a : SymbolId) : view (t₁.symbol a) = view (t.symbol a) := by
  rw [← hv, h.plain, hv]

theorem scope_eq (h : t.SameButThreads t₁) (c : ScopeId) : t₁.scope c = t.scope c := by
  unfold Table.scope
  rw [h.scopes]

theorem open_eq (h : t.SameButThreads t₁) : t₁.open_ = t.open_ := by
  unfold open_
  rw [h.inner]

/-- Names are found as before, since a name is no matter of threads. -/
theorem findIn_eq (h : t.SameButThreads t₁) (c : ScopeId) (name : String) :
    t₁.findIn c name = t.findIn c name := by
  have hn : ∀ a, (t₁.symbol a).name = (t.symbol a).name := h.field Symbol.name fun _ => rfl
  simp only [findIn, findLast, h.scope_eq, hn]

theorem lookup_eq (h : t.SameButThreads t₁) (name : String) : t₁.lookup name = t.lookup name := by
  simp only [lookup, h.open_eq, h.findIn_eq]

/-- The links are the same, so they lead to the same symbols. -/
theorem wellFormed (h : t.SameButThreads t₁) (hw : t.WellFormed) : t₁.WellFormed where
  global_lt := h.scopes ▸ hw.global_lt
  inner_lt := h.scopes ▸ h.inner ▸ hw.inner_lt
  sorted := h.open_eq ▸ hw.sorted
  linked c a ha := by
    rw [h.scope_eq] at ha
    rw [h.size, h.field Symbol.scope fun _ => rfl]
    exact hw.linked c a ha
  members b a ha := by
    rw [h.field Symbol.members fun _ => rfl] at ha
    rw [h.size]
    refine ⟨(hw.members b a ha).1, fun c => ?_⟩
    rw [h.scope_eq]
    exact (hw.members b a ha).2 c

end SameButThreads

/-- The table after a thread has been bound to a handle, where the handle is marked already. -/
def looksAt (t : Table) (id : SymbolId) (frozen : List SymbolId) : Table :=
  (frozen.foldl freeze t).setFrozenArgs id frozen

/-- Freezing, and noting down what has been frozen. -/
theorem sameButThreads_looksAt (t : Table) (id : SymbolId) (frozen : List SymbolId) :
    t.SameButThreads (t.looksAt id frozen) :=
  (SameButThreads.foldl_freeze frozen).trans (.setFrozenArgs id frozen)

/-- The two steps of waiting: the handle is marked, and all that its thread looked at is let go. -/
theorem syncVariable_eq_ok {t t' : Table} {name : String} {id : SymbolId}
    (h : t.syncVariable name = .ok (t', id)) :
    t.lookup name = some id ∧ ∃ marked, t.transition id Symbol.markSynchronized = .ok marked ∧
      t' = (marked.symbol id).frozenArgs.foldl release marked := by
  unfold syncVariable at h
  split at h
  · cases h
  · next a ha =>
    unfold syncSymbol at h
    cases hm : t.transition a Symbol.markSynchronized with
    | error e => simp [hm, Except.map] at h
    | ok marked =>
      simp only [hm, Except.map, Except.ok.injEq, Prod.mk.injEq] at h
      obtain ⟨rfl, rfl⟩ := h
      exact ⟨ha, marked, hm, rfl⟩

/-- Both steps have to do with threads only. -/
theorem sameButThreads_syncVariable {t t' : Table} {name : String} {id : SymbolId}
    (h : t.syncVariable name = .ok (t', id)) : t.SameButThreads t' := by
  obtain ⟨-, marked, hm, rfl⟩ := syncVariable_eq_ok h
  exact (SameButThreads.markSynchronized hm).trans (.foldl_release _)

end Table

/-- Waiting for a thread changes nothing but what is known about threads. -/
theorem sameButThreads_syncPending (s : Checker) (id : SymbolId) (name : String) :
    s.table.SameButThreads ((CheckM.syncPending id name).after s).table := by
  rcases CheckM.table_syncPending s id name with ht | ⟨t', a, hv, ht⟩
  · rw [ht]
    exact .refl s.table
  · rw [ht]
    exact Table.sameButThreads_syncVariable hv

end ThreadRegions
