import ThreadRegions.Proofs.Closures
import ThreadRegions.Proofs.Describe

/-!
# The declarations of a tree in the symbol table

The declarations of a tree that has been checked carry the numbers of their symbols.  Here the
scopes that are open at a place of the tree are related to those of the symbol table, and each
operation of the table is shown to keep the two together.

## Main Definitions

* `Table.Binds`: a scope of the table has the declarations that the tree has
* `Table.OpenBinds`: all open scopes do, and the table knows how deep they are

## Main Results

* `Table.locates_of_lookupFrom`: a name is found in the tree where it is found in the table
* one lemma for each operation, by which the table and the tree stay together

## Design Notes

A second declaration of a name in the same scope gets the number of the first one.  So the order of
the declarations of one scope does not matter, and `Table.Binds` does not speak of it.
-/

namespace ThreadRegions

namespace Table

variable {t t' : Table} {ds : List Binding} {c : ScopeId} {name : String} {a : SymbolId}

/-- What is declared by a statement is no namespace. -/
theorem declarationKind_ne (t : Table) : t.declarationKind ≠ .namespace_ := by
  unfold declarationKind
  split <;> nofun

/-! ### One scope -/

/-- The declarations `ds` are those of a scope of the table, and none of them is that of a
namespace. -/
structure Binds (t : Table) (ds : List Binding) (c : ScopeId) : Prop where
  found : ∀ b ∈ ds, ∃ a, b.symbol = some a ∧ t.findIn c b.name = some a
  only : ∀ name a, t.findIn c name = some a →
    (∃ b ∈ ds, b.name = name) ∧ (t.symbol a).isNamespace = false

/-- A namespace stays one, and nothing else becomes one. -/
theorem Lasts.isNamespace_eq (h : t.Lasts t') (ha : a < t.symbols.size) :
    (t'.symbol a).isNamespace = (t.symbol a).isNamespace := by
  rw [Symbol.isNamespace, h.kind_eq ha, Symbol.isNamespace]

namespace Binds

theorem of_untouched (h : t.Binds ds c) (hw : t.WellFormed) (hu : Untouched t t' c)
    (hl : t.Lasts t') : t'.Binds ds c where
  found b hb := by
    rw [hu.findIn_eq]
    exact h.found b hb
  only name a ha := by
    rw [hu.findIn_eq] at ha
    obtain ⟨hb, hs⟩ := h.only name a ha
    exact ⟨hb, (hl.isNamespace_eq (hw.linked c a (findIn_eq_some ha).1).1).trans hs⟩

theorem mem_symbols (h : t.Binds ds c) {b : Binding} (hb : b ∈ ds) (ha : b.symbol = some a) :
    a ∈ (t.scope c).symbols := by
  obtain ⟨a', ha', hf⟩ := h.found b hb
  rw [ha] at ha'
  exact Option.some.inj ha' ▸ (findIn_eq_some hf).1

/-- A name that the scope does not have is not declared in the tree. -/
theorem find?_eq_none (h : t.Binds ds c) (hf : t.findIn c name = none) :
    ds.find? (fun b => b.name = name) = none := by
  rw [List.find?_eq_none]
  intro b hb hname
  obtain ⟨a, -, ha⟩ := h.found b hb
  rw [of_decide_eq_true hname, hf] at ha
  cases ha

/-- A name that the scope has is declared in the tree, with its number. -/
theorem find?_eq_some (h : t.Binds ds c) (hf : t.findIn c name = some a) :
    ∃ b ∈ ds, ds.find? (fun b => b.name = name) = some b ∧ b.symbol = some a := by
  obtain ⟨b, hb, hname⟩ := (h.only name a hf).1
  have hsome : (ds.find? fun b => b.name = name).isSome :=
    List.find?_isSome.2 ⟨b, hb, decide_eq_true hname⟩
  obtain ⟨b', hb'⟩ := Option.isSome_iff_exists.1 hsome
  have hmem := List.mem_of_find?_eq_some hb'
  have hname' : b'.name = name := by simpa using List.find?_some hb'
  obtain ⟨a', ha', hf'⟩ := h.found b' hmem
  rw [hname', hf] at hf'
  exact ⟨b', hmem, hb', ha'.trans hf'.symm⟩

theorem add (h : t.Binds ds t.current) (hw : t.WellFormed) (name : String) (type : Ty)
    {kind : SymbolKind} (hk : kind ≠ .namespace_) :
    (t.add name type kind).1.Binds (⟨name, some (t.add name type kind).2⟩ :: ds) t.current where
  found b hb := by
    rcases List.mem_cons.1 hb with rfl | hb
    · exact ⟨_, rfl, by rw [findIn_add_current hw, if_pos rfl]⟩
    · obtain ⟨a, ha, hf⟩ := h.found b hb
      exact ⟨a, ha, findIn_add_of_some hw hf name type kind⟩
  only other a ha := by
    have hl := Lasts.add (t := t) name type kind
    -- a name that was there keeps its symbol, and no other name than the new one is added
    cases hold : t.findIn t.current other with
    | some a' =>
      obtain ⟨⟨b, hb, hname⟩, hs⟩ := h.only other a' hold
      rw [findIn_add_of_some hw hold] at ha
      cases ha
      refine ⟨⟨b, List.mem_cons_of_mem _ hb, hname⟩, ?_⟩
      exact (hl.isNamespace_eq (hw.linked _ a (findIn_eq_some hold).1).1).trans hs
    | none =>
      rw [findIn_add_current hw, hold] at ha
      split at ha
      · next heq =>
        subst heq
        cases ha
        refine ⟨⟨_, List.mem_cons_self, rfl⟩, ?_⟩
        have hadd : t.add other type kind = (t.addNew other type kind, t.symbols.size) := by
          unfold Table.add lookupCurrent
          rw [hold]
        rw [hadd, symbol_addNew_self]
        exact decide_eq_false hk
      · cases ha

end Binds

/-! ### All open scopes -/

/-- The declarations in the open scopes other than the global one are those of the table, and every
open scope is as deep as there are scopes around it. -/
structure OpenBinds (t : Table) (scopes : List (List Binding)) : Prop where
  inner : List.Forall₂ t.Binds scopes t.inner
  depth : ∀ c outer, c :: outer <:+ t.open_ → (t.scope c).depth = outer.length

theorem openBinds_empty : empty.OpenBinds [] where
  inner := .nil
  depth c outer hs := by
    rw [show empty.open_ = [globalId] from rfl, List.suffix_cons_iff, List.suffix_nil] at hs
    rcases hs with heq | heq
    · cases heq
      rfl
    · cases heq

namespace OpenBinds

variable {scopes : List (List Binding)}

/-- How deep a scope is has been settled when it was opened. -/
theorem depth_of_lasts (h : t.OpenBinds scopes) (hw : t.WellFormed) (hi : t'.inner = t.inner)
    (hl : t.Lasts t') (c : ScopeId) (outer : List ScopeId) (hs : c :: outer <:+ t'.open_) :
    (t'.scope c).depth = outer.length := by
  rw [open_eq_of_inner_eq hi] at hs
  rw [hl.depth c (hw.open_lt (hs.subset List.mem_cons_self))]
  exact h.depth c outer hs

/-- A step that declares nothing in an open scope other than the global one. -/
theorem of_untouched (h : t.OpenBinds scopes) (hw : t.WellFormed) (hi : t'.inner = t.inner)
    (hl : t.Lasts t') (hu : ∀ c ∈ t.inner, Untouched t t' c) : t'.OpenBinds scopes where
  inner := by
    rw [hi]
    exact Lexical.forall₂_imp_of_mem h.inner fun ds c hc hb => hb.of_untouched hw (hu c hc) hl
  depth := h.depth_of_lasts hw hi hl

/-- Threads have nothing to do with declarations. -/
theorem of_sameButThreads (h : t.OpenBinds scopes) (hw : t.WellFormed) (hs : t.SameButThreads t') :
    t'.OpenBinds scopes :=
  h.of_untouched hw hs.inner (.of_sameButThreads hs) fun c _ => .of_sameButThreads hs c

/-- A namespace is put into the global scope, about which nothing is said here. -/
theorem addNamespace (h : t.OpenBinds scopes) (hw : t.WellFormed)
    (ha : t.addNamespace name = some (t', a)) : t'.OpenBinds scopes := by
  have hl := Lasts.addNamespace ha
  obtain ⟨-, -, rfl⟩ := addNamespace_eq_some ha
  refine h.of_untouched hw rfl hl fun c hc => ?_
  have hpush := Untouched.pushSymbol hw (.fresh name .nil .namespace_ globalId) c
  refine hpush.trans ⟨?_, fun _ _ => rfl, fun _ _ => rfl⟩
  exact congrArg Scope.symbols (scope_modifyScope_of_ne (hw.ne_globalId hc))

/-- The members of a namespace are in no scope. -/
theorem addFunctionToNamespace (h : t.OpenBinds scopes) (hw : t.WellFormed) {space : String}
    {type : Ty} {modifier declared : Modifier}
    (ha : t.addFunctionToNamespace space name type modifier declared = some (t', a)) :
    t'.OpenBinds scopes :=
  h.of_untouched hw (addFunctionToNamespace_eq_some ha).1 (.addFunctionToNamespace ha)
    fun c _ => .addFunctionToNamespace hw ha c

/-! ### Declarations -/

/-- A declaration in the current scope is the first one of the innermost scope of the tree. -/
theorem add (h : t.OpenBinds scopes) (hw : t.WellFormed) (name : String) (type : Ty)
    {kind : SymbolKind} (hk : kind ≠ .namespace_) :
    (t.add name type kind).1.OpenBinds
      (declareBinding scopes ⟨name, some (t.add name type kind).2⟩) where
  inner := by
    have hinner := h.inner
    have hl := Lasts.add (t := t) name type kind
    rw [t.inner_add]
    -- in the global scope, no scope of the tree is concerned
    cases hti : t.inner with
    | nil =>
      rw [hti, List.forall₂_nil_right_iff] at hinner
      rw [hinner]
      exact .nil
    | cons c outer =>
      rw [hti, List.forall₂_cons_right_iff] at hinner
      obtain ⟨ds, rest, hds, hrest, rfl⟩ := hinner
      have hcurrent : t.current = c := by
        rw [current, hti]
        rfl
      have htail : ∀ d ∈ outer, d ∈ t.open_.tail := by
        intro d hd
        rw [open_, hti]
        exact List.mem_append_left _ hd
      refine .cons ?_ (Lexical.forall₂_imp_of_mem hrest fun ds d hd hb => ?_)
      · rw [← hcurrent] at hds ⊢
        exact hds.add hw name type hk
      · exact hb.of_untouched hw
          (.add hw (hw.ne_current_of_mem_tail (htail d hd)) name type kind) hl
  depth := h.depth_of_lasts hw (t.inner_add name type kind) (.add name type kind)

theorem addQualified (h : t.OpenBinds scopes) (hw : t.WellFormed) (name : String) (type : Ty)
    {kind : SymbolKind} (hk : kind ≠ .namespace_) (q : Qualifier) :
    (t.addQualified name type kind q).1.OpenBinds
      (declareBinding scopes ⟨name, some (t.addQualified name type kind q).2⟩) :=
  (h.add hw name type hk).of_untouched (hw.add name type kind) rfl (.setQualifier _ _ q)
    fun c _ => .setQualifier _ _ q c

theorem addFunction (h : t.OpenBinds scopes) (hw : t.WellFormed) (name : String) (type : Ty)
    (modifier declared : Modifier) :
    (t.addFunction name type modifier declared).1.OpenBinds
      (declareBinding scopes ⟨name, some (t.addFunction name type modifier declared).2⟩) :=
  (h.add hw name type t.declarationKind_ne).of_untouched (hw.add name type t.declarationKind) rfl
    (.setFunction _ _ modifier declared) fun c _ => .setFunction _ _ modifier declared c

/-- The scope then has parameters, and what it had before. -/
theorem addParams (h : t.OpenBinds (ds :: scopes)) (hw : t.WellFormed)
    (params : List (String × Ty × Qualifier)) :
    ∃ ds', (∀ b ∈ ds', b ∈ ds ∨ b.name ∈ params.map Prod.fst) ∧
      (t.addParams params).OpenBinds (ds' :: scopes) := by
  induction params generalizing t ds with
  | nil => exact ⟨ds, fun b hb => .inl hb, h⟩
  | cons p others ih =>
    have hkind : SymbolKind.param ≠ .namespace_ := nofun
    have hadd := h.addQualified hw p.1 p.2.1 hkind p.2.2
    obtain ⟨ds', hnames, hbinds⟩ := ih hadd (hw.addQualified _ _ _ _)
    refine ⟨ds', fun b hb => ?_, hbinds⟩
    rcases hnames b hb with hb | hb
    · rcases List.mem_cons.1 hb with rfl | hb
      · exact .inr List.mem_cons_self
      · exact .inl hb
    · exact .inr (List.mem_cons_of_mem _ hb)

/-! ### Scopes -/

/-- A scope is opened that has no symbols. -/
theorem openScope (h : t.OpenBinds scopes) (hw : t.WellFormed) {s : Scope} (hs : s.symbols = [])
    (hd : s.depth = (t.scope t.current).depth + 1) : (t.openScope s).OpenBinds ([] :: scopes) where
  inner := by
    refine .cons ⟨nofun, fun name a ha => ?_⟩ ?_
    · have hmem := (findIn_eq_some ha).1
      rw [scope_openScope_self, hs] at hmem
      cases hmem
    · exact Lexical.forall₂_imp_of_mem h.inner fun ds c hc hb =>
        hb.of_untouched hw (.openScope (hw.inner_lt c hc)) (.openScope s)
  depth c outer hc := by
    rw [show (t.openScope s).open_ = t.scopes.size :: t.open_ from rfl,
      List.suffix_cons_iff] at hc
    rcases hc with heq | hc
    · cases heq
      have hcurrent := h.depth t.current t.open_.tail (t.open_eq_cons ▸ List.suffix_rfl)
      rw [scope_openScope_self, hd, hcurrent, t.open_eq_cons]
      rfl
    · rw [scope_openScope_of_ne s (Nat.ne_of_lt (hw.open_lt (hc.subset List.mem_cons_self)))]
      exact h.depth c outer hc

/-- In the global scope nothing is left, neither in the table nor in the tree. -/
theorem popScope (h : t.OpenBinds scopes) (hw : t.WellFormed) :
    t.popScope.OpenBinds scopes.tail where
  inner := by
    have hinner := h.inner
    rw [inner_popScope]
    generalize t.inner = ids at hinner ⊢
    cases hinner with
    | nil => exact .nil
    | cons _ hrest =>
      exact hrest.imp fun ds c hb => hb.of_untouched hw (.popScope t c) (.popScope t)
  depth c outer hc := by
    have hopen : t.popScope.open_ <:+ t.open_ := by
      rw [open_, inner_popScope, open_]
      exact List.suffix_append_self_iff.2 (List.tail_suffix _)
    have hs := hc.trans hopen
    rw [(Lasts.popScope t).depth c (hw.open_lt (hs.subset List.mem_cons_self))]
    exact h.depth c outer hs

/-- A scope with parameters is entered, whose symbols have been noted down. -/
theorem frame (h : t.OpenBinds scopes) (hw : t.WellFormed) {added : List (String × Ty × Qualifier)}
    {params declared : List Param} (hnames : added.map Prod.fst = params.map Param.name)
    (hp : (t.pushFrame.addParams added).alignLocals.HasParams params declared) :
    (t.pushFrame.addParams added).alignLocals.OpenBinds
      ((declared.map Param.binding).reverse :: scopes) := by
  have hopen : t.pushFrame.OpenBinds ([] :: scopes) := h.openScope hw rfl rfl
  obtain ⟨ds, hds, hadded⟩ := hopen.addParams hw.pushFrame added
  have hframe : (t.pushFrame.addParams added).alignLocals.OpenBinds (ds :: scopes) :=
    hadded.of_untouched (hw.pushFrame.addParams added) rfl (.modifyScope rfl)
      fun c _ => .modifyScope rfl c
  have hinner : (t.pushFrame.addParams added).alignLocals.inner = t.scopes.size :: t.inner :=
    t.pushFrame.inner_addParams added
  have hcurrent := current_frame t added
  -- all that matters of the new table is known
  generalize (t.pushFrame.addParams added).alignLocals = t' at *
  obtain ⟨hbinds, hdepth⟩ := hframe
  rw [hinner, List.forall₂_cons] at hbinds
  refine ⟨?_, hdepth⟩
  rw [hinner]
  refine .cons ⟨fun b hb => ?_, fun name a ha => ?_⟩ hbinds.2
  · obtain ⟨p, hmem, rfl⟩ := List.mem_map.1 (List.mem_reverse.1 hb)
    rw [← hcurrent]
    exact hp.found p hmem
  · obtain ⟨⟨b, hb, hname⟩, hspace⟩ := hbinds.1.only name a ha
    have hmem : name ∈ declared.map Param.name := by
      rw [hp.names, ← hnames, ← hname]
      exact (hds b hb).resolve_left List.not_mem_nil
    obtain ⟨p, hdeclared, rfl⟩ := List.mem_map.1 hmem
    exact ⟨⟨p.binding, List.mem_reverse.2 (List.mem_map_of_mem hdeclared), rfl⟩, hspace⟩

end OpenBinds

/-! ### What names stand for -/

/-- The symbol of a name, where the name is found: in the first scope that has it, around which the
others are. -/
structure Locates (t : Table) (scopes : List (List Binding)) (ids : List ScopeId) (name : String)
    (a : SymbolId) (c : ScopeId) (outer : List ScopeId) : Prop where
  lookup : lookupBinding scopes name = some a
  suffix : c :: outer <:+ ids
  mem : a ∈ (t.scope c).symbols
  plain : (t.symbol a).isNamespace = false
  /-- The scope is found at the same place of the tree. -/
  tree : ∃ ds rest, ds :: rest <:+ scopes ∧ t.Binds ds c ∧ List.Forall₂ t.Binds rest outer ∧
    ∃ b ∈ ds, b.symbol = some a

/-- A name is found in the tree where it is found in the table. -/
theorem locates_of_lookupFrom {scopes : List (List Binding)} {ids : List ScopeId}
    (h : List.Forall₂ t.Binds scopes ids) (ha : t.lookupFrom ids name = some a) :
    ∃ c outer, t.Locates scopes ids name a c outer := by
  induction h with
  | nil => cases ha
  | @cons ds c rest outer hds hrest ih =>
    unfold lookupFrom at ha ih
    rw [List.findSome?_cons] at ha
    -- the first scope that has the name is the same on both sides
    cases hf : t.findIn c name with
    | some a' =>
      rw [hf] at ha
      cases ha
      obtain ⟨b, hb, hfind, hsymbol⟩ := hds.find?_eq_some hf
      refine ⟨c, outer, ?_, List.suffix_rfl, (findIn_eq_some hf).1, (hds.only name a hf).2,
        ds, rest, List.suffix_rfl, hds, hrest, b, hb, hsymbol⟩
      rw [lookupBinding, List.findSome?_cons, hfind]
      exact hsymbol
    | none =>
      rw [hf] at ha
      obtain ⟨c', outer', hl, hs, hmem, hplain, ds', rest', hs', htree⟩ := ih ha
      refine ⟨c', outer', ?_, hs.trans (List.suffix_cons c outer), hmem, hplain, ds', rest',
        hs'.trans (List.suffix_cons ds rest), htree⟩
      rw [lookupBinding, List.findSome?_cons, hds.find?_eq_none hf]
      exact hl

/-- A name that the table does not find is not found in the tree. -/
theorem lookupBinding_eq_none {scopes : List (List Binding)} {ids : List ScopeId}
    (h : List.Forall₂ t.Binds scopes ids) (hn : t.lookupFrom ids name = none) :
    lookupBinding scopes name = none := by
  induction h with
  | nil => rfl
  | @cons ds c rest outer hds hrest ih =>
    unfold lookupFrom at hn ih
    rw [List.findSome?_cons] at hn
    cases hf : t.findIn c name with
    | some a =>
      rw [hf] at hn
      cases hn
    | none =>
      rw [hf] at hn
      rw [lookupBinding, List.findSome?_cons, hds.find?_eq_none hf]
      exact ih hn

/-- A name that is not found in the scopes further in is looked up in the global one. -/
theorem lookup_eq_or (t : Table) (name : String) :
    t.lookup name = (t.lookupFrom t.inner name).or (t.findIn globalId name) := by
  rw [lookup, open_, List.findSome?_append, List.findSome?_singleton, lookupFrom]

end Table

end ThreadRegions
