import ThreadRegions.Proofs.Reach

/-!
# What names stand for

While an expression is checked, scopes are opened and closed and names are declared in them.  None
of this changes what the names around the expression stand for: a name that is visible before stands
for the same symbol afterwards, and the symbol has the same type.  A statement may declare names in
the current scope, so across a statement this is true only of the scopes further out.

## Main Definitions

* `Table.lookupFrom`: finding a name in some of the scopes
* `Table.SameNames`: the names that are found in some scopes keep their symbols and types
* `Table.KeepsNames`, `Table.KeepsOuterNames`: the same for all open scopes, and for those around
  the current one

## Main Results

* `Table.names_stable`: no step changes what names stand for
* `lookup_checkExpr`: checking an expression does not change what a visible name stands for
-/

namespace ThreadRegions

open CheckM

namespace Table

/-- The symbol of a name in the first of the given scopes that has one. -/
def lookupFrom (t : Table) (scopes : List ScopeId) (name : String) : Option SymbolId :=
  scopes.findSome? fun c => t.findIn c name

/-- A visible name is found in the open scopes. -/
theorem lookup_eq_lookupFrom (t : Table) (name : String) :
    t.lookup name = t.lookupFrom t.open_ name := rfl

/-- A name that is found in the given scopes keeps its symbol, and the symbol its type. -/
def SameNames (scopes : List ScopeId) (t t' : Table) : Prop :=
  ∀ name a, t.lookupFrom scopes name = some a →
    t'.lookupFrom scopes name = some a ∧ (t'.symbol a).type = (t.symbol a).type

theorem SameNames.refl (scopes : List ScopeId) (t : Table) : SameNames scopes t t :=
  fun _ _ h => ⟨h, rfl⟩

theorem SameNames.trans {scopes : List ScopeId} {t t₁ t₂ : Table} (h : SameNames scopes t t₁)
    (h' : SameNames scopes t₁ t₂) : SameNames scopes t t₂ := by
  intro name a ha
  obtain ⟨h₁, htype₁⟩ := h name a ha
  obtain ⟨h₂, htype₂⟩ := h' name a h₁
  exact ⟨h₂, htype₂.trans htype₁⟩

/-! ### Scopes that a step does not touch -/

/-- The scope holds the same symbols, with the same names and types. -/
structure Untouched (t t' : Table) (c : ScopeId) : Prop where
  symbols : (t'.scope c).symbols = (t.scope c).symbols
  name : ∀ a ∈ (t.scope c).symbols, (t'.symbol a).name = (t.symbol a).name
  type : ∀ a ∈ (t.scope c).symbols, (t'.symbol a).type = (t.symbol a).type

namespace Untouched

variable {t t₁ t₂ : Table} {c : ScopeId}

theorem refl (t : Table) (c : ScopeId) : Untouched t t c := ⟨rfl, fun _ _ => rfl, fun _ _ => rfl⟩

theorem trans (h : Untouched t t₁ c) (h' : Untouched t₁ t₂ c) : Untouched t t₂ c := by
  refine ⟨h'.symbols.trans h.symbols, fun a ha => ?_, fun a ha => ?_⟩
  · rw [h'.name a (h.symbols ▸ ha), h.name a ha]
  · rw [h'.type a (h.symbols ▸ ha), h.type a ha]

/-- Among symbols that keep their names, a name is found as before. -/
theorem find?_congr {ids : List SymbolId}
    (h : ∀ a ∈ ids, (t₁.symbol a).name = (t.symbol a).name) (name : String) :
    ids.find? (fun a => (t₁.symbol a).name = name) =
      ids.find? (fun a => (t.symbol a).name = name) := by
  induction ids with
  | nil => rfl
  | cons a others ih =>
    obtain ⟨ha, hothers⟩ := List.forall_mem_cons.1 h
    rw [List.find?_cons, List.find?_cons, ha, ih hothers]

/-- In a scope that is not touched, a name is found as before. -/
theorem findIn_eq (h : Untouched t t₁ c) (name : String) : t₁.findIn c name = t.findIn c name := by
  unfold findIn findLast
  rw [h.symbols]
  exact find?_congr (fun a ha => h.name a (List.mem_reverse.1 ha)) name

theorem lookupFrom_eq {scopes : List ScopeId} (h : ∀ c ∈ scopes, Untouched t t₁ c)
    (name : String) : t₁.lookupFrom scopes name = t.lookupFrom scopes name := by
  induction scopes with
  | nil => rfl
  | cons c others ih =>
    obtain ⟨hc, hothers⟩ := List.forall_mem_cons.1 h
    have hrest := ih hothers
    unfold lookupFrom at hrest ⊢
    rw [List.findSome?_cons, List.findSome?_cons, hc.findIn_eq, hrest]

/-- What is found in scopes that are not touched keeps its type. -/
theorem sameNames {scopes : List ScopeId} (h : ∀ c ∈ scopes, Untouched t t₁ c) :
    SameNames scopes t t₁ := by
  intro name a ha
  rw [lookupFrom_eq h]
  -- the symbol is in one of the scopes, which says that its type is kept
  obtain ⟨c, hc, hf⟩ := List.exists_of_findSome?_eq_some ha
  exact ⟨ha, (h c hc).type a (findIn_eq_some hf).1⟩

/-- Threads have nothing to do with names and types. -/
theorem of_sameButThreads (h : t.SameButThreads t₁) (c : ScopeId) : Untouched t t₁ c :=
  ⟨by rw [h.scope_eq], fun a _ => h.field Symbol.name (fun _ => rfl) a,
    fun a _ => h.field Symbol.type (fun _ => rfl) a⟩

theorem modifySymbol {id : SymbolId} {f : Symbol → Symbol}
    (hn : (f (t.symbol id)).name = (t.symbol id).name)
    (ht : (f (t.symbol id)).type = (t.symbol id).type) (c : ScopeId) :
    Untouched t (t.modifySymbol id f) c :=
  ⟨rfl, fun a _ => view_modifySymbol Symbol.name hn a,
    fun a _ => view_modifySymbol Symbol.type ht a⟩

theorem setType {id : SymbolId} (type : Ty) (hid : id ∉ (t.scope c).symbols) :
    Untouched t (t.setType id type) c := by
  have hne : ∀ a ∈ (t.scope c).symbols, a ≠ id := by
    intro a ha heq
    exact hid (heq ▸ ha)
  refine ⟨rfl, fun a ha => ?_, fun a ha => ?_⟩
  · rw [Table.setType, symbol_modifySymbol_of_ne (hne a ha)]
  · rw [Table.setType, symbol_modifySymbol_of_ne (hne a ha)]

theorem setQualifier (t : Table) (id : SymbolId) (q : Qualifier) (c : ScopeId) :
    Untouched t (t.setQualifier id q) c :=
  modifySymbol rfl rfl c

theorem setFunction (t : Table) (id : SymbolId) (modifier declared : Modifier) (c : ScopeId) :
    Untouched t (t.setFunction id modifier declared) c :=
  modifySymbol rfl rfl c

/-- A change of a scope that keeps its symbols. -/
theorem modifyScope {d : ScopeId} {g : Scope → Scope}
    (hg : (g (t.scope d)).symbols = (t.scope d).symbols) (c : ScopeId) :
    Untouched t (t.modifyScope d g) c :=
  ⟨view_modifyScope Scope.symbols hg c, fun _ _ => rfl, fun _ _ => rfl⟩

/-- A new symbol is in no scope yet. -/
theorem pushSymbol (hw : t.WellFormed) (s : Symbol) (c : ScopeId) :
    Untouched t (t.pushSymbol s) c := by
  have hne : ∀ a ∈ (t.scope c).symbols, a ≠ t.symbols.size := fun a ha =>
    Nat.ne_of_lt (hw.linked c a ha).1
  refine ⟨rfl, fun a ha => ?_, fun a ha => ?_⟩
  · rw [symbol_pushSymbol_of_ne s (hne a ha)]
  · rw [symbol_pushSymbol_of_ne s (hne a ha)]

/-- A declaration touches the current scope only. -/
theorem add (hw : t.WellFormed) (hc : c ≠ t.current) (name : String) (type : Ty)
    (kind : SymbolKind) : Untouched t (t.add name type kind).1 c := by
  unfold Table.add
  split
  · next id hid =>
    -- the symbol belongs to the current scope, so no other scope holds it
    refine setType type fun hmem => hc ?_
    have hcurrent := (hw.linked _ id (findIn_eq_some hid).1).2
    rw [← (hw.linked c id hmem).2, hcurrent]
  · refine (pushSymbol hw _ c).trans ⟨?_, fun _ _ => rfl, fun _ _ => rfl⟩
    exact congrArg Scope.symbols (scope_modifyScope_of_ne hc)

theorem addQualified (hw : t.WellFormed) (hc : c ≠ t.current) (name : String) (type : Ty)
    (kind : SymbolKind) (q : Qualifier) : Untouched t (t.addQualified name type kind q).1 c :=
  (add hw hc name type kind).trans (setQualifier _ _ q c)

theorem addFunction (hw : t.WellFormed) (hc : c ≠ t.current) (name : String) (type : Ty)
    (modifier declared : Modifier) :
    Untouched t (t.addFunction name type modifier declared).1 c :=
  (add hw hc name type _).trans (setFunction _ _ modifier declared c)

theorem addParams (hw : t.WellFormed) (hc : c ≠ t.current)
    (params : List (String × Ty × Qualifier)) : Untouched t (t.addParams params) c := by
  induction params generalizing t with
  | nil => exact refl t c
  | cons p others ih =>
    refine (addQualified hw hc p.1 p.2.1 .param p.2.2).trans (ih (hw.addQualified _ _ _ _) ?_)
    rwa [current, inner_addQualified]

/-- A new member of a namespace belongs to no scope. -/
theorem addToNamespace (hw : t.WellFormed) {space name : String} {type : Ty} {id : SymbolId}
    (h : t.addToNamespace space name type = some (t₁, id)) (c : ScopeId) : Untouched t t₁ c := by
  obtain ⟨b, -, hb⟩ := Option.map_eq_some_iff.1 h
  -- the namespace may have had a member of that name, which is in no scope
  split at hb
  · next hm =>
    cases hb
    exact setType type ((hw.members b _ (List.mem_of_find?_eq_some hm)).2 c)
  · cases hb
    exact (pushSymbol hw _ c).trans (modifySymbol rfl rfl c)

/-- The modifiers of a member have nothing to do with its name. -/
theorem addFunctionToNamespace (hw : t.WellFormed) {space name : String} {type : Ty}
    {modifier declared : Modifier} {id : SymbolId}
    (h : t.addFunctionToNamespace space name type modifier declared = some (t₁, id))
    (c : ScopeId) : Untouched t t₁ c := by
  obtain ⟨⟨t₂, a⟩, hadd, hb⟩ := Option.map_eq_some_iff.1 h
  cases hb
  exact (addToNamespace hw hadd c).trans (setFunction _ _ modifier declared c)

/-- A new scope has a number of its own. -/
theorem openScope {s : Scope} (hc : c < t.scopes.size) : Untouched t (t.openScope s) c :=
  ⟨by rw [scope_openScope_of_ne s (Nat.ne_of_lt hc)], fun _ _ => rfl, fun _ _ => rfl⟩

/-- A scope that is left gives its counters to the scope around it, and no symbols. -/
theorem popScope (t : Table) (c : ScopeId) : Untouched t t.popScope c := by
  unfold Table.popScope
  split
  · exact refl t c
  · next child outer _ =>
    exact ⟨view_modifyScope (t := { t with inner := outer }) Scope.symbols rfl c, fun _ _ => rfl,
      fun _ _ => rfl⟩

end Untouched

/-- A declaration gives its name a meaning in the current scope and leaves the other names alone. -/
theorem findIn_add_current {t : Table} (hw : t.WellFormed) (x : String) (type : Ty)
    (kind : SymbolKind) (name : String) :
    (t.add x type kind).1.findIn t.current name =
      if name = x then some (t.add x type kind).2 else t.findIn t.current name := by
  unfold add
  split
  · next id hid =>
    -- the type of a symbol has nothing to do with finding it
    have hsame : (t.setType id type).findIn t.current name = t.findIn t.current name := by
      unfold findIn findLast
      have hn : ∀ a, ((t.setType id type).symbol a).name = (t.symbol a).name :=
        view_modifySymbol Symbol.name rfl
      simp only [hn]
      rfl
    rw [hsame]
    split
    · next hx => rw [hx]; exact hid
    · rfl
  · -- the new symbol is the last one of the scope and is found first
    have hold : ∀ a ∈ (t.scope t.current).symbols.reverse,
        ((t.addNew x type kind).symbol a).name = (t.symbol a).name := by
      intro a ha
      have hlt := (hw.linked _ a (List.mem_reverse.1 ha)).1
      exact congrArg Symbol.name (symbol_addNew_of_lt t x type kind hlt)
    have hnew : ((t.addNew x type kind).symbol t.symbols.size).name = x :=
      congrArg Symbol.name (symbol_addNew_self t x type kind)
    have hsymbols : ((t.addNew x type kind).scope t.current).symbols =
        (t.scope t.current).symbols ++ [t.symbols.size] :=
      congrArg Scope.symbols (scope_addNew_self t x type kind hw)
    unfold findIn findLast
    simp only [hsymbols, List.reverse_append, List.reverse_cons, List.reverse_nil, List.nil_append,
      List.cons_append, List.find?_cons, hnew]
    by_cases hx : name = x
    · simp [hx]
    · simp only [Ne.symm hx, decide_false, hx, if_false]
      exact Untouched.find?_congr hold name

theorem findIn_addQualified_current {t : Table} (hw : t.WellFormed) (x : String) (type : Ty)
    (kind : SymbolKind) (q : Qualifier) (name : String) :
    (t.addQualified x type kind q).1.findIn t.current name =
      if name = x then some (t.addQualified x type kind q).2 else t.findIn t.current name :=
  ((Untouched.setQualifier _ _ q t.current).findIn_eq name).trans
    (findIn_add_current hw x type kind name)

/-! ### All steps -/

/-- Every open scope keeps what its names stand for, also where inner scopes hide them. -/
def KeepsNames (t t' : Table) : Prop :=
  t'.inner = t.inner ∧ ∀ scopes, scopes <:+ t.open_ → SameNames scopes t t'

/-- The scopes around the current one keep what their names stand for. -/
def KeepsOuterNames (t t' : Table) : Prop :=
  t'.inner = t.inner ∧ ∀ scopes, scopes <:+ t.open_.tail → SameNames scopes t t'

/-- A step that touches no open scope. -/
theorem KeepsNames.of_untouched {t t' : Table} (hi : t'.inner = t.inner)
    (h : ∀ c ∈ t.open_, Untouched t t' c) : KeepsNames t t' :=
  ⟨hi, fun _ hs => Untouched.sameNames fun c hc => h c (hs.subset hc)⟩

/-- A step that touches the current scope at most. -/
theorem KeepsOuterNames.of_untouched {t t' : Table} (hi : t'.inner = t.inner)
    (h : ∀ c ∈ t.open_.tail, Untouched t t' c) : KeepsOuterNames t t' :=
  ⟨hi, fun _ hs => Untouched.sameNames fun c hc => h c (hs.subset hc)⟩

theorem open_eq_of_inner_eq {t t' : Table} (h : t'.inner = t.inner) : t'.open_ = t.open_ := by
  unfold open_
  rw [h]

/-- The scopes around the current one are open too. -/
theorem KeepsNames.outer {t t' : Table} (h : KeepsNames t t') : KeepsOuterNames t t' :=
  ⟨h.1, fun scopes hs => h.2 scopes (hs.trans (List.tail_suffix _))⟩

/-- The scopes around the current one have smaller numbers. -/
theorem WellFormed.ne_current_of_mem_tail {t : Table} (h : t.WellFormed) {c : ScopeId}
    (hc : c ∈ t.open_.tail) : c ≠ t.current := by
  have hs := h.sorted
  cases hi : t.inner with
  | nil => simp [open_, hi] at hc
  | cons d outer =>
    rw [open_, hi, List.cons_append, List.pairwise_cons] at hs
    rw [open_, hi, List.cons_append, List.tail_cons] at hc
    rw [current, hi, List.headD_cons]
    exact Nat.ne_of_lt (hs.1 c hc)

/-- A namespace is added whose name is not visible. -/
theorem KeepsNames.addNamespace {t t' : Table} {name : String} {id : SymbolId} (hw : t.WellFormed)
    (hl : t.lookup name = none) (ha : t.addNamespace name = some (t', id)) : KeepsNames t t' := by
  obtain ⟨-, -, rfl⟩ := addNamespace_eq_some ha
  refine ⟨rfl, fun scopes hs other a hother => ?_⟩
  -- the other name is visible and the new one is not
  have hne : other ≠ name := by
    rintro rfl
    obtain ⟨c, hc, hf⟩ := List.exists_of_findSome?_eq_some hother
    have hnone := List.findSome?_eq_none_iff.1 hl c (hs.subset hc)
    rw [hf] at hnone
    cases hnone
  have hpush := fun c => Untouched.pushSymbol hw (.fresh name .nil .namespace_ globalId) c
  obtain ⟨hfound, htype⟩ := Untouched.sameNames (fun c _ => hpush c) other a hother
  refine ⟨?_, htype⟩
  -- at the end of the global scope, a symbol of another name is not found
  have hfind : ∀ c, ((t.pushSymbol (.fresh name .nil .namespace_ globalId)).modifyScope globalId
      fun s => { s with symbols := s.symbols ++ [t.symbols.size] }).findIn c other =
        (t.pushSymbol (.fresh name .nil .namespace_ globalId)).findIn c other := by
    intro c
    by_cases hc : c = globalId
    · subst hc
      unfold findIn findLast
      rw [scope_modifyScope_self (by exact hw.global_lt)]
      simp only [List.reverse_append, List.reverse_cons, List.reverse_nil, List.nil_append,
        List.cons_append, symbol_modifyScope]
      rw [List.find?_cons_of_neg]
      · rfl
      · simpa [symbol_pushSymbol_self, Symbol.fresh] using Ne.symm hne
    · unfold findIn
      rw [scope_modifyScope_of_ne hc]
      rfl
  unfold lookupFrom at hfound ⊢
  simp only [hfind]
  exact hfound

theorem KeepsNames.popScope {t entered t' : Table} (hi : t'.inner = t.scopes.size :: t.inner)
    (hentered : entered.inner = t.scopes.size :: t.inner)
    (hin : ∀ c ∈ t.open_, Untouched t entered c) (hr : KeepsOuterNames entered t') :
    KeepsNames t t'.popScope := by
  refine ⟨by rw [inner_popScope, hi, List.tail_cons], fun scopes hs => ?_⟩
  -- seen from inside, the scopes around are all that were open before
  have htail : entered.open_.tail = t.open_ := by rw [open_, hentered]; rfl
  have hto : SameNames scopes t entered := Untouched.sameNames fun c hc => hin c (hs.subset hc)
  have hpop : SameNames scopes t' t'.popScope := Untouched.sameNames fun c _ => .popScope t' c
  exact (hto.trans (hr.2 scopes (htail ▸ hs))).trans hpop

/-- No step changes what names stand for, apart from those that a statement declares in the current
scope. -/
theorem names_stable : Table.Stable KeepsNames KeepsOuterNames where
  refl t := ⟨rfl, fun scopes _ => .refl scopes t⟩
  trans h₁ h₂ := by
    refine ⟨h₂.1.trans h₁.1, fun scopes hs => (h₁.2 scopes hs).trans (h₂.2 scopes ?_)⟩
    rwa [open_eq_of_inner_eq h₁.1]
  ofExpr h := h.outer
  stmtTrans h₁ h₂ := by
    refine ⟨h₂.1.trans h₁.1, fun scopes hs => (h₁.2 scopes hs).trans (h₂.2 scopes ?_)⟩
    rwa [open_eq_of_inner_eq h₁.1]
  declare _ hw name type q :=
    .of_untouched (inner_addQualified ..) fun _ hc =>
      .addQualified hw (hw.ne_current_of_mem_tail hc) name type _ q
  spawn {t bound id frozen} _ hw hd hb hn hv := by
    have hsame := (SameButThreads.bind hb).trans (bound.sameButThreads_looksAt id frozen)
    exact .of_untouched hsame.inner fun c _ => .of_sameButThreads hsame c
  function _ hw name type modifier declared :=
    .of_untouched (inner_add ..) fun _ hc =>
      .addFunction hw (hw.ne_current_of_mem_tail hc) name type modifier declared
  space _ hw hl ha := (KeepsNames.addNamespace hw hl ha).outer
  member _ hw ha :=
    .of_untouched (addFunctionToNamespace_eq_some ha).1 fun c _ => .addFunctionToNamespace hw ha c
  wait hw hv :=
    .of_untouched (sameButThreads_syncVariable hv).inner fun c _ =>
      .of_sameButThreads (sameButThreads_syncVariable hv) c
  scope _ hw _ hi _ hr :=
    .popScope hi rfl (fun _ hc => .openScope (hw.open_lt hc)) hr
  round name type _ hw _ hi _ hr := by
    refine .popScope hi (inner_add ..) (fun c hc => ?_) hr
    refine (Untouched.openScope (hw.open_lt hc)).trans (.add hw.pushScope ?_ name type .param)
    exact Nat.ne_of_lt (hw.open_lt hc)
  frame params _ hw _ hi _ hr := by
    refine .popScope hi (inner_addParams ..) (fun c hc => ?_) hr
    refine ((Untouched.openScope (hw.open_lt hc)).trans (.addParams hw.pushFrame ?_ params)).trans
      (.modifyScope rfl c)
    exact Nat.ne_of_lt (hw.open_lt hc)
  region h := h
  stmtRegion h := h

end Table

/-- Checking an expression does not change what a visible name stands for. -/
theorem lookup_checkExpr {s : Checker} (hw : s.table.WellFormed) (hint : Option Ty) (e : Expr)
    {name : String} {a : SymbolId} (ha : s.table.lookup name = some a) :
    ((checkExpr hint e).after s).table.lookup name = some a ∧
      (((checkExpr hint e).after s).table.symbol a).type = (s.table.symbol a).type := by
  have hk : Table.Evolves Table.KeepsNames s.table ((checkExpr hint e).after s).table :=
    Table.names_stable.visit ⟨s, .expr hint e⟩
  obtain ⟨-, hi, -, -, hnames⟩ := hk hw
  obtain ⟨hl, ht⟩ := hnames _ List.suffix_rfl name a ha
  refine ⟨?_, ht⟩
  rw [Table.lookup_eq_lookupFrom, Table.open_eq_of_inner_eq hi]
  exact hl

end ThreadRegions
