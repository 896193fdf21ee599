import ThreadRegions.Proofs.Persistence

/-!
# What a declaration leaves behind for good

Symbols are never removed, and a later declaration of the same name in the same scope changes the
type of a symbol but not what it is.  So the number of a symbol stands for the same declaration from
the moment it is handed out.

## Main Definitions

* `Symbol.origin`: the name, the kind and the region of a symbol
* `Table.Lasts`: all symbols keep their origin, and all scopes their region and their depth
* `Table.Knows`: a number that has been noted down stands for a symbol of the given name
* `Table.HasParams`: parameters are found in the current scope

## Main Results

* `Table.WellFormed.lasts_visit`: nothing that the walk does changes where a symbol comes from
* `hasParams_declareParams`, `hasParams_declareCheckedParams`: parameters get the numbers of their
  symbols
-/

namespace ThreadRegions

open CheckM

/-- What is settled about a symbol when it is declared. -/
def Symbol.origin (s : Symbol) : String × SymbolKind × Nat := (s.name, s.kind, s.region)

/-- What is settled about a scope when it is opened. -/
def Scope.standing (s : Scope) : Nat × Nat := (s.region, s.depth)

namespace Table

/-- The symbols of the first table are in the second one too and come from the same declarations,
and its scopes are in as many regions and in as many scopes. -/
structure Lasts (t t' : Table) : Prop where
  symbols_le : t.symbols.size ≤ t'.symbols.size
  origin : ∀ a, a < t.symbols.size → (t'.symbol a).origin = (t.symbol a).origin
  scopes_le : t.scopes.size ≤ t'.scopes.size
  standing : ∀ c, c < t.scopes.size → (t'.scope c).standing = (t.scope c).standing

namespace Lasts

variable {t t₁ t₂ : Table}

theorem refl (t : Table) : t.Lasts t :=
  ⟨Nat.le_refl _, fun _ _ => rfl, Nat.le_refl _, fun _ _ => rfl⟩

theorem trans (h : t.Lasts t₁) (h' : t₁.Lasts t₂) : t.Lasts t₂ where
  symbols_le := Nat.le_trans h.symbols_le h'.symbols_le
  origin a ha := (h'.origin a (Nat.lt_of_lt_of_le ha h.symbols_le)).trans (h.origin a ha)
  scopes_le := Nat.le_trans h.scopes_le h'.scopes_le
  standing c hc := (h'.standing c (Nat.lt_of_lt_of_le hc h.scopes_le)).trans (h.standing c hc)

theorem name_eq (h : t.Lasts t₁) {a : SymbolId} (ha : a < t.symbols.size) :
    (t₁.symbol a).name = (t.symbol a).name :=
  congrArg Prod.fst (h.origin a ha)

/-- A symbol keeps its kind: a parameter never turns into a local variable. -/
theorem kind_eq (h : t.Lasts t₁) {a : SymbolId} (ha : a < t.symbols.size) :
    (t₁.symbol a).kind = (t.symbol a).kind :=
  congrArg (fun o => o.2.1) (h.origin a ha)

theorem region_eq (h : t.Lasts t₁) {a : SymbolId} (ha : a < t.symbols.size) :
    (t₁.symbol a).region = (t.symbol a).region :=
  congrArg (fun o => o.2.2) (h.origin a ha)

theorem region (h : t.Lasts t₁) (c : ScopeId) (hc : c < t.scopes.size) :
    (t₁.scope c).region = (t.scope c).region :=
  congrArg Prod.fst (h.standing c hc)

theorem depth (h : t.Lasts t₁) (c : ScopeId) (hc : c < t.scopes.size) :
    (t₁.scope c).depth = (t.scope c).depth :=
  congrArg Prod.snd (h.standing c hc)

/-! ### Steps -/

/-- All that is settled about symbols and scopes lasts, and so does this part of it. -/
theorem of_persists (h : t.Persists t₁) : t.Lasts t₁ where
  symbols_le := h.symbols_le
  origin a ha := congrArg (fun b => (b.1, b.2.1, b.2.2.2.2)) (h.symbol a ha)
  scopes_le := h.scopes_le
  standing c hc := congrArg (fun p => (p.2.2, p.2.1)) (h.scope c hc)

theorem setQualifier (t : Table) (id : SymbolId) (q : Qualifier) : t.Lasts (t.setQualifier id q) :=
  of_persists (OpensNone.modifySymbol rfl).toPersists

/-- The modifiers of a function are not part of where it comes from. -/
theorem setFunction (t : Table) (id : SymbolId) (modifier declared : Modifier) :
    t.Lasts (t.setFunction id modifier declared) :=
  of_persists (OpensNone.modifySymbol rfl).toPersists

/-- Any change to a scope that leaves its link, its depth and its region alone. -/
theorem modifyScope {c : ScopeId} {g : Scope → Scope}
    (hg : (g (t.scope c)).place = (t.scope c).place) : t.Lasts (t.modifyScope c g) :=
  of_persists (OpensNone.modifyScope hg).toPersists

/-- A new scope gets a number of its own. -/
theorem openScope (s : Scope) : t.Lasts (t.openScope s) := of_persists (.openScope s)

/-- A scope that has been left is still in the table. -/
theorem popScope (t : Table) : t.Lasts t.popScope := of_persists (OpensNone.popScope t).toPersists

theorem enterRegion (t : Table) : t.Lasts t.enterRegion :=
  of_persists (OpensNone.enterRegion t).toPersists

theorem exitRegion (t : Table) : t.Lasts t.exitRegion :=
  of_persists (OpensNone.exitRegion t).toPersists

/-- What is known about threads is not part of where a symbol comes from. -/
theorem of_sameButThreads (h : t.SameButThreads t₁) : t.Lasts t₁ :=
  of_persists (OpensNone.of_sameButThreads h).toPersists

/-- A name that is declared again in the same scope changes the type of its symbol and no more. -/
theorem add (name : String) (type : Ty) (kind : SymbolKind) :
    t.Lasts (t.add name type kind).1 :=
  of_persists (OpensNone.add name type kind).toPersists

theorem addQualified (name : String) (type : Ty) (kind : SymbolKind) (q : Qualifier) :
    t.Lasts (t.addQualified name type kind q).1 :=
  of_persists (OpensNone.addQualified name type kind q).toPersists

theorem addFunction (name : String) (type : Ty) (modifier declared : Modifier) :
    t.Lasts (t.addFunction name type modifier declared).1 :=
  of_persists (OpensNone.addFunction name type modifier declared).toPersists

theorem addParams (params : List (String × Ty × Qualifier)) : t.Lasts (t.addParams params) :=
  of_persists (OpensNone.addParams params).toPersists

theorem addNamespace {name : String} {id : SymbolId}
    (h : t.addNamespace name = some (t₁, id)) : t.Lasts t₁ :=
  of_persists (OpensNone.addNamespace h).toPersists

/-- A member is a new symbol, or one whose type is replaced. -/
theorem addFunctionToNamespace {space name : String} {type : Ty} {modifier declared : Modifier}
    {id : SymbolId}
    (h : t.addFunctionToNamespace space name type modifier declared = some (t₁, id)) :
    t.Lasts t₁ :=
  of_persists (OpensNone.addFunctionToNamespace h).toPersists

theorem stable : Table.Stable Lasts Lasts where
  refl := refl
  trans := trans
  ofExpr h := h
  stmtTrans := trans
  declare _ _ name type q := addQualified name type _ q
  spawn {_ bound id frozen} _ _ _ hb _ _ :=
    of_sameButThreads ((SameButThreads.bind hb).trans (bound.sameButThreads_looksAt id frozen))
  function _ _ name type modifier declared := addFunction name type modifier declared
  space _ _ _ ha := addNamespace ha
  member _ _ ha := addFunctionToNamespace ha
  wait _ hv := of_sameButThreads (sameButThreads_syncVariable hv)
  scope _ _ _ _ _ h := ((openScope _).trans h).trans (popScope _)
  round name type _ _ _ _ _ h :=
    (((openScope _).trans (add name type .param)).trans h).trans (popScope _)
  frame params _ _ _ _ _ h :=
    ((((openScope _).trans (addParams params)).trans (modifyScope rfl)).trans h).trans (popScope _)
  region {t t'} h := (enterRegion t).trans (h.trans (exitRegion t'))
  stmtRegion {t t'} h := (enterRegion t).trans (h.trans (exitRegion t'))

end Lasts

/-- A property that lasts is an invariant. -/
theorem Invariant.of_lasts {P : Table → Prop} (h : ∀ {t t' : Table}, t.Lasts t' → P t → P t') :
    Invariant fun _ => P where
  declare _ hp name type q := h (.addQualified name type _ q) hp
  spawn {_ _ bound id frozen} _ hp _ hb _ _ :=
    have hsame := (SameButThreads.bind hb).trans (bound.sameButThreads_looksAt id frozen)
    h (.of_sameButThreads hsame) hp
  function _ hp name type modifier declared := h (.addFunction name type modifier declared) hp
  space _ hp _ ha := h (.addNamespace ha) hp
  member _ hp ha := h (.addFunctionToNamespace ha) hp
  wait _ hp hv := h (.of_sameButThreads (sameButThreads_syncVariable hv)) hp
  pushScope _ hp := h (.openScope _) hp
  round name type _ hp := h ((Lasts.openScope _).trans (.add name type .param)) hp
  frame params _ hp :=
    h (((Lasts.openScope _).trans (.addParams params)).trans (.modifyScope rfl)) hp
  popScope _ _ _ hp := h (.popScope _) hp
  popFrame _ _ hp := h (.popScope _) hp
  enterRegion {_ t} hp := h (.enterRegion t) hp
  exitRegion {_ t} hp := h (.exitRegion t) hp

/-- No visit changes where symbols come from. -/
theorem WellFormed.lasts_visit {s : Checker} (hw : s.table.WellFormed) (v : Visit) :
    (v.after s).table.WellFormed ∧ s.table.Lasts (v.after s).table := by
  obtain ⟨hw', -, -, hl⟩ := Lasts.stable.visitAfter s v hw
  exact ⟨hw', hl⟩

/-! ### Numbers that are noted down -/

/-- The number that has been noted down for a declaration is that of a symbol of its name. -/
def Knows (t : Table) (symbol : Option SymbolId) (name : String) : Prop :=
  ∃ id, symbol = some id ∧ id < t.symbols.size ∧ (t.symbol id).name = name

/-- A number that has been noted down stays the right one. -/
theorem Knows.mono {t t' : Table} {symbol : Option SymbolId} {name : String}
    (h : t.Knows symbol name) (hl : t.Lasts t') : t'.Knows symbol name := by
  obtain ⟨id, hs, hlt, hn⟩ := h
  exact ⟨id, hs, Nat.lt_of_lt_of_le hlt hl.symbols_le, (hl.name_eq hlt).trans hn⟩

/-- The number that a declaration hands out is that of a symbol of its name, whether the symbol is
new or has been there. -/
theorem knows_add {t : Table} (hw : t.WellFormed) (name : String) (type : Ty) (kind : SymbolKind) :
    (t.add name type kind).1.Knows (some (t.add name type kind).2) name := by
  refine ⟨_, rfl, ?_⟩
  unfold add
  -- the name may have been declared in this scope before
  split
  · next id hid =>
    refine ⟨(size_modifySymbol ..).symm ▸ hw.lookupCurrent_lt hid, ?_⟩
    rw [setType, view_modifySymbol Symbol.name rfl]
    exact (findIn_eq_some hid).2
  · refine ⟨?_, ?_⟩
    · simp [addNew]
    · rw [symbol_addNew_self]
      rfl

/-- The qualifier is set afterwards, which changes no name. -/
theorem knows_addQualified {t : Table} (hw : t.WellFormed) (name : String) (type : Ty)
    (kind : SymbolKind) (q : Qualifier) :
    (t.addQualified name type kind q).1.Knows (some (t.addQualified name type kind q).2) name :=
  (knows_add hw name type kind).mono (.setQualifier _ _ q)

/-- The modifiers are set afterwards, which changes no name. -/
theorem knows_addFunction {t : Table} (hw : t.WellFormed) (name : String) (type : Ty)
    (modifier declared : Modifier) :
    (t.addFunction name type modifier declared).1.Knows
      (some (t.addFunction name type modifier declared).2) name :=
  (knows_add hw name type _).mono (.setFunction _ _ modifier declared)

end Table

/-! ### Parameters -/

/-- The parameters of the second list are those of the first one, with the numbers of their
symbols. -/
structure Table.DeclaresParams (t : Table) (params declared : List Param) : Prop where
  names : declared.map Param.name = params.map Param.name
  known : ∀ p ∈ declared, t.Knows p.symbol p.name

theorem Table.DeclaresParams.mono {t t' : Table} {params declared : List Param}
    (h : t.DeclaresParams params declared) (hl : t.Lasts t') : t'.DeclaresParams params declared :=
  ⟨h.names, fun p hp => (h.known p hp).mono hl⟩

/-- The same, and the current scope has the symbols under the names of the parameters. -/
structure Table.HasParams (t : Table) (params declared : List Param) : Prop where
  names : declared.map Param.name = params.map Param.name
  found : ∀ p ∈ declared, ∃ a, p.symbol = some a ∧ t.findIn t.current p.name = some a

namespace Table

variable {t : Table} {params declared : List Param}

/-- A symbol that is found in the current scope is in the table, and under its own name. -/
theorem HasParams.declares (h : t.HasParams params declared) (hw : t.WellFormed) :
    t.DeclaresParams params declared := by
  refine ⟨h.names, fun p hp => ?_⟩
  obtain ⟨a, hs, hf⟩ := h.found p hp
  obtain ⟨hmem, hname⟩ := findIn_eq_some hf
  exact ⟨a, hs, (hw.linked _ a hmem).1, hname⟩

theorem HasParams.nil (t : Table) : t.HasParams [] [] := ⟨rfl, nofun⟩

/-- One more parameter, with the number under which it is found. -/
theorem HasParams.cons {p : Param} {a : SymbolId} (hp : t.findIn t.current p.name = some a)
    (h : t.HasParams params declared) :
    t.HasParams (p :: params) ({ p with symbol := some a } :: declared) := by
  refine ⟨congrArg (p.name :: ·) h.names, fun p' hp' => ?_⟩
  rcases List.mem_cons.1 hp' with rfl | hp'
  · exact ⟨a, rfl, hp⟩
  · exact h.found p' hp'

/-- The counters of a scope have nothing to do with what is found in it. -/
theorem HasParams.alignLocals (h : t.HasParams params declared) :
    t.alignLocals.HasParams params declared := by
  refine ⟨h.names, fun p hp => ?_⟩
  obtain ⟨a, hs, hf⟩ := h.found p hp
  exact ⟨a, hs, ((Untouched.modifyScope rfl t.current).findIn_eq p.name).trans hf⟩

/-- A declaration opens no scope. -/
theorem current_addQualified (t : Table) (name : String) (type : Ty) (kind : SymbolKind)
    (q : Qualifier) : (t.addQualified name type kind q).1.current = t.current := by
  rw [current, inner_addQualified]
  rfl

/-- What has just been declared is found under its name. -/
theorem findIn_addQualified_self (hw : t.WellFormed) (name : String) (type : Ty)
    (kind : SymbolKind) (q : Qualifier) :
    (t.addQualified name type kind q).1.findIn (t.addQualified name type kind q).1.current name =
      some (t.addQualified name type kind q).2 := by
  rw [current_addQualified, findIn_addQualified_current hw, if_pos rfl]

/-- A symbol of the current scope is still found when its name has been declared again. -/
theorem findIn_add_of_some (hw : t.WellFormed) {name : String} {a : SymbolId}
    (ha : t.findIn t.current name = some a) (other : String) (type : Ty) (kind : SymbolKind) :
    (t.add other type kind).1.findIn t.current name = some a := by
  rw [findIn_add_current hw]
  split
  · next heq =>
    -- the symbol that is found is the one that is changed
    subst heq
    unfold add lookupCurrent
    rw [ha]
  · exact ha

/-- Parameters that are declared later do not hide a symbol of the same scope, even if they have the
same name. -/
theorem findIn_addParams_of_some (hw : t.WellFormed) {name : String} {a : SymbolId}
    (ha : t.findIn t.current name = some a) (params : List (String × Ty × Qualifier)) :
    (t.addParams params).findIn (t.addParams params).current name = some a := by
  -- the table changes with every parameter, so it is not fixed
  induction params generalizing t with
  | nil => exact ha
  | cons p others ih =>
    refine ih (hw.addQualified p.1 p.2.1 .param p.2.2) ?_
    rw [current_addQualified]
    exact ((Untouched.setQualifier _ _ _ t.current).findIn_eq name).trans
      (findIn_add_of_some hw ha p.1 p.2.1 .param)

end Table

/-- The parameters of a function are noted with the numbers under which its scope finds them. -/
theorem hasParams_declareParams {s : Checker} (hw : s.table.WellFormed)
    (params : List (Param × Ty)) :
    ((declareParams params).after s).table.HasParams (params.map Prod.fst)
      ((declareParams params).answer s) := by
  induction params generalizing s with
  | nil => exact .nil _
  | cons first others ih =>
    obtain ⟨p, t⟩ := first
    have hfound := Table.findIn_addQualified_self hw p.name t .param p.qualifier
    have hothers := ih (s := s.onLedger fun l => (l.addQualified p.name t .param p.qualifier).1)
      (hw.addQualified _ _ _ _)
    -- the first parameter must still be found after the others have been declared
    refine .cons ?_ hothers
    rw [declareParams, after_bind, after_askLedger, after_bind, after_pure, table_declareParams]
    exact Table.findIn_addParams_of_some (hw.addQualified _ _ _ _) hfound _

/-- The same for the parameters of a lambda, whose qualifiers are checked on the way. -/
theorem hasParams_declareCheckedParams {s : Checker} (hw : s.table.WellFormed)
    (params : List Param) :
    ((declareCheckedParams params).after s).table.HasParams params
      ((declareCheckedParams params).answer s) := by
  induction params generalizing s with
  | nil => exact .nil _
  | cons p others ih =>
    -- a qualifier that does not fit is only reported
    let check := CheckM.paramQualifier p.qualifier (p.type.getD .nil) p.span.start
    let s₁ := (reportAny (check.answer s)).after (check.after s)
    have hs₁ : s₁.table.WellFormed := by
      rw [table_reportAny, table_paramQualifier]
      exact hw
    have hfound := Table.findIn_addQualified_self hs₁ p.name (p.type.getD .nil) .param p.qualifier
    have hothers := ih
      (s := s₁.onLedger fun l => (l.addQualified p.name (p.type.getD .nil) .param p.qualifier).1)
      (hs₁.addQualified _ _ _ _)
    refine .cons ?_ hothers
    simp only [declareCheckedParams, after_bind, after_askLedger, after_pure,
      table_declareCheckedParams]
    exact Table.findIn_addParams_of_some (hs₁.addQualified _ _ _ _) hfound _

/-! ### Entering and leaving -/

section

variable (s : Checker)

theorem lasts_enterRegionIf (enabled : Bool) :
    s.table.Lasts ((enterRegionIf enabled).after s).table := by
  cases enabled with
  | false => exact .refl _
  | true => exact .enterRegion _

theorem lasts_exitRegionIf (enabled : Bool) :
    s.table.Lasts ((exitRegionIf enabled).after s).table := by
  cases enabled with
  | false => exact .refl _
  | true => exact .exitRegion _

theorem lasts_popScope : s.table.Lasts (s.onLedger Ledger.popScope).table := by
  rw [Checker.table_onLedger, Ledger.table_popScope]
  exact .popScope _

/-- The variable of a loop is declared in a scope of its own, and after that the region is entered.
-/
theorem lasts_enterRound (name : String) (element : Ty) (shared : Bool) :
    s.table.Lasts ((enterRound name element shared).after s).table := by
  have hadd : s.table.Lasts (s.table.pushScope.add name element .param).1 :=
    (Table.Lasts.openScope _).trans (.add _ _ _)
  exact hadd.trans (lasts_enterRegionIf ((s.onLedger Ledger.pushScope).onLedger
    fun l => (l.add name element .param).1) (!shared))

omit s in
/-- The number of the variable of a loop is still the right one inside of the region. -/
theorem knows_enterRound {s : Checker} (hw : s.table.WellFormed) (name : String) (element : Ty)
    (shared : Bool) :
    ((enterRound name element shared).after s).table.Knows
      (some (s.table.pushScope.add name element .param).2) name :=
  (Table.knows_add hw.pushScope name element .param).mono
    (lasts_enterRegionIf ((s.onLedger Ledger.pushScope).onLedger
      fun l => (l.add name element .param).1) (!shared))

/-- A function enters its region first, then opens its frame and declares its parameters there. -/
theorem lasts_enterFunction (head : FunctionHead) :
    s.table.Lasts ((enterFunction head).after s).table := by
  rw [table_enterFunction]
  exact (((lasts_enterRegionIf s _).trans (.openScope _)).trans (.addParams _)).trans
    (.modifyScope rfl)

end

end ThreadRegions
