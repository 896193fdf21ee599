import ThreadRegions.Proofs.Accept
import ThreadRegions.Proofs.Surroundings
import ThreadRegions.Proofs.Unmerged

/-!
# What an imported module leaves in the global scope

A module with a namespace is checked in a scope of its own, which is closed at its end.  Its
declarations go into that scope, and its functions become members of the namespace.  Namespaces
themselves always go into the global scope, also those of the imports inside of the module.  So the
global scope gets the namespace of an import, then those of the imports inside of its module, and
nothing else.

## Main Definitions

* `Table.AddsSpaces`: the global scope has got new namespaces, and nothing else
* `spacesOf`: the namespaces of imports

## Main Results

* `Table.spaces_stable`: no step adds anything but namespaces to the global scope, apart from the
  declarations that stand there
* `checkStmt_import_addsSpaces`: what an import adds to the global scope
* `checkStmt_import_adds_two`: an import that adds two namespaces

## Design Notes

What is added at all is a matter of the steps, and holds for every tree.  Which namespaces these are
follows from the rules for accepted programs.
-/

namespace ThreadRegions

open CheckM

/-! ### New namespaces -/

/-- If a scope is open, the global one is not the current one. -/
theorem Table.WellFormed.globalId_ne_current {t : Table} (hw : t.WellFormed)
    (hi : t.inner ≠ []) : globalId ≠ t.current := by
  cases hinner : t.inner with
  | nil => exact absurd hinner hi
  | cons c outer =>
    rw [current, hinner, List.headD_cons]
    exact (hw.ne_globalId (hinner ▸ List.mem_cons_self)).symm

/-- The global scope has the symbols that it had and after them new ones, which are namespaces with
the given names. -/
structure Table.AddsSpaces (t t' : Table) (names : List String) : Prop where
  lasts : t.Lasts t'
  added : ∃ added : List SymbolId,
    (t'.scope globalId).symbols = (t.scope globalId).symbols ++ added ∧
      (∀ a ∈ added, t.symbols.size ≤ a ∧ a < t'.symbols.size ∧
        (t'.symbol a).kind = .namespace_) ∧
      added.map (fun a => (t'.symbol a).name) = names

namespace Table.AddsSpaces

variable {t t₁ t₂ : Table} {names names₁ names₂ : List String}

/-- A step that leaves the global scope alone. -/
theorem of_untouched (hl : t.Lasts t₁) (hu : Untouched t t₁ globalId) : t.AddsSpaces t₁ [] :=
  ⟨hl, [], by rw [hu.symbols, List.append_nil], nofun, rfl⟩

theorem refl (t : Table) : t.AddsSpaces t [] := of_untouched (.refl t) (.refl t globalId)

/-- The namespaces of two steps, in order.  The second step changes neither the names nor the kinds
of the symbols that the first one has added. -/
theorem trans (h₁ : t.AddsSpaces t₁ names₁) (h₂ : t₁.AddsSpaces t₂ names₂) :
    t.AddsSpaces t₂ (names₁ ++ names₂) := by
  obtain ⟨hl₁, added₁, hsymbols₁, hnew₁, hnames₁⟩ := h₁
  obtain ⟨hl₂, added₂, hsymbols₂, hnew₂, hnames₂⟩ := h₂
  refine ⟨hl₁.trans hl₂, added₁ ++ added₂, ?_, ?_, ?_⟩
  · rw [hsymbols₂, hsymbols₁, List.append_assoc]
  · intro a ha
    rcases List.mem_append.1 ha with ha | ha
    · obtain ⟨hle, hlt, hkind⟩ := hnew₁ a ha
      exact ⟨hle, Nat.lt_of_lt_of_le hlt hl₂.symbols_le, (hl₂.kind_eq hlt).trans hkind⟩
    · obtain ⟨hle, hlt, hkind⟩ := hnew₂ a ha
      exact ⟨Nat.le_trans hl₁.symbols_le hle, hlt, hkind⟩
  · have hold : added₁.map (fun a => (t₂.symbol a).name) =
        added₁.map fun a => (t₁.symbol a).name :=
      List.map_congr_left fun a ha => hl₂.name_eq (hnew₁ a ha).2.1
    rw [List.map_append, hold, hnames₁, hnames₂]

theorem after (h : t₁.AddsSpaces t₂ names) (h₀ : t.AddsSpaces t₁ []) : t.AddsSpaces t₂ names :=
  h₀.trans h

theorem before (h : t.AddsSpaces t₁ names) (h₀ : t₁.AddsSpaces t₂ []) : t.AddsSpaces t₂ names := by
  have hboth := h.trans h₀
  rwa [List.append_nil] at hboth

/-- Threads have nothing to do with scopes. -/
theorem of_sameButThreads (h : t.SameButThreads t₁) : t.AddsSpaces t₁ [] :=
  of_untouched (.of_sameButThreads h) (.of_sameButThreads h globalId)

/-- A namespace goes into the global scope wherever it is added. -/
theorem addNamespace {name : String} {id : SymbolId} (hw : t.WellFormed)
    (h : t.addNamespace name = some (t₁, id)) : t.AddsSpaces t₁ [name] := by
  refine ⟨.addNamespace h, [t.symbols.size], ?_⟩
  obtain ⟨-, -, rfl⟩ := addNamespace_eq_some h
  have hself := symbol_pushSymbol_self (t := t) (.fresh name .nil .namespace_ globalId)
  refine ⟨?_, ?_, ?_⟩
  · rw [scope_modifyScope_self (by exact hw.global_lt)]
    rfl
  · rintro a ha
    obtain rfl := List.mem_singleton.1 ha
    refine ⟨Nat.le_refl _, ?_, ?_⟩
    · exact (size_pushSymbol ..).symm ▸ Nat.lt_succ_self _
    · rw [symbol_modifyScope, hself]
      rfl
  · rw [List.map_singleton, symbol_modifyScope, hself]
    rfl

/-- A new scope has another number than the global one. -/
theorem openScope (hw : t.WellFormed) (s : Scope) : t.AddsSpaces (t.openScope s) [] :=
  of_untouched (.openScope s) (.openScope hw.global_lt)

/-- A scope that is left gives its counters to the scope around it, and no symbols. -/
theorem popScope (t : Table) : t.AddsSpaces t.popScope [] :=
  of_untouched (.popScope t) (.popScope t globalId)

/-- The variable of a loop is declared in the scope of the round. -/
theorem round (hw : t.WellFormed) (name : String) (type : Ty) :
    t.AddsSpaces (t.pushScope.add name type .param).1 [] := by
  -- the parameter goes into the new scope, which has another number than the global one
  have hcurrent : globalId ≠ t.pushScope.current := Nat.ne_of_lt hw.global_lt
  exact (of_untouched (.add name type .param) (.add hw.pushScope hcurrent name type .param)).after
    (openScope hw _)

theorem frame (hw : t.WellFormed) (params : List (String × Ty × Qualifier)) :
    t.AddsSpaces (t.pushFrame.addParams params).alignLocals [] := by
  have hparams : t.pushFrame.AddsSpaces (t.pushFrame.addParams params) [] :=
    of_untouched (.addParams params) (.addParams hw.pushFrame (Nat.ne_of_lt hw.global_lt) params)
  exact ((of_untouched (.modifyScope rfl) (.modifyScope rfl globalId)).after hparams).after
    (openScope hw _)

theorem enterRegion (t : Table) : t.AddsSpaces t.enterRegion [] :=
  of_untouched (.enterRegion t) ⟨rfl, fun _ _ => rfl, fun _ _ => rfl⟩

theorem exitRegion (t : Table) : t.AddsSpaces t.exitRegion [] :=
  of_untouched (.exitRegion t) ⟨rfl, fun _ _ => rfl, fun _ _ => rfl⟩

/-- A declaration in a scope inside of the global one. -/
theorem addQualified (hw : t.WellFormed) (hi : t.inner ≠ []) (name : String) (type : Ty)
    (kind : SymbolKind) (q : Qualifier) : t.AddsSpaces (t.addQualified name type kind q).1 [] :=
  of_untouched (.addQualified name type kind q)
    (.addQualified hw (hw.globalId_ne_current hi) name type kind q)

theorem addFunction (hw : t.WellFormed) (hi : t.inner ≠ []) (name : String) (type : Ty)
    (modifier declared : Modifier) :
    t.AddsSpaces (t.addFunction name type modifier declared).1 [] :=
  of_untouched (.addFunction name type modifier declared)
    (.addFunction hw (hw.globalId_ne_current hi) name type modifier declared)

/-- Members are listed at their namespace and stand in no scope. -/
theorem addFunctionToNamespace (hw : t.WellFormed) {space name : String} {type : Ty}
    {modifier declared : Modifier} {id : SymbolId}
    (h : t.addFunctionToNamespace space name type modifier declared = some (t₁, id)) :
    t.AddsSpaces t₁ [] :=
  of_untouched (.addFunctionToNamespace h) (.addFunctionToNamespace hw h globalId)

end Table.AddsSpaces

/-! ### All steps -/

namespace Table

/-- The same scopes are open, and the global scope has got namespaces only. -/
def GrowsBySpaces (t t' : Table) : Prop :=
  t'.inner = t.inner ∧ ∃ names, t.AddsSpaces t' names

/-- The same, if the current scope is not the global one. -/
def GrowsBySpacesInside (t t' : Table) : Prop :=
  t'.inner = t.inner ∧ ∃ names, t.inner ≠ [] → t.AddsSpaces t' names

/-- A step that leaves the global scope alone as long as it is not the current one. -/
theorem GrowsBySpacesInside.of_quiet {t t' : Table} (hi : t'.inner = t.inner)
    (h : t.inner ≠ [] → t.AddsSpaces t' []) : t.GrowsBySpacesInside t' := ⟨hi, [], h⟩

/-- A scope has been entered, and it is left again. -/
theorem GrowsBySpaces.popScope {t entered t' : Table} (h₀ : t.AddsSpaces entered [])
    (hentered : entered.inner ≠ []) (hi : t'.inner = t.scopes.size :: t.inner)
    (h : entered.GrowsBySpacesInside t') : t.GrowsBySpaces t'.popScope := by
  obtain ⟨-, names, h⟩ := h
  refine ⟨by rw [inner_popScope, hi, List.tail_cons], names, ?_⟩
  exact ((h hentered).after h₀).before (.popScope t')

/-- No step adds anything but namespaces to the global scope, apart from the declarations that stand
there. -/
theorem spaces_stable : Table.Stable GrowsBySpaces GrowsBySpacesInside where
  refl t := ⟨rfl, [], .refl t⟩
  trans h₁ h₂ := by
    obtain ⟨hi₁, names₁, h₁⟩ := h₁
    obtain ⟨hi₂, names₂, h₂⟩ := h₂
    exact ⟨hi₂.trans hi₁, names₁ ++ names₂, h₁.trans h₂⟩
  ofExpr h := by
    obtain ⟨hi, names, h⟩ := h
    exact ⟨hi, names, fun _ => h⟩
  stmtTrans h₁ h₂ := by
    obtain ⟨hi₁, names₁, h₁⟩ := h₁
    obtain ⟨hi₂, names₂, h₂⟩ := h₂
    exact ⟨hi₂.trans hi₁, names₁ ++ names₂, fun hi => (h₁ hi).trans (h₂ (hi₁ ▸ hi))⟩
  -- a declaration in the global scope is the exception, for which nothing is said
  declare _ hw name type q :=
    .of_quiet (inner_addQualified ..) fun hi => .addQualified hw hi name type _ q
  spawn {_ bound id frozen} _ _ _ hb _ _ := by
    have hsame := (SameButThreads.bind hb).trans (bound.sameButThreads_looksAt id frozen)
    exact .of_quiet hsame.inner fun _ => .of_sameButThreads hsame
  function _ hw name type modifier declared :=
    .of_quiet (inner_add ..) fun hi => .addFunction hw hi name type modifier declared
  space {_ _ name _} _ hw _ ha := by
    refine ⟨?_, [name], fun _ => .addNamespace hw ha⟩
    obtain ⟨-, -, rfl⟩ := addNamespace_eq_some ha
    rfl
  member _ hw ha :=
    .of_quiet (addFunctionToNamespace_eq_some ha).1 fun _ => .addFunctionToNamespace hw ha
  wait _ hv := by
    have hsame := sameButThreads_syncVariable hv
    exact ⟨hsame.inner, [], .of_sameButThreads hsame⟩
  scope _ hw _ hi _ h := .popScope (.openScope hw _) (List.cons_ne_nil _ _) hi h
  round name type _ hw _ hi _ h := by
    refine .popScope (.round hw name type) ?_ hi h
    rw [inner_add]
    exact List.cons_ne_nil _ _
  frame params _ hw _ hi _ h := by
    refine .popScope (.frame hw params) ?_ hi h
    rw [alignLocals, inner_modifyScope, inner_addParams]
    exact List.cons_ne_nil _ _
  region {t t'} h := by
    obtain ⟨hi, names, h⟩ := h
    exact ⟨hi, names, (h.after (.enterRegion t)).before (.exitRegion t')⟩
  stmtRegion {t t'} h := by
    obtain ⟨hi, names, h⟩ := h
    exact ⟨hi, names, fun hin => ((h hin).after (.enterRegion t)).before (.exitRegion t')⟩

end Table

/-! ### Entering and leaving -/

section

variable {s : Checker}

/-- Regions have nothing to do with scopes. -/
theorem addsSpaces_enterRegionIf (s : Checker) (enabled : Bool) :
    s.table.AddsSpaces ((enterRegionIf enabled).after s).table [] := by
  cases enabled with
  | false => exact .refl _
  | true => exact .enterRegion _

theorem addsSpaces_exitRegionIf (s : Checker) (enabled : Bool) :
    s.table.AddsSpaces ((exitRegionIf enabled).after s).table [] := by
  cases enabled with
  | false => exact .refl _
  | true => exact .exitRegion _

theorem addsSpaces_popScope (s : Checker) :
    s.table.AddsSpaces (s.onLedger Ledger.popScope).table [] := by
  rw [Checker.table_onLedger, Ledger.table_popScope]
  exact .popScope _

theorem addsSpaces_leaveBlock (s : Checker) (modifier : Modifier) :
    s.table.AddsSpaces ((leaveBlock modifier).after s).table [] :=
  (addsSpaces_exitRegionIf _ _).after (addsSpaces_popScope s)

/-- A round is left in the order opposite to that of a block: the region first. -/
theorem addsSpaces_leaveRound (s : Checker) (shared : Bool) :
    s.table.AddsSpaces ((leaveRound shared).after s).table [] :=
  (addsSpaces_popScope _).after (addsSpaces_exitRegionIf s (!shared))

theorem addsSpaces_frame (hw : s.table.WellFormed) {s₁ : Checker} {isolating : Bool}
    {params : List (String × Ty × Qualifier)}
    (ht : s₁.table = (((enterRegionIf isolating).after s).table.pushFrame.addParams
      params).alignLocals) : s.table.AddsSpaces s₁.table [] ∧ s₁.table.inner ≠ [] := by
  rw [ht]
  refine ⟨(Table.AddsSpaces.frame (hw.enterRegionIf isolating) params).after
    (addsSpaces_enterRegionIf s isolating), ?_⟩
  rw [Table.alignLocals, Table.inner_modifyScope, Table.inner_addParams]
  exact List.cons_ne_nil _ _

/-- A lambda is entered after the types of its parameters have been looked at. -/
theorem addsSpaces_enterLambda (hw : s.table.WellFormed) (head : LambdaHead) (types : List Ty)
    (start : Position) (params : List Param) :
    s.table.AddsSpaces
        ((enterLambda head types).after ((lambdaParamTypes start params).after s)).table [] ∧
      ((enterLambda head types).after ((lambdaParamTypes start params).after s)).table.inner ≠
        [] := by
  have ht := table_enterLambda ((lambdaParamTypes start params).after s) head types
  rw [table_enterRegionIf, table_lambdaParamTypes, ← table_enterRegionIf] at ht
  exact addsSpaces_frame hw ht

theorem addsSpaces_enterFunction (hw : s.table.WellFormed) (hi : s.table.inner ≠ []) (span : Span)
    (head : FunctionHead) :
    s.table.AddsSpaces ((enterFunction head).after
        ((declareFunction head).after ((reportHead span head).after s))).table [] ∧
      ((enterFunction head).after
        ((declareFunction head).after ((reportHead span head).after s))).table.inner ≠ [] := by
  have htable : ((declareFunction head).after ((reportHead span head).after s)).table =
      (s.table.addFunction head.name head.type (effectiveModifier head.modifier head.ret)
        head.modifier).1 := by
    simp only [declareFunction, after_bind, after_pure, after_askLedger, table_note,
      Checker.table_onLedger, Ledger.table_addFunction, table_reportHead]
  have hdeclare : s.table.AddsSpaces
      ((declareFunction head).after ((reportHead span head).after s)).table [] :=
    htable ▸ .addFunction hw hi _ _ _ _
  obtain ⟨henter, hinner⟩ := addsSpaces_frame (htable ▸ hw.addFunction _ _ _ _)
    (table_enterFunction ((declareFunction head).after ((reportHead span head).after s)) head)
  exact ⟨henter.after hdeclare, hinner⟩

theorem addsSpaces_enterBlock (hw : s.table.WellFormed) (modifier : Modifier) :
    s.table.AddsSpaces ((enterBlock modifier).after s).table [] ∧
      ((enterBlock modifier).after s).table.inner ≠ [] :=
  ⟨(Table.AddsSpaces.openScope (hw.enterRegionIf _) _).after (addsSpaces_enterRegionIf s _),
    List.cons_ne_nil _ _⟩

theorem addsSpaces_enterRound (hw : s.table.WellFormed) (name : String) (element : Ty)
    (shared : Bool) :
    s.table.AddsSpaces ((enterRound name element shared).after s).table [] ∧
      ((enterRound name element shared).after s).table.inner ≠ [] := by
  have hround := Table.AddsSpaces.round hw name element
  have hregion := addsSpaces_enterRegionIf ((s.onLedger Ledger.pushScope).onLedger
    fun l => (l.add name element .param).1) (!shared)
  refine ⟨hregion.after hround, ?_⟩
  rw [show ((enterRound name element shared).after s).table.inner = _ from
    inner_enterRegionIf ((s.onLedger Ledger.pushScope).onLedger
      fun l => (l.add name element .param).1) (!shared)]
  show (s.table.pushScope.add name element .param).1.inner ≠ []
  rw [Table.inner_add]
  exact List.cons_ne_nil _ _

theorem addsSpaces_enterModule (hw : s.table.WellFormed) {space : String} {id : SymbolId}
    (hadd : (addSpace space).answer s = some id) (module : String) (statements : List Stmt) :
    ((enterModule module space statements).after ((addSpace space).after s)).table.WellFormed ∧
      s.table.AddsSpaces
        ((enterModule module space statements).after ((addSpace space).after s)).table [space] ∧
      ((enterModule module space statements).after ((addSpace space).after s)).table.inner ≠
        [] := by
  have hspace : ((addSpace space).after s).table.WellFormed ∧
      s.table.AddsSpaces ((addSpace space).after s).table [space] := by
    rw [addSpace, after_askLedger, Checker.table_onLedger, Ledger.table_addNamespace]
    cases ha : s.table.addNamespace space with
    | none => simp [addSpace, Ledger.addNamespace, ha] at hadd
    | some r => exact ⟨hw.addNamespace ha, .addNamespace hw ha⟩
  -- new members leave the global scope alone
  have hregister : ((registerFunctions space statements).after
      ((addSpace space).after s)).table.WellFormed ∧ s.table.AddsSpaces
        ((registerFunctions space statements).after ((addSpace space).after s)).table [space] :=
    keeps_registerFunctions (P := fun t => t.WellFormed ∧ s.table.AddsSpaces t [space])
      (fun ha h => ⟨h.1.addFunctionToNamespace ha, h.2.before (.addFunctionToNamespace h.1 ha)⟩)
      statements hspace
  obtain ⟨hw₁, h₁⟩ := hregister
  exact ⟨hw₁.pushScope, h₁.before (.openScope hw₁ _), List.cons_ne_nil _ _⟩

end

/-! ### Going through the rules -/

/-- The namespaces of those imports that have one. -/
def spacesOf (imports : List (String × Option String)) : List String := imports.filterMap Prod.snd

/-- The namespaces of two groups of modules, in order. -/
theorem spacesOf_append (front others : List (String × Option String)) :
    spacesOf (front ++ others) = spacesOf front ++ spacesOf others :=
  List.filterMap_append ..

/-- The imports inside of the tree that a visit walks over. -/
def Visit.imports : Visit → List (String × Option String)
  | .expr _ e => e.imports
  | .args _ _ _ es | .elements _ _ es => exprsImports es
  | .body _ _ b => b.imports
  | .stmt _ st => st.imports
  | .stmts _ sts => stmtsImports sts
  | .wait .. => []

/-- A part that adds the namespaces of its imports, if it is not in the global scope itself. -/
def PartSpaced (s : Checker) (v : Visit) (r : Reply) (s' : Checker) : Prop :=
  s.table.WellFormed ∧ Gives s v r s' ∧
    (s.table.inner ≠ [] → s.table.AddsSpaces s'.table (spacesOf v.imports))

namespace PartSpaced

variable {s s₁ s₂ : Checker} {v v₁ v₂ : Visit} {r r₁ r₂ : Reply}

theorem wellFormed (h : PartSpaced s v r s₁) : s₁.table.WellFormed := h.2.1.wellFormed h.1

/-- A part ends in the scope where it began. -/
theorem inside (h : PartSpaced s v r s₁) (hi : s.table.inner ≠ []) : s₁.table.inner ≠ [] := by
  have hinner := (sameSurroundings_visit s v).table.inner
  rw [h.2.1.after] at hinner
  exact hinner ▸ hi

theorem adds (h : PartSpaced s v r s₁) (hi : s.table.inner ≠ []) :
    s.table.AddsSpaces s₁.table (spacesOf v.imports) := h.2.2 hi

theorem seq (h₁ : PartSpaced s v₁ r₁ s₁) (h₂ : PartSpaced s₁ v₂ r₂ s₂) (hi : s.table.inner ≠ []) :
    s.table.AddsSpaces s₂.table (spacesOf (v₁.imports ++ v₂.imports)) := by
  rw [spacesOf_append]
  exact (h₁.adds hi).trans (h₂.adds (h₁.inside hi))

/-- A part in a scope that has been entered and is left again. -/
theorem within {t t' : Table} (h : PartSpaced s v r s₁) (h₀ : t.AddsSpaces s.table [])
    (hi : s.table.inner ≠ []) (h' : s₁.table.AddsSpaces t' []) :
    t.AddsSpaces t' (spacesOf v.imports) :=
  ((h.adds hi).after h₀).before h'

end PartSpaced

/-- A part that may be missing adds the namespaces of what is there. -/
theorem MaybeExpr.addsSpaces {s s' : Checker} {e e' : Option Expr} {ps : List Point}
    (h : MaybeExpr PartSpaced s e e' s' ps) (hi : s.table.inner ≠ []) :
    s.table.AddsSpaces s'.table (spacesOf (exprImports? e)) ∧ s'.table.inner ≠ [] := by
  cases h with
  | none => exact ⟨.refl _, hi⟩
  | some h => exact ⟨h.adds hi, h.inside hi⟩

theorem MaybeStmt.addsSpaces {s s' : Checker} {ret : Ty} {st st' : Option Stmt}
    {ps : List Point} (h : MaybeStmt PartSpaced s ret st st' s' ps) (hi : s.table.inner ≠ []) :
    s.table.AddsSpaces s'.table (spacesOf (stmtImports? st)) ∧ s'.table.inner ≠ [] := by
  cases h with
  | none => exact ⟨.refl _, hi⟩
  | some h => exact ⟨h.adds hi, h.inside hi⟩

/-- Handles are variables, in which there is no import. -/
theorem exprsImports_of_vars {handles handles' : List Expr}
    (h : List.Forall₂ (fun e e' => ∃ k name t, e = .var k name ∧ e' = (Expr.var k name).withType t)
      handles handles') : exprsImports handles = [] := by
  induction h with
  | nil => rfl
  | cons hvar _ ih =>
    obtain ⟨k, name, t, rfl, -⟩ := hvar
    exact ih

/-- By each rule, a visit adds the namespaces of the imports inside of its tree if its parts do. -/
theorem addsSpaces_of_rule {s s' : Checker} {v : Visit} {r : Reply} {ps : List Point}
    (h : Rule PartSpaced s v r s' ps) (hw : s.table.WellFormed) (hi : s.table.inner ≠ []) :
    s.table.AddsSpaces s'.table (spacesOf v.imports) := by
  cases h with
  | literal => exact .refl _
  | var _ _ _ =>
    rw [toLedger_captured]
    exact .refl _
  | binary h₁ h₂ _ => exact h₁.seq h₂ hi
  | unary h₁ _ => exact h₁.adds hi
  | @assign _ _ _ _ _ id _ _ _ _ h₁ _ _ =>
    have htable : (s.captured id).table = s.table := by rw [toLedger_captured]
    exact h₁.within (htable ▸ .refl s.table) (htable ▸ hi) (.refl _)
  | indexAssign _ h₁ _ h₂ _ h₃ _ =>
    -- three parts one after the other, each of them not in the global scope
    have hi₂ := h₂.inside (h₁.inside hi)
    exact spacesOf_append _ _ ▸ (h₁.seq h₂ hi).trans (h₃.adds hi₂)
  | len _ h₁ _ => exact h₁.adds hi
  | call _ h₁ _ h₂ => exact h₁.seq h₂ hi
  | array h₁ => exact h₁.adds hi
  | access h₁ _ h₂ _ => exact h₁.seq h₂ hi
  | range h₁ _ h₂ _ => exact h₁.seq h₂ hi
  | increment _ h₁ _ => exact h₁.adds hi
  | decrement _ h₁ _ => exact h₁.adds hi
  | spaceMember hspace _ =>
    obtain ⟨m, name, rfl, -, -⟩ := Table.namespaceOf?_eq_some hspace
    exact .refl _
  | valueMember _ h₁ _ => exact h₁.adds hi
  -- functions and lambdas are entered and left, and in between is their body
  | @lambda _ n head _ _ types _ _ _ _ _ _ hs₀ _ _ h₁ =>
    subst hs₀
    rw [table_leaveLambda]
    obtain ⟨h₀, hinner⟩ := addsSpaces_enterLambda hw (head.infer _) types n.span.start _
    exact h₁.within h₀ hinner (addsSpaces_leaveBlock _ _)
  | spawn h₁ _ h₂ => exact spacesOf_append _ _ ▸ (h₁.adds hi).trans (h₂.adds (h₁.inside hi))
  | sync hsame _ => exact .of_sameButThreads hsame
  | syncAll hsame _ hvars =>
    show s.table.AddsSpaces s'.table (spacesOf (exprsImports _))
    rw [exprsImports_of_vars hvars]
    exact .of_sameButThreads hsame
  | noArgs => exact .refl _
  | arg h₁ _ h₂ => exact h₁.seq h₂ hi
  | noElements => exact .refl _
  | element h₁ _ _ h₂ => exact h₁.seq h₂ hi
  | exprBody h₁ _ => exact h₁.adds hi
  | blockBody h₁ => exact h₁.adds hi
  | expression h₁ => exact h₁.adds hi
  | declare hsame =>
    exact (Table.AddsSpaces.addQualified hw hi _ _ _ _).before (.of_sameButThreads hsame)
  | declareInit h₁ hsame =>
    have hadd := Table.AddsSpaces.addQualified h₁.wellFormed (h₁.inside hi)
    exact (h₁.adds hi).before ((hadd _ _ _ _).before (.of_sameButThreads hsame))
  | @function _ span head _ _ _ _ _ _ hs₀ hs₁ _ h₁ =>
    subst hs₀ hs₁
    obtain ⟨h₀, hinner⟩ := addsSpaces_enterFunction hw hi span head
    exact h₁.within h₀ hinner (addsSpaces_leaveBlock _ _)
  | ret h₁ => exact (h₁.addsSpaces hi).1
  | block h₁ =>
    obtain ⟨h₀, hinner⟩ := addsSpaces_enterBlock hw _
    exact h₁.within h₀ hinner (addsSpaces_leaveBlock _ _)
  | cond h₁ _ h₂ h₃ =>
    obtain ⟨h₃, -⟩ := h₃.addsSpaces (h₂.inside (h₁.inside hi))
    exact spacesOf_append _ _ ▸ (h₁.seq h₂ hi).trans h₃
  | @whileLoop _ _ _ _ shared _ _ _ s₁ _ h₁ _ h₂ _ =>
    have hround := h₂.within (addsSpaces_enterRegionIf s₁ (!shared))
      (inner_enterRegionIf s₁ (!shared) ▸ h₁.inside hi) (addsSpaces_exitRegionIf _ (!shared))
    exact spacesOf_append _ _ ▸ (h₁.adds hi).trans hround
  | @forLoop _ _ _ _ _ _ shared _ _ _ _ _ _ s₃ _ _ _ _ h₁ h₂ h₃ h₄ _ =>
    -- inside of the scope of the loop nothing is declared globally, even if the loop stands there
    obtain ⟨h₁, hi₁⟩ := h₁.addsSpaces (List.cons_ne_nil _ _)
    obtain ⟨h₂, hi₂⟩ := h₂.addsSpaces hi₁
    obtain ⟨h₃, hi₃⟩ := h₃.addsSpaces hi₂
    have hround := h₄.within (addsSpaces_enterRegionIf s₃ (!shared))
      (inner_enterRegionIf s₃ (!shared) ▸ hi₃) (addsSpaces_leaveRound _ shared)
    have hloop := ((h₁.trans h₂).trans h₃).trans hround
    rw [← spacesOf_append, ← spacesOf_append, ← spacesOf_append] at hloop
    exact hloop.after (.openScope hw _)
  | @forEach _ _ name _ _ _ shared _ _ _ element _ _ h₁ _ h₂ _ =>
    obtain ⟨h₀, hinner⟩ := addsSpaces_enterRound h₁.wellFormed name element shared
    have hround := h₂.within h₀ hinner (addsSpaces_leaveRound _ shared)
    exact spacesOf_append _ _ ▸ (h₁.adds hi).trans hround
  | leave => exact .refl _
  | next => exact .refl _
  | importMerged => exact .refl _
  | importSpace _ hadd h₁ =>
    -- the namespace itself comes before those of the module
    obtain ⟨-, h₀, hinner⟩ := addsSpaces_enterModule hw hadd _ _
    exact (h₀.trans (h₁.adds hinner)).before (addsSpaces_popScope _)
  | noStmts => exact .refl _
  | stmt h₁ h₂ => exact h₁.seq h₂ hi
  | wait => exact .of_sameButThreads (sameButThreads_syncPending ..)

/-- A fresh tree that is checked without an error, not in the global scope, adds the namespaces of
all modules that it brings in. -/
theorem addsSpaces_of_gives {s s' : Checker} {v : Visit} {r : Reply} (h : Gives s v r s')
    (hf : v.Fresh) (hw : s.table.WellFormed) (hi : s.table.inner ≠ []) :
    s.table.AddsSpaces s'.table (spacesOf v.imports) :=
  Gives.induct (motive := fun s v _ s' => s.table.inner ≠ [] →
    s.table.AddsSpaces s'.table (spacesOf v.imports))
    (fun _ hw _ hrule hi => addsSpaces_of_rule hrule hw hi) h hf hw hi

/-- In every reachable state, an import with a namespace that is checked without an error adds its
namespace to the global scope, and nothing else but further namespaces.  If the module is as the
grammar gives it, these are the namespaces of all imports inside of it, in order. -/
theorem checkStmt_import_addsSpaces {roots : List ScopeId} {s : Checker} (hs : Reachable roots s)
    {ret : Ty} {span : Span} {module space : String} {statements : List Stmt}
    (herrors :
      ((checkStmt ret (.importModule span module (some space) statements)).after s).errors =
        s.errors) :
    ∃ names, s.table.AddsSpaces
        ((checkStmt ret (.importModule span module (some space) statements)).after s).table
        (space :: names) ∧
      (stmtsFresh statements → names = spacesOf (stmtsImports statements)) := by
  rw [checkStmt, after_checkImport] at herrors ⊢
  cases hspace : namespaceError? s.table space with
  | some cause =>
    rw [hspace] at herrors
    exact absurd herrors (Checker.Reports.refl _).not_silent
  | none =>
    obtain ⟨id, hadd⟩ := answer_addSpace (lookup_eq_none hspace)
    simp only [hspace, hadd] at herrors ⊢
    obtain ⟨hw, h₀, hinner⟩ := addsSpaces_enterModule hs.wellFormed hadd module statements
    have henter := Checker.Reports.enterModule (s := s) module space statements
    -- from here on it does not matter how the module has been entered
    generalize (enterModule module space statements).after ((addSpace space).after s) = entered at *
    have hbody := reports_visit entered (.stmts .void statements)
    by_cases hf : stmtsFresh statements
    · obtain ⟨-, hsilent⟩ := henter.silent (hbody.trans .leaveModule) herrors
      have hgives := gives_stmts rfl (hbody.silent .leaveModule hsilent).1
      have hadds := addsSpaces_of_gives hgives hf hw hinner
      exact ⟨_, (h₀.trans hadds).before (addsSpaces_popScope _), fun _ => rfl⟩
    · -- the rules are about fresh trees, so here only the steps say something
      obtain ⟨-, -, -, -, names, hadds⟩ :=
        Table.spaces_stable.visitAfter entered (.stmts .void statements) hw
      exact ⟨names, (h₀.trans (hadds hinner)).before (addsSpaces_popScope _), (absurd · hf)⟩

namespace Sample

/-- `import "k" as inner;`, where the module has a function. -/
def nested : List Stmt := [.importModule span "k" (some "inner") [sum]]

/-- `import "m" as outer;`, where the module imports another one. -/
def outer : Stmt := .importModule span "m" (some "outer") nested

/-- The checker after the import. -/
def afterOuter : Checker :=
  (checkStmt .void outer).after (.initial defaultSuggestionDistance)

/-- The names of the symbols in the global scope. -/
def globalNames (s : Checker) : List String :=
  (s.table.scope Table.globalId).symbols.map fun a => (s.table.symbol a).name

theorem errors_afterOuter :
    afterOuter.errors = (Checker.initial defaultSuggestionDistance).errors := by
  decide +kernel

end Sample

/-- A module inside of a module: both namespaces are added, the outer one first. -/
theorem checkStmt_import_addsSpaces_nested :
    Reachable [] (.initial defaultSuggestionDistance) ∧ stmtsFresh Sample.nested ∧
      Sample.afterOuter.errors = (Checker.initial defaultSuggestionDistance).errors ∧
      (Checker.initial defaultSuggestionDistance).table.AddsSpaces Sample.afterOuter.table
        ["outer", "inner"] := by
  have hs : Reachable [] (.initial defaultSuggestionDistance) := .initial _
  have hf : stmtsFresh Sample.nested := ⟨⟨⟨rfl, trivial⟩, trivial⟩, trivial⟩
  obtain ⟨names, hadds, hnames⟩ := checkStmt_import_addsSpaces hs Sample.errors_afterOuter
  obtain rfl : names = ["inner"] := hnames hf
  exact ⟨hs, hf, Sample.errors_afterOuter, hadds⟩

/-- An import without an error that adds two symbols to the global scope. -/
theorem checkStmt_import_adds_two :
    Reachable [] (.initial defaultSuggestionDistance) ∧
      Sample.afterOuter.errors = (Checker.initial defaultSuggestionDistance).errors ∧
      Sample.globalNames (.initial defaultSuggestionDistance) = ["print"] ∧
      Sample.globalNames Sample.afterOuter = ["print", "outer", "inner"] := by
  refine ⟨.initial _, Sample.errors_afterOuter, ?_, ?_⟩
  · decide +kernel
  · decide +kernel

end ThreadRegions
