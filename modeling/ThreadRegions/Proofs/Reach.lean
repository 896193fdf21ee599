import ThreadRegions.Proofs.Compose
import ThreadRegions.Proofs.Spawn

/-!
# Reachable states and invariants of the table

Most of what holds along a run of the checker is about its symbol table.  This module says what one
step can do to the table, and gets from there to whole visits and to all states of all runs.

## Main Definitions

* `Table.QuietIn`, `Table.StableIn`: relations that hold across what a single step does to the
  table, without and with waiting for a thread, where only given effects count
* `Table.Quiet`, `Table.Stable`: the same, whatever the effects
* `Table.Invariant`: a property of tables that every step keeps
* `Reachable`: the states of all runs of a new checker

## Main Results

* `Table.StableIn.visit`: such relations hold across every visit
* `Table.Invariant.reachable`: such a property holds in every reachable state

## Design Notes

A scope does not say whether it was opened with a frame of its own.  Where this matters, the numbers
of the open scopes that were, the *roots*, are kept beside the table: an invariant is a property of
the roots and the table, and a state is reachable with its roots.
-/

namespace ThreadRegions

open CheckM

/-! ### Relations between tables -/

/-- Relations that hold across what one step does to a well-formed table, the first for expressions
and the second for statements, where only effects that satisfy `A` count.  Waiting for a thread is
not among the steps. -/
structure Table.QuietIn (A : Effect → Prop) (E R : Table → Table → Prop) : Prop where
  refl : ∀ t, E t t
  trans : ∀ {t t₁ t₂}, E t t₁ → E t₁ t₂ → E t t₂
  ofExpr : ∀ {t t'}, E t t' → R t t'
  stmtTrans : ∀ {t t₁ t₂}, R t t₁ → R t₁ t₂ → R t t₂
  declare : ∀ {t : Table}, A .declare → t.WellFormed → ∀ name type q,
    R t (t.addQualified name type t.declarationKind q).1
  spawn : ∀ {t bound : Table} {id : SymbolId} {frozen : List SymbolId}, A .declare →
    t.WellFormed → t.JustDeclared id →
      t.transition id (fun s => s.rebind.bind Symbol.markPending) = .ok bound → frozen.Nodup →
        (∀ a ∈ frozen, ∃ name, bound.lookup name = some a) → R t (bound.looksAt id frozen)
  function : ∀ {t : Table}, A .declare → t.WellFormed → ∀ name type modifier declared,
    R t (t.addFunction name type modifier declared).1
  space : ∀ {t t' : Table} {name : String} {id : SymbolId}, A .space → t.WellFormed →
    t.lookup name = none → t.addNamespace name = some (t', id) → R t t'
  member : ∀ {t t' : Table} {space name : String} {type : Ty}
    {modifier declared : Modifier} {id : SymbolId}, A .space → t.WellFormed →
      t.addFunctionToNamespace space name type modifier declared = some (t', id) → R t t'
  /-- In the three fields to come, the table `t'` is the one before the scope is left. -/
  scope : ∀ {t t' : Table}, A .scope → t.WellFormed → t'.WellFormed →
    t'.inner = t.scopes.size :: t.inner → t.scopes.size < t'.scopes.size → R t.pushScope t' →
      E t t'.popScope
  round : ∀ {t t' : Table} (name : String) (type : Ty), A .scope → t.WellFormed → t'.WellFormed →
    t'.inner = t.scopes.size :: t.inner → t.scopes.size < t'.scopes.size →
      R (t.pushScope.add name type .param).1 t' → E t t'.popScope
  frame : ∀ {t t' : Table} (params : List (String × Ty × Qualifier)), A (.frame t.scopes.size) →
    t.WellFormed → t'.WellFormed → t'.inner = t.scopes.size :: t.inner →
      t.scopes.size < t'.scopes.size →
      R (t.pushFrame.addParams params).alignLocals t' → E t t'.popScope
  region : ∀ {t t' : Table}, E t.enterRegion t' → E t t'.exitRegion
  stmtRegion : ∀ {t t' : Table}, R t.enterRegion t' → R t t'.exitRegion

/-- The same, whatever the effects. -/
abbrev Table.Quiet (E R : Table → Table → Prop) : Prop := Table.QuietIn (fun _ => True) E R

/-- Relations that hold across all steps with effects that satisfy `A`. -/
structure Table.StableIn (A : Effect → Prop) (E R : Table → Table → Prop) : Prop
    extends Table.QuietIn A E R where
  wait : ∀ {t t' : Table} {name : String} {id : SymbolId}, t.WellFormed →
    t.syncVariable name = .ok (t', id) → E t t'

/-- Relations that hold across all steps. -/
abbrev Table.Stable (E R : Table → Table → Prop) : Prop := Table.StableIn (fun _ => True) E R

namespace Table

/-- Starting from a well-formed table there is a well-formed table with the same open scopes, and
the relation holds. -/
def Evolves (E : Table → Table → Prop) (t t' : Table) : Prop :=
  t.WellFormed → t'.WellFormed ∧ t'.inner = t.inner ∧ t.scopes.size ≤ t'.scopes.size ∧ E t t'

/-- What changes threads only opens no scope. -/
theorem SameButThreads.evolves {E : Table → Table → Prop} {t t' : Table} (h : t.SameButThreads t')
    (he : t.WellFormed → E t t') : Evolves E t t' := fun hw =>
  ⟨h.wellFormed hw, h.inner, h.scopes ▸ Nat.le_refl _, he hw⟩

@[simp] theorem size_add (t : Table) (name : String) (type : Ty) (kind : SymbolKind) :
    (t.add name type kind).1.scopes.size = t.scopes.size := by
  unfold add
  split
  · rfl
  · simp [addNew]

@[simp] theorem size_addQualified (t : Table) (name : String) (type : Ty) (kind : SymbolKind)
    (q : Qualifier) : (t.addQualified name type kind q).1.scopes.size = t.scopes.size :=
  t.size_add name type kind

@[simp] theorem inner_addQualified (t : Table) (name : String) (type : Ty) (kind : SymbolKind)
    (q : Qualifier) : (t.addQualified name type kind q).1.inner = t.inner :=
  t.inner_add name type kind

@[simp] theorem inner_addParams (t : Table) (params : List (String × Ty × Qualifier)) :
    (t.addParams params).inner = t.inner := by
  induction params generalizing t with
  | nil => rfl
  | cons p others ih => exact (ih _).trans (inner_addQualified ..)

@[simp] theorem size_addParams (t : Table) (params : List (String × Ty × Qualifier)) :
    (t.addParams params).scopes.size = t.scopes.size := by
  induction params generalizing t with
  | nil => rfl
  | cons p others ih => exact (ih _).trans (size_addQualified ..)

theorem current_frame (t : Table) (params : List (String × Ty × Qualifier)) :
    (t.pushFrame.addParams params).alignLocals.current = t.scopes.size := by
  rw [alignLocals, current, inner_modifyScope, inner_addParams]
  rfl

/-- A namespace that has been added is the last symbol of the table and of the global scope. -/
theorem addNamespace_eq_some {t t' : Table} {name : String} {id : SymbolId}
    (h : t.addNamespace name = some (t', id)) :
    t.findIn globalId name = none ∧ id = t.symbols.size ∧
      t' = (t.pushSymbol (.fresh name .nil .namespace_ globalId)).modifyScope globalId
        fun s => { s with symbols := s.symbols ++ [t.symbols.size] } := by
  unfold addNamespace at h
  split at h
  · cases h
  · next hf =>
    cases h
    exact ⟨by simpa using hf, rfl, rfl⟩

/-- A member of a namespace is listed at the namespace, and no scope changes. -/
theorem addToNamespace_eq_some {t t' : Table} {space name : String} {type : Ty} {id : SymbolId}
    (h : t.addToNamespace space name type = some (t', id)) :
    t'.inner = t.inner ∧ t'.scopes = t.scopes := by
  obtain ⟨b, -, hb⟩ := Option.map_eq_some_iff.1 h
  split at hb <;> · cases hb; exact ⟨rfl, rfl⟩

theorem addFunctionToNamespace_eq_some {t t' : Table} {space name : String} {type : Ty}
    {modifier declared : Modifier} {id : SymbolId}
    (h : t.addFunctionToNamespace space name type modifier declared = some (t', id)) :
    t'.inner = t.inner ∧ t'.scopes = t.scopes := by
  obtain ⟨⟨t₁, a⟩, hadd, hb⟩ := Option.map_eq_some_iff.1 h
  cases hb
  obtain ⟨hinner, hscopes⟩ := addToNamespace_eq_some hadd
  exact ⟨hinner, hscopes⟩

@[simp] theorem size_popScope (t : Table) : t.popScope.scopes.size = t.scopes.size := by
  unfold popScope
  split
  · rfl
  · exact size_modifyScope _ _ _

end Table

/-! ### From tables to checkers -/

/-- What happens to the table when the parameters of a lambda are declared. -/
@[simp] theorem table_declareParams (s : Checker) (params : List (Param × Ty)) :
    ((declareParams params).after s).table =
      s.table.addParams (params.map fun p => (p.1.name, p.2, p.1.qualifier)) := by
  induction params generalizing s with
  | nil => rfl
  | cons p others ih =>
    obtain ⟨p, t⟩ := p
    simp only [declareParams, after_bind, after_pure, ih]
    rfl

/-- The same for a function.  A parameter without a type is declared all the same. -/
@[simp] theorem table_declareCheckedParams (s : Checker) (params : List Param) :
    ((declareCheckedParams params).after s).table =
      s.table.addParams (params.map fun p => (p.name, p.type.getD .nil, p.qualifier)) := by
  induction params generalizing s with
  | nil => rfl
  | cons p others ih =>
    simp only [declareCheckedParams, after_bind, after_pure, ih, after_askLedger,
      Checker.table_onLedger, Ledger.table_addQualified, table_reportAny, table_paramQualifier]
    rfl

theorem table_enterRegionIf (s : Checker) (enabled : Bool) :
    ((enterRegionIf enabled).after s).table = if enabled then s.table.enterRegion else s.table := by
  cases enabled <;> rfl

theorem inner_enterRegionIf (s : Checker) (enabled : Bool) :
    ((enterRegionIf enabled).after s).table.inner = s.table.inner := by
  cases enabled <;> rfl

theorem Table.WellFormed.enterRegionIf {s : Checker} (hw : s.table.WellFormed) (enabled : Bool) :
    ((enterRegionIf enabled).after s).table.WellFormed := by
  cases enabled with
  | false => exact hw
  | true => exact hw.enterRegion

theorem Table.WellFormed.exitRegionIf {s : Checker} (hw : s.table.WellFormed) (enabled : Bool) :
    ((exitRegionIf enabled).after s).table.WellFormed := by
  cases enabled with
  | false => exact hw
  | true => exact hw.exitRegion

/-- Looking at the types of parameters only adds notes. -/
@[simp] theorem table_lambdaParamTypes (s : Checker) (start : Position) (params : List Param) :
    ((lambdaParamTypes start params).after s).table = s.table := by
  induction params generalizing s with
  | nil => rfl
  | cons p others ih =>
    rw [lambdaParamTypes]
    split
    · rfl
    · simp only [after_bind]
      split
      · exact table_paramQualifier s _ _ _
      · exact (ih _).trans (table_paramQualifier s _ _ _)

/-- Reports leave the table alone. -/
@[simp] theorem table_reportHead (s : Checker) (span : Span) (head : FunctionHead) :
    ((reportHead span head).after s).table = s.table := by
  -- one report for each parameter without a type
  have huntyped : ∀ params s, ((reportUntyped params).after s).table = s.table := by
    intro params
    induction params with
    | nil => exact fun _ => rfl
    | cons p others ih =>
      intro s
      simp only [reportUntyped, after_bind, after_ite]
      split
      · exact ih _
      · exact ih s
  rw [reportHead, after_bind, table_reportAny, huntyped]

/-- Registering the functions of a module keeps what is kept by each new member of a namespace. -/
theorem keeps_registerFunctions {P : Table → Prop} {space : String}
    (step : ∀ {t t' : Table} {name : String} {type : Ty} {modifier declared : Modifier}
      {id : SymbolId}, t.addFunctionToNamespace space name type modifier declared = some (t', id) →
        P t → P t') (statements : List Stmt) {s : Checker} (h : P s.table) :
    P ((registerFunctions space statements).after s).table := by
  induction statements generalizing s with
  | nil => exact h
  | cons st others ih =>
    cases st with
    | function span head body =>
      rw [registerFunctions, after_bind, after_askLedger]
      refine ih ?_
      rw [Checker.table_onLedger, Ledger.table_addFunctionToNamespace]
      cases ha : s.table.addFunctionToNamespace space head.name head.type
        (effectiveModifier head.modifier head.ret) head.modifier with
      | none => exact h
      | some r => exact step ha h
    | _ => exact ih h

@[simp] theorem table_pushLambda (s : Checker) : (pushLambda.after s).table = s.table := rfl

@[simp] theorem table_popLambda (s : Checker) : (popLambda.after s).table = s.table := by
  cases hf : s.frames <;> simp [popLambda, hf]

/-- Inside of a lambda: a region if it is isolated, and a frame with its parameters. -/
theorem table_enterLambda (s : Checker) (head : LambdaHead) (types : List Ty) :
    ((enterLambda head types).after s).table =
      (((enterRegionIf (head.modifier = .isolated)).after s).table.pushFrame.addParams
        ((head.params.zip types).map fun p => (p.1.name, p.2, p.1.qualifier))).alignLocals := by
  simp only [enterLambda, after_bind, after_onLedger, Checker.table_onLedger,
    Ledger.table_alignLocals, table_declareParams, Ledger.table_pushFrame, table_enterRegionIf,
    table_pushLambda]

theorem table_enterFunction (s : Checker) (head : FunctionHead) :
    ((enterFunction head).after s).table =
      (((enterRegionIf (head.modifier = .isolated)).after s).table.pushFrame.addParams
        (head.params.map fun p => (p.name, p.type.getD .nil, p.qualifier))).alignLocals := by
  simp only [enterFunction, after_bind, after_onLedger, Checker.table_onLedger,
    Ledger.table_alignLocals, table_declareCheckedParams, Ledger.table_pushFrame]

namespace Table.QuietIn

variable {A : Effect → Prop} {E R : Table → Table → Prop} (h : Table.QuietIn A E R)

include h

theorem evolves_of_eq {t t' : Table} (ht : t' = t) : Evolves E t t' := by
  intro hw
  subst ht
  exact ⟨hw, rfl, Nat.le_refl _, h.refl _⟩

/-- Recording a thread either fails and leaves the table alone, or binds the handle and freezes what
the thread looks at. -/
theorem evolves_spawn (hA : A .declare) (s : Checker) (id : SymbolId) (e : Expr)
    (position : Position) (hd : s.table.JustDeclared id) :
    Evolves R s.table ((recordSpawn id e position).after s).table := by
  rcases table_recordSpawn s id e position with ht | ⟨bound, frozen, hb, hn, hv, ht⟩
  · rw [ht]
    exact (SameButThreads.refl s.table).evolves fun _ => h.ofExpr (h.refl _)
  · have hsame := (SameButThreads.bind hb).trans (bound.sameButThreads_looksAt id frozen)
    rw [ht]
    exact hsame.evolves fun hw => h.spawn hA hw hd hb hn hv

/-- A namespace whose name is taken in the global scope is not added. -/
theorem evolves_space (hA : A .space) (s : Checker) (name : String)
    (hl : s.table.lookup name = none) :
    Evolves R s.table (s.onLedger fun l => (l.addNamespace name).1).table := by
  intro hw
  rw [Checker.table_onLedger, Ledger.table_addNamespace]
  cases ha : s.table.addNamespace name with
  | none => exact ⟨hw, rfl, Nat.le_refl _, h.ofExpr (h.refl _)⟩
  | some r =>
    obtain ⟨t', id⟩ := r
    obtain ⟨-, -, ht⟩ := addNamespace_eq_some ha
    refine ⟨hw.addNamespace ha, ?_, ?_, h.space hA hw hl ha⟩
    · subst ht; rfl
    · subst ht; simp

/-- A member of a namespace that is not there is not added. -/
theorem evolves_member (hA : A .space) (s : Checker) (space name : String) (type : Ty)
    (modifier declared : Modifier) :
    Evolves R s.table (s.onLedger fun l =>
      (l.addFunctionToNamespace space name type modifier declared).1).table := by
  intro hw
  rw [Checker.table_onLedger, Ledger.table_addFunctionToNamespace]
  cases ha : s.table.addFunctionToNamespace space name type modifier declared with
  | none => exact ⟨hw, rfl, Nat.le_refl _, h.ofExpr (h.refl _)⟩
  | some r =>
    obtain ⟨t', id⟩ := r
    obtain ⟨hinner, hscopes⟩ := addFunctionToNamespace_eq_some ha
    exact ⟨hw.addFunctionToNamespace ha, hinner, hscopes ▸ Nat.le_refl _, h.member hA hw ha⟩

omit h in
theorem evolves_popScope {t entered t' : Table} (hin : entered.inner = t.scopes.size :: t.inner)
    (hsize : entered.scopes.size = t.scopes.size + 1)
    (hw : t.WellFormed → entered.WellFormed) (hr : Evolves R entered t')
    (hE : t.WellFormed → t'.WellFormed → t'.inner = t.scopes.size :: t.inner →
      t.scopes.size < t'.scopes.size → R entered t' → E t t'.popScope) :
    Evolves E t t'.popScope := by
  intro hwt
  obtain ⟨hw', hinner, hle, hR⟩ := hr (hw hwt)
  have hlt : t.scopes.size < t'.scopes.size := by omega
  -- the scope that was entered is on top, and leaving it takes away just that
  refine ⟨hw'.popScope, ?_, ?_, hE hwt hw' (hinner.trans hin) hlt hR⟩
  · rw [inner_popScope, hinner, hin]
    rfl
  · rw [size_popScope]
    exact Nat.le_of_lt hlt

/-- What holds across the steps of tables holds across those of checkers. -/
theorem toStableIn : ThreadRegions.StableIn A (fun s s' => Evolves E s.table s'.table)
    (fun s s' => Evolves R s.table s'.table) where
  refl s := h.evolves_of_eq rfl
  trans h₁ h₂ hw := by
    obtain ⟨hw₁, hi₁, hl₁, he₁⟩ := h₁ hw
    obtain ⟨hw₂, hi₂, hl₂, he₂⟩ := h₂ hw₁
    exact ⟨hw₂, hi₂.trans hi₁, Nat.le_trans hl₁ hl₂, h.trans he₁ he₂⟩
  ofExpr h₁ hw := by
    obtain ⟨hw₁, hi₁, hl₁, he₁⟩ := h₁ hw
    exact ⟨hw₁, hi₁, hl₁, h.ofExpr he₁⟩
  stmtTrans h₁ h₂ hw := by
    obtain ⟨hw₁, hi₁, hl₁, he₁⟩ := h₁ hw
    obtain ⟨hw₂, hi₂, hl₂, he₂⟩ := h₂ hw₁
    exact ⟨hw₂, hi₂.trans hi₁, Nat.le_trans hl₁ hl₂, h.stmtTrans he₁ he₂⟩
  note s level text := h.evolves_of_eq rfl
  captured s id := h.evolves_of_eq (by rw [toLedger_captured])
  report s d := fun hw => ⟨hw, rfl, Nat.le_refl _, h.ofExpr (h.refl _)⟩
  declare hA s name t q := fun hw =>
    ⟨hw.addQualified _ _ _ _, inner_addQualified .., Nat.le_of_eq (size_addQualified ..).symm,
      h.declare hA hw name t q⟩
  spawn := h.evolves_spawn
  function hA s name t modifier declared := fun hw =>
    ⟨hw.addFunction _ _ _ _, inner_add .., Nat.le_of_eq (size_add ..).symm,
      h.function hA hw name t modifier declared⟩
  space := h.evolves_space
  member := h.evolves_member
  scope hA s s' hr := by
    rw [Checker.table_onLedger, Ledger.table_popScope]
    exact evolves_popScope rfl (size_openScope ..) WellFormed.pushScope hr (h.scope hA)
  round hA s s' name t hr := by
    rw [Checker.table_onLedger, Ledger.table_popScope]
    refine evolves_popScope (inner_add ..) ?_ (fun hw => hw.pushScope.add _ _ _) hr
      (h.round name t hA)
    exact (size_add ..).trans (size_openScope ..)
  -- lambdas and functions differ in how their parameters are declared, and not in what this does to
  -- the table
  lambdaFrame s s' params hF hr := by
    rw [Checker.table_onLedger, Ledger.table_popScope]
    rw [Checker.table_onLedger, Ledger.table_alignLocals, table_declareParams] at hF hr
    refine evolves_popScope ?_ ?_ (fun hw => (hw.pushFrame.addParams _).alignLocals) hr
      (h.frame _ (current_frame .. ▸ hF))
    · exact inner_addParams ..
    · exact (size_modifyScope ..).trans ((size_addParams ..).trans (size_openScope ..))
  functionFrame s s' params hF hr := by
    rw [Checker.table_onLedger, Ledger.table_popScope]
    rw [Checker.table_onLedger, Ledger.table_alignLocals, table_declareCheckedParams] at hF hr
    refine evolves_popScope ?_ ?_ (fun hw => (hw.pushFrame.addParams _).alignLocals) hr
      (h.frame _ (current_frame .. ▸ hF))
    · exact inner_addParams ..
    · exact (size_modifyScope ..).trans ((size_addParams ..).trans (size_openScope ..))
  region s s' hr := fun hw => by
    obtain ⟨hw', hi, hl, he⟩ := hr hw.enterRegion
    exact ⟨hw'.exitRegion, hi, hl, h.region he⟩
  stmtRegion s s' hr := fun hw => by
    obtain ⟨hw', hi, hl, he⟩ := hr hw.enterRegion
    exact ⟨hw'.exitRegion, hi, hl, h.stmtRegion he⟩
  lambda s s' hr := by rwa [table_popLambda]
  module s s' hr := hr

end Table.QuietIn

namespace Table.StableIn

variable {A : Effect → Prop} {E R : Table → Table → Prop} (h : Table.StableIn A E R)

include h

/-- Waiting for a thread that is not running leaves the table alone. -/
theorem evolves_wait (s : Checker) (id : SymbolId) (name : String) :
    Evolves E s.table ((syncPending id name).after s).table := by
  refine (sameButThreads_syncPending s id name).evolves fun hw => ?_
  rcases table_syncPending s id name with ht | ⟨t', a, hv, ht⟩
  · rw [ht]
    exact h.refl _
  · rw [ht]
    exact h.wait hw hv

/-- The relations hold across every visit of a checker with a well-formed table. -/
theorem visit (p : Point) (hA : ∀ e, (∀ c, e ≠ .frame c) → A e)
    (hF : ∀ c, p.OpensFrame c → A (.frame c)) :
    p.Holds (fun s s' => Evolves E s.table s'.table) (fun s s' => Evolves R s.table s'.table) :=
  h.toStableIn.visit h.evolves_wait p hA hF

/-- The relations hold across the visit of a tree that has only constructs with effects that they
allow. -/
theorem visitTree (p : Point) (hA : ∀ k ∈ p.visit.constructs, k.Allowed A) :
    p.Holds (fun s s' => Evolves E s.table s'.table) (fun s s' => Evolves R s.table s'.table) :=
  h.toStableIn.visitTree h.evolves_wait p hA

end Table.StableIn

/-- What holds across the steps of tables holds across those of checkers. -/
theorem Table.Quiet.toStable {E R : Table → Table → Prop} (h : Table.Quiet E R) :
    ThreadRegions.Stable (fun s s' => Evolves E s.table s'.table)
      (fun s s' => Evolves R s.table s'.table) :=
  h.toStableIn

namespace Table.Stable

variable {E R : Table → Table → Prop} (h : Table.Stable E R)

include h

/-- What holds across the steps of tables holds across those of checkers. -/
theorem toStable : ThreadRegions.Stable (fun s s' => Evolves E s.table s'.table)
    (fun s s' => Evolves R s.table s'.table) :=
  h.toStableIn

theorem visit (p : Point) :
    p.Holds (fun s s' => Evolves E s.table s'.table) (fun s s' => Evolves R s.table s'.table) :=
  StableIn.visit h p (fun _ _ => trivial) fun _ _ => trivial

theorem visitAfter (s : Checker) (v : Visit) : Evolves R s.table (v.after s).table :=
  h.toStable.visitAfter h.evolves_wait s v

end Table.Stable

/-! ### Invariants -/

/-- A property of the roots and the table that every step on a well-formed table keeps. -/
structure Table.Invariant (P : List ScopeId → Table → Prop) : Prop where
  declare : ∀ {r : List ScopeId} {t : Table}, t.WellFormed → P r t → ∀ name type q,
    P r (t.addQualified name type t.declarationKind q).1
  spawn : ∀ {r : List ScopeId} {t bound : Table} {id : SymbolId} {frozen : List SymbolId},
    t.WellFormed → P r t → t.JustDeclared id →
      t.transition id (fun s => s.rebind.bind Symbol.markPending) = .ok bound → frozen.Nodup →
        (∀ a ∈ frozen, ∃ name, bound.lookup name = some a) → P r (bound.looksAt id frozen)
  function : ∀ {r : List ScopeId} {t : Table}, t.WellFormed → P r t → ∀ name type modifier declared,
    P r (t.addFunction name type modifier declared).1
  space : ∀ {r : List ScopeId} {t t' : Table} {name : String} {id : SymbolId}, t.WellFormed →
    P r t → t.lookup name = none → t.addNamespace name = some (t', id) → P r t'
  member : ∀ {r : List ScopeId} {t t' : Table} {space name : String} {type : Ty}
    {modifier declared : Modifier} {id : SymbolId}, t.WellFormed → P r t →
      t.addFunctionToNamespace space name type modifier declared = some (t', id) → P r t'
  wait : ∀ {r : List ScopeId} {t t' : Table} {name : String} {id : SymbolId}, t.WellFormed →
    P r t → t.syncVariable name = .ok (t', id) → P r t'
  pushScope : ∀ {r : List ScopeId} {t : Table}, t.WellFormed → P r t → P r t.pushScope
  round : ∀ {r : List ScopeId} {t : Table} (name : String) (type : Ty), t.WellFormed → P r t →
    P r (t.pushScope.add name type .param).1
  frame : ∀ {r : List ScopeId} {t : Table} (params : List (String × Ty × Qualifier)),
    t.WellFormed → P r t → P (t.scopes.size :: r) (t.pushFrame.addParams params).alignLocals
  popScope : ∀ {r : List ScopeId} {t : Table} {c : ScopeId} {outer : List ScopeId},
    t.WellFormed → t.inner = c :: outer → c ∉ r → P r t → P r t.popScope
  popFrame : ∀ {r : List ScopeId} {t : Table} {c : ScopeId} {outer : List ScopeId},
    t.WellFormed → t.inner = c :: outer → P (c :: r) t → P r t.popScope
  enterRegion : ∀ {r : List ScopeId} {t : Table}, P r t → P r t.enterRegion
  exitRegion : ∀ {r : List ScopeId} {t : Table}, P r t → P r t.exitRegion

namespace Table

/-- The property is kept, for roots that are scopes of the first table. -/
def Keeps (P : List ScopeId → Table → Prop) (t t' : Table) : Prop :=
  t.scopes.size ≤ t'.scopes.size ∧ ∀ r, (∀ c ∈ r, c < t.scopes.size) → P r t → P r t'

end Table

/-! ### Reachable states -/

/-- The roots inside of a part: a function or a lambda has a frame of its own. -/
def Part.rootsFrom (q : Part) (roots : List ScopeId) : List ScopeId :=
  if q.role = .elsewhere then q.state.table.current :: roots else roots

/-- The states of all runs of a new checker, with the scopes around that were opened with a frame of
their own.  A run checks any tree after any other, and can be looked at in the middle. -/
inductive Reachable : List ScopeId → Checker → Prop
  | initial (suggestionDistance : Nat) : Reachable [] (.initial suggestionDistance)
  /-- The checker adds a note. -/
  | note {roots : List ScopeId} {s : Checker} (level : Level) (text : String) :
      Reachable roots s → Reachable roots ((note level text).after s)
  /-- A visit has come to its end. -/
  | visit {roots : List ScopeId} {s : Checker} (v : Visit) :
      Reachable roots s → Reachable roots (v.after s)
  /-- A visit has come to one of its parts. -/
  | inside {roots : List ScopeId} {s : Checker} {v : Visit} {q : Part} :
      Reachable roots s → q ∈ (Point.mk s v).parts → Reachable (q.rootsFrom roots) q.state

/-- The table is well-formed, the roots are scopes of it, and the property holds. -/
structure GoodState (P : List ScopeId → Table → Prop) (r : List ScopeId) (s : Checker) : Prop where
  wellFormed : s.table.WellFormed
  roots_lt : ∀ c ∈ r, c < s.table.scopes.size
  holds : P r s.table

/-- A new checker knows one function. -/
theorem wellFormed_initial (d : Nat) : (Checker.initial d).table.WellFormed :=
  Table.wellFormed_empty.addFunction _ _ _ _

/-- The state after a whole module is reachable. -/
theorem reachable_checkModule (d : Nat) (m : Module) : Reachable [] (checkModule d m).1 :=
  .note _ _ (.visit (.stmts .void m.statements) (.note _ _ (.initial d)))

namespace Table.Invariant

variable {P : List ScopeId → Table → Prop} (h : Table.Invariant P)

include h

theorem keeps_popScope {t entered t' : Table} (hw' : t'.WellFormed)
    (hi : t'.inner = t.scopes.size :: t.inner) (hlt : t.scopes.size < t'.scopes.size)
    (hsize : t.scopes.size ≤ entered.scopes.size) (hin : ∀ r, P r t → P r entered)
    (hk : Keeps P entered t') : Keeps P t t'.popScope := by
  refine ⟨(size_popScope t').symm ▸ Nat.le_of_lt hlt, fun r hr hp => ?_⟩
  -- roots are scopes from before, and the scope that is left is a new one
  have hr' : ∀ c ∈ r, c < entered.scopes.size := fun c hc => Nat.lt_of_lt_of_le (hr c hc) hsize
  refine h.popScope hw' hi (fun hc => Nat.lt_irrefl _ (hr _ hc)) (hk.2 r hr' (hin r hp))

/-- Keeping an invariant is stable. -/
theorem stable : Table.Stable (Keeps P) (Keeps P) where
  refl t := ⟨Nat.le_refl _, fun _ _ hp => hp⟩
  trans h₁ h₂ := by
    refine ⟨Nat.le_trans h₁.1 h₂.1, fun r hr hp => h₂.2 r (fun c hc => ?_) (h₁.2 r hr hp)⟩
    exact Nat.lt_of_lt_of_le (hr c hc) h₁.1
  ofExpr hk := hk
  stmtTrans h₁ h₂ := by
    refine ⟨Nat.le_trans h₁.1 h₂.1, fun r hr hp => h₂.2 r (fun c hc => ?_) (h₁.2 r hr hp)⟩
    exact Nat.lt_of_lt_of_le (hr c hc) h₁.1
  declare _ hw name type q :=
    ⟨Nat.le_of_eq (size_addQualified ..).symm, fun _ _ hp => h.declare hw hp name type q⟩
  spawn {t bound id frozen} _ hw hd hb hn hv := by
    have hsame := (SameButThreads.bind hb).trans (bound.sameButThreads_looksAt id frozen)
    exact ⟨hsame.scopes ▸ Nat.le_refl _, fun _ _ hp => h.spawn hw hp hd hb hn hv⟩
  function _ hw name type modifier declared :=
    ⟨Nat.le_of_eq (size_add ..).symm, fun _ _ hp => h.function hw hp name type modifier declared⟩
  space _ hw hl ha := by
    refine ⟨?_, fun _ _ hp => h.space hw hp hl ha⟩
    rw [(addNamespace_eq_some ha).2.2]
    simp
  member _ hw ha :=
    ⟨(addFunctionToNamespace_eq_some ha).2 ▸ Nat.le_refl _, fun _ _ hp => h.member hw hp ha⟩
  wait hw hv :=
    ⟨(sameButThreads_syncVariable hv).scopes ▸ Nat.le_refl _, fun _ _ hp => h.wait hw hp hv⟩
  scope {t t'} _ hw hw' hi hlt hk := by
    refine h.keeps_popScope hw' hi hlt ?_ (fun r hp => h.pushScope hw hp) hk
    exact (size_openScope ..).symm ▸ Nat.le_succ _
  round {t t'} name type _ hw hw' hi hlt hk := by
    refine h.keeps_popScope hw' hi hlt ?_ (fun r hp => h.round name type hw hp) hk
    exact ((size_add ..).trans (size_openScope ..)).symm ▸ Nat.le_succ _
  -- inside of the frame its scope is one more root, which is gone when the frame is left
  frame {t t'} params _ hw hw' hi hlt hk := by
    refine ⟨(size_popScope t').symm ▸ Nat.le_of_lt hlt, fun r hr hp => ?_⟩
    refine h.popFrame hw' hi (hk.2 (t.scopes.size :: r) (fun c hc => ?_) (h.frame params hw hp))
    have hsize : (t.pushFrame.addParams params).alignLocals.scopes.size = t.scopes.size + 1 :=
      (size_modifyScope ..).trans ((size_addParams ..).trans (size_openScope ..))
    rw [hsize]
    rcases List.mem_cons.1 hc with rfl | hc
    · exact Nat.lt_succ_self _
    · exact Nat.lt_succ_of_lt (hr c hc)
  region hk := ⟨hk.1, fun r hr hp => h.exitRegion (hk.2 r hr (h.enterRegion hp))⟩
  stmtRegion hk := ⟨hk.1, fun r hr hp => h.exitRegion (hk.2 r hr (h.enterRegion hp))⟩

/-- The invariant holds in the states that a point leads to. -/
theorem leads {r : List ScopeId} {s s' : Checker} (hs : Leads s s') (hr : GoodState P r s) :
    GoodState P r s' := by
  -- a step that keeps the open scopes as they are keeps the roots too
  have step {s₁ s₂ : Checker} (he : Evolves (Keeps P) s₁.table s₂.table) (hg : GoodState P r s₁) :
      GoodState P r s₂ := by
    obtain ⟨hw, -, hle, hk⟩ := he hg.wellFormed
    exact ⟨hw, fun c hc => Nat.lt_of_lt_of_le (hg.roots_lt c hc) hle, hk.2 r hg.roots_lt hg.holds⟩
  have hst := h.stable.toStable
  induction hs with
  | refl => exact hr
  | visit v _ ih => exact step (h.stable.visitAfter _ v) ih
  | note level text _ ih => exact step (hst.note _ level text) ih
  | captured id _ ih => exact step (hst.captured _ id) ih
  | report d _ ih => exact step (hst.report _ d) ih
  | declare name t q _ ih => exact step (hst.declare trivial _ name t q) ih
  | spawn id e position hd _ ih => exact step (hst.spawn trivial _ id e position hd) ih
  | function name t modifier declared _ ih =>
    exact step (hst.function trivial _ name t modifier declared) ih
  | space name hl _ ih => exact step (hst.space trivial _ name hl) ih
  | member space name t modifier declared _ ih =>
    exact step (hst.member trivial _ space name t modifier declared) ih
  -- what has been entered and not been left is no step of its own
  | scope _ ih =>
    refine ⟨ih.wellFormed.pushScope, fun c hc => ?_, h.pushScope ih.wellFormed ih.holds⟩
    exact (size_openScope ..).symm ▸ Nat.lt_succ_of_lt (ih.roots_lt c hc)
  | round name t _ ih =>
    refine ⟨ih.wellFormed.pushScope.add name t .param, fun c hc => ?_,
      h.round name t ih.wellFormed ih.holds⟩
    exact ((size_add ..).trans (size_openScope ..)).symm ▸ Nat.lt_succ_of_lt (ih.roots_lt c hc)
  | region _ ih => exact ⟨ih.wellFormed.enterRegion, ih.roots_lt, h.enterRegion ih.holds⟩
  | module _ ih => exact ⟨ih.wellFormed, ih.roots_lt, ih.holds⟩

/-- The invariant holds when a frame has been entered, with the new scope as a root. -/
theorem enterFrame {r : List ScopeId} {t : Table} {s : Checker}
    (params : List (String × Ty × Qualifier)) (hw : t.WellFormed)
    (hr : ∀ c ∈ r, c < t.scopes.size) (hp : P r t)
    (hs : s.table = (t.pushFrame.addParams params).alignLocals) :
    GoodState P (s.table.current :: r) s := by
  have hin : s.table.inner = t.scopes.size :: t.inner := by
    rw [hs]
    exact inner_addParams ..
  have hsize : s.table.scopes.size = t.scopes.size + 1 := by
    rw [hs]
    exact (size_modifyScope ..).trans ((size_addParams ..).trans (size_openScope ..))
  have hcur : s.table.current = t.scopes.size := by
    rw [current, hin]
    rfl
  rw [hcur]
  refine ⟨hs ▸ (hw.pushFrame.addParams params).alignLocals, fun c hc => ?_,
    hs ▸ h.frame params hw hp⟩
  rw [hsize]
  rcases List.mem_cons.1 hc with rfl | hc
  · exact Nat.lt_succ_self _
  · exact Nat.lt_succ_of_lt (hr c hc)

theorem entry {r : List ScopeId} {s : Checker} {q : Part} (hg : GoodState P r s)
    (he : Entry s q) : GoodState P (q.rootsFrom r) q.state := by
  have inRegion {s : Checker} (enabled : Bool) (hg : GoodState P r s) :
      GoodState P r ((enterRegionIf enabled).after s) :=
    h.leads (Leads.refl.regionIf enabled) hg
  cases he with
  | within hrole hl =>
    rw [Part.rootsFrom, if_neg hrole]
    exact h.leads hl hg
  | lambda head types hl =>
    have hl := h.leads hl hg
    have hg := inRegion (s := pushLambda.after _) (head.modifier = .isolated)
      ⟨hl.wellFormed, hl.roots_lt, hl.holds⟩
    refine h.enterFrame ((head.params.zip types).map fun p => (p.1.name, p.2, p.1.qualifier))
      hg.wellFormed hg.roots_lt hg.holds ?_
    simp only [enterLambda, after_bind, after_onLedger, Checker.table_onLedger,
      Ledger.table_alignLocals, table_declareParams, Ledger.table_pushFrame]
  | function head hl =>
    have hg := inRegion (head.modifier = .isolated) (h.leads hl hg)
    refine h.enterFrame (head.params.map fun p => (p.name, p.type.getD .nil, p.qualifier))
      hg.wellFormed hg.roots_lt hg.holds ?_
    simp only [enterFunction, after_bind, after_onLedger, Checker.table_onLedger,
      Ledger.table_alignLocals, table_declareCheckedParams, Ledger.table_pushFrame]

/-- An invariant that holds at the beginning holds in every reachable state. -/
theorem reachable (h₀ : ∀ d, P [] (Checker.initial d).table) {r : List ScopeId} {s : Checker}
    (hs : Reachable r s) : GoodState P r s := by
  induction hs with
  | initial d => exact ⟨wellFormed_initial d, by simp, h₀ d⟩
  | note level text _ ih => exact h.leads (.note level text .refl) ih
  | visit v _ ih => exact h.leads (.visit v .refl) ih
  | inside _ hq ih => exact h.entry ih (mem_parts hq).entry

end Table.Invariant

/-- The tables of all runs are well-formed. -/
theorem Reachable.wellFormed {roots : List ScopeId} {s : Checker} (h : Reachable roots s) :
    s.table.WellFormed := by
  -- a good state is well-formed, whatever the property is
  have htrivial : Table.Invariant fun _ _ => True := by constructor <;> intros <;> trivial
  exact (htrivial.reachable (fun _ => trivial) h).wellFormed

/-! ### Sample programs -/

namespace Sample

/-- Where the sample programs stand. -/
def span : Span := ⟨⟨0, ""⟩, ⟨0, ""⟩⟩

/-- A variable. -/
def var (name : String) : Expr := .var (.at span) name

/-- `fn sum(xs: int[]): int { return 0; }` -/
def sum : Stmt :=
  .function span
    ⟨"sum", [⟨"xs", some (.array .int), .default, span, none⟩], .int, .default, none, none⟩
    [.ret span (some (.literal (.at span) (.int 0)))]

/-- `var data: int[] = {1};` -/
def data : Stmt :=
  .declare span ⟨"data", some (.array .int), .default, none⟩
    (some (.array (.at span) [.literal (.at span) (.int 1)]))

/-- `var x = &sum(data);` -/
def start (x : String) : Stmt :=
  .declare span ⟨x, none, .default, none⟩
    (some (.spawn (.at span) (.call (.at span) (var "sum") [var "data"]) none))

/-- The checker after the given statements. -/
def after (statements : List Stmt) : Checker :=
  (checkStmts .void statements).after (.initial defaultSuggestionDistance)

/-- The roots and the state at the point that is found by going from part to part. -/
def follow (roots : List ScopeId) (p : Point) : List Nat → Option (List ScopeId × Checker)
  | [] => some (roots, p.state)
  | i :: path => (p.parts[i]?).bind fun q => follow (q.rootsFrom roots) q.toPoint path

/-- The state after some statements is reachable. -/
theorem reachable_after (statements : List Stmt) : Reachable [] (after statements) :=
  .visit (.stmts .void statements) (.initial defaultSuggestionDistance)

/-- A point that is found by going from part to part begins in a reachable state. -/
theorem reachable_follow {roots roots' : List ScopeId} {p : Point} {path : List Nat} {s : Checker}
    (h : Reachable roots p.state) (hf : follow roots p path = some (roots', s)) :
    Reachable roots' s := by
  induction path generalizing roots p with
  | nil =>
    cases hf
    exact h
  | cons i path ih =>
    obtain ⟨q, hq, hf⟩ := Option.bind_eq_some_iff.1 hf
    exact ih (.inside (v := p.visit) h (List.mem_of_getElem? hq)) hf

end Sample

end ThreadRegions
