import Mathlib.Data.List.Forall2
import ThreadRegions.Proofs.Reach
import ThreadRegions.Proofs.Report
import ThreadRegions.Proofs.Staying

/-!
# What is entered is left again

Scopes, regions, lambdas and imported modules are entered and left all over the walk, and an error
can end the check of an expression in the middle of them.  Whatever happens inside, the place around
an expression or a statement is the same before and after.

## Main Definitions

* `Table.SameSurroundings`: the same scopes are open, and as many regions have been entered
* `LambdaFrame.Grows`: a lambda has captured more variables
* `Checker.SameSurroundings`: both, for the checker

## Main Results

* `sameSurroundings_visit`: every visit ends in the place where it began
* `check_resumes`: the same for a whole expression and a whole statement, with the errors and
  captures, to which things are only added

## Design Notes

Nothing is assumed about the state that a visit begins in.  The table keeps the open scopes as a
list, so leaving a scope undoes entering it even if the scope that is current has no entry.
-/

namespace ThreadRegions

open CheckM

/-! ### The place in the table -/

/-- The same scopes are open, as many regions have been entered, and no scope has gone. -/
structure Table.SameSurroundings (t t' : Table) : Prop where
  inner : t'.inner = t.inner
  region : t'.region = t.region
  size_le : t.scopes.size ≤ t'.scopes.size

namespace Table.SameSurroundings

variable {t t₁ t₂ : Table}

theorem refl (t : Table) : t.SameSurroundings t := ⟨rfl, rfl, Nat.le_refl _⟩

theorem trans (h : t.SameSurroundings t₁) (h' : t₁.SameSurroundings t₂) : t.SameSurroundings t₂ :=
  ⟨h'.inner.trans h.inner, h'.region.trans h.region, Nat.le_trans h.size_le h'.size_le⟩

/-- Threads have nothing to do with scopes and regions. -/
theorem of_sameButThreads (h : t.SameButThreads t₁) : t.SameSurroundings t₁ :=
  ⟨h.inner, h.region, Nat.le_of_eq (congrArg Array.size h.scopes).symm⟩

/-- The current scope is the same one. -/
theorem current_eq (h : t.SameSurroundings t₁) : t₁.current = t.current := by
  rw [current, current, h.inner]

/-- A scope that is there stays there. -/
theorem current_lt (h : t.SameSurroundings t₁) (hc : t.current < t.scopes.size) :
    t₁.current < t₁.scopes.size := by
  rw [h.current_eq]
  exact Nat.lt_of_lt_of_le hc h.size_le

theorem add (name : String) (type : Ty) (kind : SymbolKind) :
    t.SameSurroundings (t.add name type kind).1 :=
  ⟨inner_add .., region_add .., Nat.le_of_eq (size_add ..).symm⟩

theorem addQualified (name : String) (type : Ty) (kind : SymbolKind) (q : Qualifier) :
    t.SameSurroundings (t.addQualified name type kind q).1 :=
  ⟨inner_addQualified .., region_add .., Nat.le_of_eq (size_addQualified ..).symm⟩

theorem addFunction (name : String) (type : Ty) (modifier declared : Modifier) :
    t.SameSurroundings (t.addFunction name type modifier declared).1 :=
  ⟨inner_add .., region_add .., Nat.le_of_eq (size_add ..).symm⟩

theorem addParams (params : List (String × Ty × Qualifier)) :
    t.SameSurroundings (t.addParams params) := by
  induction params generalizing t with
  | nil => exact refl t
  | cons p others ih => exact (addQualified p.1 p.2.1 .param p.2.2).trans ih

theorem alignLocals : t.SameSurroundings t.alignLocals :=
  ⟨rfl, rfl, Nat.le_of_eq (size_modifyScope ..).symm⟩

/-- A namespace is put into the global scope, which is not entered for that. -/
theorem addNamespace {name : String} {id : SymbolId}
    (h : t.addNamespace name = some (t₁, id)) : t.SameSurroundings t₁ := by
  obtain ⟨-, -, rfl⟩ := addNamespace_eq_some h
  exact ⟨rfl, rfl, Nat.le_of_eq (size_modifyScope ..).symm⟩

/-- A member is put into its namespace, which is not entered for that. -/
theorem addFunctionToNamespace {space name : String} {type : Ty} {modifier declared : Modifier}
    {id : SymbolId}
    (h : t.addFunctionToNamespace space name type modifier declared = some (t₁, id)) :
    t.SameSurroundings t₁ := by
  obtain ⟨⟨t₂, a⟩, hadd, hb⟩ := Option.map_eq_some_iff.1 h
  cases hb
  obtain ⟨b, -, hb⟩ := Option.map_eq_some_iff.1 hadd
  split at hb <;> · cases hb; exact ⟨rfl, rfl, Nat.le_refl _⟩

theorem popScope {scope : Scope} (h : (t.openScope scope).SameSurroundings t₁) :
    t.SameSurroundings t₁.popScope := by
  refine ⟨?_, ?_, ?_⟩
  · rw [inner_popScope, h.inner]
    rfl
  · rw [region_popScope, h.region]
    rfl
  · rw [size_popScope]
    exact Nat.le_trans ((size_openScope ..).symm ▸ Nat.le_succ _) h.size_le

theorem exitRegion (h : t.enterRegion.SameSurroundings t₁) : t.SameSurroundings t₁.exitRegion := by
  refine ⟨h.inner, ?_, h.size_le⟩
  show t₁.region - 1 = t.region
  rw [h.region]
  rfl

end Table.SameSurroundings

/-! ### The lambdas around -/

/-- The second frame is that of the same lambda after it has captured more variables. -/
structure LambdaFrame.Grows (f f' : LambdaFrame) : Prop where
  depth : f'.depth = f.depth
  captures : f.captures <+: f'.captures

namespace LambdaFrame.Grows

variable {f f₁ f₂ : LambdaFrame}

theorem refl (f : LambdaFrame) : f.Grows f := ⟨rfl, List.prefix_rfl⟩

/-- Captures on the way to the end are captures at the end. -/
theorem trans (h : f.Grows f₁) (h' : f₁.Grows f₂) : f.Grows f₂ :=
  ⟨h'.depth.trans h.depth, h.captures.trans h'.captures⟩

theorem forall₂_trans {fs fs₁ fs₂ : List LambdaFrame} (h : List.Forall₂ Grows fs fs₁)
    (h' : List.Forall₂ Grows fs₁ fs₂) : List.Forall₂ Grows fs fs₂ := by
  induction h generalizing fs₂ with
  | nil => exact h'
  | cons hf _ ih =>
    cases h' with
    | cons hf' hrest => exact .cons (hf.trans hf') (ih hrest)

/-- A variable is captured by the lambdas inside of the scope where it has been declared, and only
once. -/
theorem capture (depth : Nat) (c : Capture) (f : LambdaFrame) : f.Grows (f.capture depth c) := by
  unfold LambdaFrame.capture
  split
  · exact ⟨rfl, List.prefix_append f.captures [c]⟩
  · exact refl f

end LambdaFrame.Grows

/-! ### The place of the checker -/

/-- The same scopes are open, and as many regions, imported modules and lambdas have been entered.
The lambdas around may have captured more variables. -/
structure Checker.SameSurroundings (s s' : Checker) : Prop where
  table : s.table.SameSurroundings s'.table
  importDepth : s'.importDepth = s.importDepth
  frames : s.frames.Forall₂ LambdaFrame.Grows s'.frames

namespace Checker.SameSurroundings

variable {s s₁ s₂ : Checker}

/-- A step that leaves the lambdas and the imported modules alone. -/
theorem of_table (ht : s.table.SameSurroundings s₁.table) (hi : s₁.importDepth = s.importDepth)
    (hf : s₁.frames = s.frames) : s.SameSurroundings s₁ :=
  ⟨ht, hi, hf ▸ List.forall₂_same.2 fun f _ => .refl f⟩

/-- An action that is known to leave lambdas and modules alone. -/
theorem of_stays {α : Type} {m : CheckM α} (hm : m.Stays)
    (ht : s.table.SameSurroundings (m.after s).table) : s.SameSurroundings (m.after s) :=
  of_table ht (hm.importDepth s) (hm.frames s)

theorem refl (s : Checker) : s.SameSurroundings s := of_table (.refl _) rfl rfl

theorem trans (h : s.SameSurroundings s₁) (h' : s₁.SameSurroundings s₂) : s.SameSurroundings s₂ :=
  ⟨h.table.trans h'.table, h'.importDepth.trans h.importDepth,
    LambdaFrame.Grows.forall₂_trans h.frames h'.frames⟩

theorem onLedger {f : Ledger → Ledger} (h : s.table.SameSurroundings (f s.toLedger).table) :
    s.SameSurroundings (s.onLedger f) :=
  of_table h rfl rfl

/-- A variable that is used may be captured by each of the lambdas around. -/
theorem captured (s : Checker) (id : SymbolId) : s.SameSurroundings (s.captured id) := by
  simp only [Checker.captured]
  split
  · exact refl s
  · refine ⟨.refl _, rfl, ?_⟩
    rw [List.forall₂_map_right_iff]
    exact List.forall₂_same.2 fun f _ => .capture _ _ f

/-- A thread that cannot be recorded leaves the table as it is. -/
theorem recordSpawn (s : Checker) (id : SymbolId) (e : Expr) (position : Position) :
    s.SameSurroundings ((recordSpawn id e position).after s) := by
  refine of_stays (.recordSpawn id e position) ?_
  rcases table_recordSpawn s id e position with ht | ⟨bound, frozen, hb, -, -, ht⟩
  · rw [ht]
    exact .refl _
  · rw [ht]
    exact .of_sameButThreads
      ((Table.SameButThreads.bind hb).trans (bound.sameButThreads_looksAt _ _))

theorem addNamespace (s : Checker) (name : String) :
    s.SameSurroundings (s.onLedger fun l => (l.addNamespace name).1) := by
  refine onLedger ?_
  rw [Ledger.table_addNamespace]
  cases ha : s.table.addNamespace name with
  | none => exact .refl _
  | some r => exact .addNamespace ha

theorem addFunctionToNamespace (s : Checker) (space name : String) (type : Ty)
    (modifier declared : Modifier) :
    s.SameSurroundings
      (s.onLedger fun l => (l.addFunctionToNamespace space name type modifier declared).1) := by
  refine onLedger ?_
  rw [Ledger.table_addFunctionToNamespace]
  cases ha : s.table.addFunctionToNamespace space name type modifier declared with
  | none => exact .refl _
  | some r => exact .addFunctionToNamespace ha

/-- Waiting for a thread changes threads only. -/
theorem syncPending (s : Checker) (id : SymbolId) (name : String) :
    s.SameSurroundings ((syncPending id name).after s) :=
  of_stays (.syncPending id name) (.of_sameButThreads (sameButThreads_syncPending s id name))

/-! ### What is entered -/

theorem declareParams (s : Checker) (params : List (Param × Ty)) :
    s.SameSurroundings ((declareParams params).after s) := by
  refine of_stays (.declareParams params) ?_
  rw [table_declareParams]
  exact .addParams _

/-- The parameters of a function, with reports. -/
theorem declareCheckedParams (s : Checker) (params : List Param) :
    s.SameSurroundings ((declareCheckedParams params).after s) := by
  refine of_stays (.declareCheckedParams params) ?_
  rw [table_declareCheckedParams]
  exact .addParams _

theorem popScope {open_ : Ledger → Ledger} {scope : Scope}
    (ho : (open_ s.toLedger).table = s.table.openScope scope)
    (h : (s.onLedger open_).SameSurroundings s₁) :
    s.SameSurroundings (s₁.onLedger Ledger.popScope) := by
  have htable : (s.table.openScope scope).SameSurroundings s₁.table := ho ▸ h.table
  refine ⟨?_, h.importDepth, h.frames⟩
  rw [table_onLedger, Ledger.table_popScope]
  exact htable.popScope

theorem exitRegion (h : (s.onLedger Ledger.enterRegion).SameSurroundings s₁) :
    s.SameSurroundings (s₁.onLedger Ledger.exitRegion) :=
  ⟨.exitRegion h.table, h.importDepth, h.frames⟩

theorem popLambda (h : (pushLambda.after s).SameSurroundings s₁) :
    s.SameSurroundings (popLambda.after s₁) := by
  obtain ⟨htable, himport, hframes⟩ := h
  have himport : s₁.importDepth = s.importDepth := himport
  have hframes : List.Forall₂ LambdaFrame.Grows (_ :: s.frames) s₁.frames := hframes
  -- the frame that was pushed is still the first one, with its captures
  cases hf : s₁.frames with
  | nil =>
    rw [hf] at hframes
    cases hframes
  | cons frame frames =>
    rw [hf] at hframes
    obtain ⟨-, hrest⟩ := List.forall₂_cons.1 hframes
    refine ⟨?_, ?_, ?_⟩
    · rw [table_popLambda]
      exact htable
    · simpa [CheckM.popLambda, hf] using himport
    · simpa [CheckM.popLambda, hf] using hrest

theorem leaveModule
    (h : Checker.SameSurroundings { s with importDepth := s.importDepth + 1 } s₁) :
    s.SameSurroundings { s₁ with importDepth := s₁.importDepth - 1 } := by
  refine ⟨h.table, ?_, h.frames⟩
  show s₁.importDepth - 1 = s.importDepth
  rw [h.importDepth]
  rfl

/-- Nothing that the walk does leaves the place where it began for good. -/
theorem stable : Stable SameSurroundings SameSurroundings where
  refl := refl
  trans := trans
  ofExpr h := h
  stmtTrans := trans
  note _ _ _ := of_table (.refl _) rfl rfl
  captured := captured
  report _ _ := of_table (.refl _) rfl rfl
  declare _ _ _ _ _ := onLedger (.addQualified _ _ _ _)
  spawn _ s id e position _ := recordSpawn s id e position
  function _ _ _ _ _ _ := onLedger (.addFunction _ _ _ _)
  space _ s name _ := addNamespace s name
  member _ := addFunctionToNamespace
  scope _ _ _ h := popScope rfl h
  round _ _ _ _ _ h := popScope rfl ((onLedger (.add _ _ _)).trans h)
  lambdaFrame _ _ params _ h :=
    popScope rfl (((declareParams _ params).trans (onLedger .alignLocals)).trans h)
  functionFrame _ _ params _ h :=
    popScope rfl (((declareCheckedParams _ params).trans (onLedger .alignLocals)).trans h)
  region _ _ h := exitRegion h
  stmtRegion _ _ h := exitRegion h
  lambda _ _ h := popLambda h
  module _ _ h := leaveModule h

end Checker.SameSurroundings

/-- Every visit ends in the place where it began. -/
theorem sameSurroundings_visit (s : Checker) (v : Visit) : s.SameSurroundings (v.after s) :=
  Checker.SameSurroundings.stable.visitAfter .syncPending s v

/-- The second checker goes on in the place where the first one was, with what it has reported and
captured since. -/
structure Checker.Resumes (s s' : Checker) : Prop where
  /-- The current scope is the same one. -/
  current : s'.table.current = s.table.current
  /-- The current scope is there if it was. -/
  current_lt : s.table.current < s.table.scopes.size → s'.table.current < s'.table.scopes.size
  /-- As many regions have been entered. -/
  region : s'.table.region = s.table.region
  /-- As many imported modules are around. -/
  importDepth : s'.importDepth = s.importDepth
  /-- As many lambdas are around, and their parameters are as deep. -/
  depths : s'.frames.map LambdaFrame.depth = s.frames.map LambdaFrame.depth
  /-- The lambdas around keep their captures. -/
  captures : s.frames.Forall₂ (fun f f' => f.captures <+: f'.captures) s'.frames
  /-- Errors stay reported. -/
  errors : s.errors <+: s'.errors

/-- The parameters of a lambda are as deep as they were. -/
theorem Checker.SameSurroundings.depths {s s' : Checker} (h : s.SameSurroundings s') :
    s'.frames.map LambdaFrame.depth = s.frames.map LambdaFrame.depth := by
  have hframes := h.frames
  -- lambda by lambda, from the innermost one outward
  generalize s.frames = fs at hframes ⊢
  generalize s'.frames = fs' at hframes ⊢
  induction hframes with
  | nil => rfl
  | cons hf _ ih => rw [List.map_cons, List.map_cons, hf.depth, ih]

/-- Every visit ends where it began, and what it has reported and captured is added to what there
was. -/
theorem resumes_visit (s : Checker) (v : Visit) : s.Resumes (v.after s) := by
  have hplace := sameSurroundings_visit s v
  exact
    { current := hplace.table.current_eq
      current_lt := hplace.table.current_lt
      region := hplace.table.region
      importDepth := hplace.importDepth
      depths := hplace.depths
      captures := hplace.frames.imp fun _ _ hf => hf.captures
      errors := (reports_visit s v).errors }

/-- Checking an expression, whether it turns out to have a type or an error, and checking a
statement end in the place where they began. -/
theorem check_resumes (s : Checker) :
    (∀ hint e, s.Resumes ((checkExpr hint e).after s)) ∧
      ∀ ret st, s.Resumes ((checkStmt ret st).after s) :=
  ⟨fun hint e => resumes_visit s (.expr hint e), fun ret st => resumes_visit s (.stmt ret st)⟩

end ThreadRegions
