import ThreadRegions.Proofs.Annotation
import ThreadRegions.Proofs.Redeclare
import ThreadRegions.Proofs.Slots

/-!
# How a frame begins

A function or a lambda is entered with its parameters.  They take the first places of its frame, one
for each different name, in the order in which the names come first; parameters of one name are one
symbol.  The local variables go on behind them.

## Main Definitions

* `placeAmong`: the place of a name among the parameters
* `Table.HoldsParams`: the current scope has nothing but parameters, at their places
* `Table.KeepsHomes`: the symbols of a table stay where they are
* `Table.BeginsFrame`: the places of the parameters and of the first local variable

## Main Results

* `Table.holdsParams_addParams`: the places after the parameters have been declared
* `sameButThreads_visit`: a tree without declarations and scopes changes nothing but threads
* `checked_beginsFrame`: the frame of a function and the frame of a lambda
-/

namespace ThreadRegions

open CheckM

/-! ### The places of names -/

/-- The place of a name among the given ones.  Each takes a place where it comes first; a name that
is not among them takes the next one. -/
def placeAmong (names : List String) (x : String) : Nat := names.eraseDups.idxOf x

section

variable {names : List String} {x y : String}

/-- A name that has been there takes no new place. -/
theorem eraseDups_concat_of_mem (hx : x ∈ names) :
    (names ++ [x]).eraseDups = names.eraseDups := by
  have hnone : [x].removeAll names = [] := by simp [List.removeAll, hx]
  rw [List.eraseDups_append, hnone, List.eraseDups_nil, List.append_nil]

/-- A new name comes last. -/
theorem eraseDups_concat_of_notMem (hx : x ∉ names) :
    (names ++ [x]).eraseDups = names.eraseDups ++ [x] := by
  have hone : [x].removeAll names = [x] := by simp [List.removeAll, hx]
  rw [List.eraseDups_append, hone]
  rfl

/-- Different names are all kept. -/
theorem eraseDups_of_nodup {names : List String} (h : names.Nodup) : names.eraseDups = names := by
  induction names with
  | nil => rfl
  | cons x others ih =>
    obtain ⟨hx, hothers⟩ := List.nodup_cons.1 h
    have hfilter : others.filter (fun y => !(y == x)) = others := by
      refine List.filter_eq_self.2 fun y hy => ?_
      have hne : y ≠ x := fun heq => hx (heq ▸ hy)
      simp [hne]
    rw [List.eraseDups_cons, hfilter, ih hothers]

/-- One more name does not move the others. -/
theorem placeAmong_concat (hy : y ∈ names) : placeAmong (names ++ [x]) y = placeAmong names y := by
  unfold placeAmong
  rw [List.eraseDups_append]
  exact List.idxOf_append_of_mem (List.mem_eraseDups.2 hy)

/-- A name that is not among the given ones takes the place behind them. -/
theorem placeAmong_of_notMem (hx : x ∉ names) : placeAmong names x = names.eraseDups.length :=
  List.idxOf_eq_length fun h => hx (List.mem_eraseDups.1 h)

/-- A new name gets the place that it would have taken before it was there. -/
theorem placeAmong_concat_self (hx : x ∉ names) :
    placeAmong (names ++ [x]) x = names.eraseDups.length := by
  unfold placeAmong
  rw [eraseDups_concat_of_notMem hx,
    List.idxOf_append_of_notMem fun h => hx (List.mem_eraseDups.1 h)]
  simp

/-- Different names take the places one after the other. -/
theorem placeAmong_of_nodup (h : names.Nodup) {i : Nat} (hi : names[i]? = some x) :
    placeAmong names x = i := by
  obtain ⟨hlt, rfl⟩ := List.getElem?_eq_some_iff.1 hi
  rw [placeAmong, eraseDups_of_nodup h, h.idxOf_getElem]

end

/-- The symbol has the given kind and the place with the given number in its frame. -/
def Symbol.StandsAt (s : Symbol) (kind : SymbolKind) (n : Nat) : Prop :=
  s.kind = kind ∧ s.offset = -((frameBase + frameAlignment * n : Nat) : Int)

/-- A symbol stands at its place as long as its home is the same. -/
theorem Symbol.StandsAt.of_home_eq {s s' : Symbol} {kind : SymbolKind} {n : Nat}
    (h : s.StandsAt kind n) (hs : s'.home = s.home) : s'.StandsAt kind n := by
  obtain ⟨hk, ho, -⟩ := Symbol.home_eq_iff.1 hs
  exact ⟨hk.trans h.1, ho.trans h.2⟩

namespace Table

/-! ### Declaring the parameters -/

/-- The current scope has the names, each as a parameter at its place, and no others. -/
structure HoldsParams (t : Table) (names : List String) : Prop where
  counter : (t.scope t.current).params = frameBase + frameAlignment * names.eraseDups.length
  found : ∀ x ∈ names, ∃ a, t.lookupCurrent x = some a ∧
    (t.symbol a).StandsAt .param (placeAmong names x)
  none : ∀ x, x ∉ names → t.lookupCurrent x = none

variable {t t' : Table} {names : List String}

/-- A declaration does not move the symbols that have been there, not even the one of its own name.
-/
theorem home_addQualified {a : SymbolId} (ha : a < t.symbols.size) (x : String) (type : Ty)
    (kind : SymbolKind) (q : Qualifier) :
    ((t.addQualified x type kind q).1.symbol a).home = (t.symbol a).home := by
  have hadd : ((t.add x type kind).1.symbol a).home = (t.symbol a).home := by
    unfold add
    -- the name has been declared in this scope, or gets a new symbol
    split
    · exact view_modifySymbol Symbol.home rfl a
    · exact congrArg Symbol.home (symbol_addNew_of_lt t x type kind ha)
  exact (view_modifySymbol Symbol.home rfl a).trans hadd

/-- What is found in the current scope after a declaration. -/
theorem lookupCurrent_addQualified (hw : t.WellFormed) (x : String) (type : Ty) (kind : SymbolKind)
    (q : Qualifier) (y : String) :
    (t.addQualified x type kind q).1.lookupCurrent y =
      if y = x then some (t.addQualified x type kind q).2 else t.lookupCurrent y := by
  rw [lookupCurrent, current_addQualified, findIn_addQualified_current hw, lookupCurrent]

/-- A new frame has no names, and its counter is at the first place. -/
theorem holdsParams_pushFrame (t : Table) : t.pushFrame.HoldsParams [] := by
  have hself : t.pushFrame.scope t.pushFrame.current =
      { t.nested with locals := frameBase, params := frameBase } := scope_openScope_self _
  refine ⟨?_, fun x hx => absurd hx List.not_mem_nil, fun x _ => ?_⟩
  · rw [hself]
    rfl
  · rw [lookupCurrent, findIn, hself]
    rfl

/-- A parameter takes the next place if its name is new, and changes the type of the other one if it
is not. -/
theorem HoldsParams.addQualified (h : t.HoldsParams names) (hw : t.WellFormed) (x : String)
    (type : Ty) (q : Qualifier) :
    (t.addQualified x type .param q).1.HoldsParams (names ++ [x]) := by
  have hcurrent := current_addQualified t x type .param q
  have hlookup := lookupCurrent_addQualified hw x type .param q
  -- the names that have been there keep their places
  have hold : ∀ y ∈ names, ∃ a, t.lookupCurrent y = some a ∧
      ((t.addQualified x type .param q).1.symbol a).StandsAt .param
        (placeAmong (names ++ [x]) y) := by
    intro y hy
    obtain ⟨a, ha, hstands⟩ := h.found y hy
    rw [placeAmong_concat hy]
    exact ⟨a, ha, hstands.of_home_eq (home_addQualified (hw.lookupCurrent_lt ha) x type .param q)⟩
  have hnone : ∀ y, y ∉ names ++ [x] →
      (t.addQualified x type .param q).1.lookupCurrent y = Option.none := by
    intro y hy
    simp only [List.mem_append, List.mem_singleton, not_or] at hy
    rw [hlookup, if_neg hy.2]
    exact h.none y hy.1
  -- a name that comes again takes no place, and a new one takes the next
  by_cases hx : x ∈ names
  · obtain ⟨b, hb, -⟩ := h.found x hx
    have hadd := addQualified_of_some x type .param q hb
    refine ⟨?_, fun y hy => ?_, hnone⟩
    · rw [hcurrent, eraseDups_concat_of_mem hx, hadd]
      exact h.counter
    · have hy : y ∈ names := by
        rcases List.mem_append.1 hy with hy | hy
        · exact hy
        · exact List.mem_singleton.1 hy ▸ hx
      obtain ⟨a, ha, hstands⟩ := hold y hy
      refine ⟨a, ?_, hstands⟩
      rw [hlookup, hadd]
      split
      · next heq =>
        rw [heq] at ha
        exact hb.symm.trans ha
      · exact ha
  · have hadd : t.add x type .param = (t.addNew x type .param, t.symbols.size) := by
      rw [add, h.none x hx]
    refine ⟨?_, fun y hy => ?_, hnone⟩
    · rw [hcurrent, eraseDups_concat_of_notMem hx]
      simp only [Table.addQualified, hadd]
      rw [setQualifier, scope_modifySymbol, scope_addNew_self t x type .param hw,
        List.length_append, List.length_singleton, Nat.mul_add, Nat.mul_one, ← Nat.add_assoc,
        ← h.counter]
      exact congrArg _ (frameSize_eq type)
    · by_cases hyx : y = x
      · subst hyx
        refine ⟨_, by rw [hlookup, if_pos rfl], ?_⟩
        rw [symbol_addQualified_of_none y type .param q (h.none y hx), placeAmong_concat_self hx]
        refine ⟨rfl, ?_⟩
        rw [← h.counter]
        rfl
      · have hy : y ∈ names := by
          rcases List.mem_append.1 hy with hy | hy
          · exact hy
          · exact absurd (List.mem_singleton.1 hy) hyx
        obtain ⟨a, ha, hstands⟩ := hold y hy
        exact ⟨a, by rw [hlookup, if_neg hyx]; exact ha, hstands⟩

theorem holdsParams_addParams (hw : t.WellFormed) (params : List (String × Ty × Qualifier)) :
    (t.pushFrame.addParams params).HoldsParams (params.map Prod.fst) := by
  -- from the end, since the places of the first names do not depend on those that follow
  induction params using List.reverseRecOn with
  | nil => exact holdsParams_pushFrame t
  | append_singleton params p ih =>
    rw [List.map_append, addParams, List.foldl_append]
    exact ih.addQualified (hw.pushFrame.addParams params) p.1 p.2.1 p.2.2

/-! ### Going on behind them -/

/-- The current scope has parameters, and its local variables begin behind them. -/
structure EntersBody (t : Table) (names : List String) : Prop where
  params : t.HoldsParams names
  inner : t.isGlobal = false
  aligned : (t.scope t.current).locals = (t.scope t.current).params

/-- What matters are the symbols of the current scope, its counter of parameters, and the names and
homes of all symbols. -/
theorem HoldsParams.congr (h : t.HoldsParams names) (hi : t'.inner = t.inner)
    (hs : (t'.scope t.current).symbols = (t.scope t.current).symbols)
    (hp : (t'.scope t.current).params = (t.scope t.current).params)
    (hn : ∀ a, (t'.symbol a).name = (t.symbol a).name)
    (hh : ∀ a, (t'.symbol a).home = (t.symbol a).home) : t'.HoldsParams names := by
  have hcurrent : t'.current = t.current := by rw [current, current, hi]
  have hlookup : ∀ x, t'.lookupCurrent x = t.lookupCurrent x := by
    intro x
    simp only [lookupCurrent, findIn, findLast, hcurrent, hs, hn]
  refine ⟨?_, fun x hx => ?_, fun x hx => ?_⟩
  · rw [hcurrent, hp]
    exact h.counter
  · obtain ⟨a, ha, hstands⟩ := h.found x hx
    exact ⟨a, (hlookup x).trans ha, hstands.of_home_eq (hh a)⟩
  · exact (hlookup x).trans (h.none x hx)

/-- When its parameters have been declared, a frame is ready for its body. -/
theorem entersBody_frame (hw : t.WellFormed) (params : List (String × Ty × Qualifier)) :
    (t.pushFrame.addParams params).alignLocals.EntersBody (params.map Prod.fst) := by
  have hscope : (t.pushFrame.addParams params).alignLocals.scope
      (t.pushFrame.addParams params).current = { (t.pushFrame.addParams params).scope
        (t.pushFrame.addParams params).current with
          locals := ((t.pushFrame.addParams params).scope
            (t.pushFrame.addParams params).current).params } :=
    scope_modifyScope_self (hw.pushFrame.addParams params).current_lt
  refine ⟨(holdsParams_addParams hw params).congr rfl ?_ ?_ (fun _ => rfl) fun _ => rfl, ?_, ?_⟩
  · rw [hscope]
  · rw [hscope]
  · rw [isGlobal, alignLocals, inner_modifyScope, inner_addParams]
    rfl
  · exact hscope ▸ rfl

/-- Starting and waiting for threads takes no place. -/
theorem EntersBody.of_sameButThreads (h : t.EntersBody names) (hs : t.SameButThreads t') :
    t'.EntersBody names := by
  have hcurrent : t'.current = t.current := by rw [current, current, hs.inner]
  refine ⟨h.params.congr hs.inner ?_ ?_ (hs.field Symbol.name fun _ => rfl)
    (hs.field Symbol.home fun _ => rfl), ?_, ?_⟩
  · rw [hs.scope_eq]
  · rw [hs.scope_eq]
  · rw [isGlobal, hs.inner]
    exact h.inner
  · rw [hcurrent, hs.scope_eq]
    exact h.aligned

/-- The first declaration in the body takes the place behind the parameters, unless it has the name
of one of them. -/
theorem EntersBody.standsAt_add (h : t.EntersBody names) (x : String) (type : Ty) :
    ((t.add x type t.declarationKind).1.symbol (t.add x type t.declarationKind).2).StandsAt
      (if x ∈ names then .param else .local_) (placeAmong names x) := by
  -- parameters and local variables share one scope, so a name may be taken by a parameter
  by_cases hx : x ∈ names
  · obtain ⟨a, ha, hstands⟩ := h.params.found x hx
    rw [if_pos hx, add, ha]
    exact hstands.of_home_eq (view_modifySymbol Symbol.home rfl a)
  · have hkind : t.declarationKind = .local_ := by
      rw [declarationKind, h.inner]
      rfl
    rw [if_neg hx, add, h.params.none x hx, placeAmong_of_notMem hx, hkind]
    show ((t.addNew x type .local_).symbol t.symbols.size).StandsAt _ _
    rw [symbol_addNew_self]
    refine ⟨rfl, ?_⟩
    rw [← h.params.counter, ← h.aligned]
    rfl

/-- The qualifier of a variable does not move it. -/
theorem EntersBody.standsAt_addQualified (h : t.EntersBody names) (x : String) (type : Ty)
    (q : Qualifier) :
    ((t.addQualified x type t.declarationKind q).1.symbol
        (t.addQualified x type t.declarationKind q).2).StandsAt
      (if x ∈ names then .param else .local_) (placeAmong names x) :=
  (h.standsAt_add x type).of_home_eq (view_modifySymbol Symbol.home rfl _)

/-- A function inside of a function is declared like a local variable. -/
theorem EntersBody.standsAt_addFunction (h : t.EntersBody names) (x : String) (type : Ty)
    (modifier declared : Modifier) :
    ((t.addFunction x type modifier declared).1.symbol
        (t.addFunction x type modifier declared).2).StandsAt
      (if x ∈ names then .param else .local_) (placeAmong names x) :=
  (h.standsAt_add x type).of_home_eq (view_modifySymbol Symbol.home rfl _)

/-! ### Symbols stay where they are -/

/-- The symbols of the first table are in the second one too, at the same places. -/
structure KeepsHomes (t t' : Table) : Prop where
  size_le : t.symbols.size ≤ t'.symbols.size
  home : ∀ a, a < t.symbols.size → (t'.symbol a).home = (t.symbol a).home

namespace KeepsHomes

variable {t t₁ t₂ : Table}

theorem refl (t : Table) : t.KeepsHomes t := ⟨Nat.le_refl _, fun _ _ => rfl⟩

theorem trans (h : t.KeepsHomes t₁) (h' : t₁.KeepsHomes t₂) : t.KeepsHomes t₂ where
  size_le := Nat.le_trans h.size_le h'.size_le
  home a ha := (h'.home a (Nat.lt_of_lt_of_le ha h.size_le)).trans (h.home a ha)

/-- The home is a part of what persists about a symbol. -/
theorem of_persists (h : t.Persists t₁) : t.KeepsHomes t₁ where
  size_le := h.symbols_le
  home a ha := congrArg (fun b => (b.2.1, b.2.2.2.1, b.2.2.1)) (h.symbol a ha)

theorem of_sameButThreads (h : t.SameButThreads t₁) : t.KeepsHomes t₁ :=
  of_persists (OpensNone.of_sameButThreads h).toPersists

theorem setFunction (t : Table) (id : SymbolId) (modifier declared : Modifier) :
    t.KeepsHomes (t.setFunction id modifier declared) :=
  of_persists (OpensNone.modifySymbol rfl).toPersists

theorem openScope (s : Scope) : t.KeepsHomes (t.openScope s) := of_persists (.openScope s)

theorem enterRegion (t : Table) : t.KeepsHomes t.enterRegion :=
  of_persists (OpensNone.enterRegion t).toPersists

theorem exitRegion (t : Table) : t.KeepsHomes t.exitRegion :=
  of_persists (OpensNone.exitRegion t).toPersists

theorem popScope (t : Table) : t.KeepsHomes t.popScope :=
  of_persists (OpensNone.popScope t).toPersists

/-- A declaration puts a symbol behind the others, or changes the type of one of them. -/
theorem add (x : String) (type : Ty) (kind : SymbolKind) :
    t.KeepsHomes (t.add x type kind).1 :=
  of_persists (OpensNone.add x type kind).toPersists

theorem addQualified (x : String) (type : Ty) (kind : SymbolKind) (q : Qualifier) :
    t.KeepsHomes (t.addQualified x type kind q).1 :=
  of_persists (OpensNone.addQualified x type kind q).toPersists

theorem frame (params : List (String × Ty × Qualifier)) :
    t.KeepsHomes (t.pushFrame.addParams params).alignLocals := by
  have hparams := (OpensNone.addParams (t := t.pushFrame) params).trans (.alignLocals _)
  exact of_persists ((Persists.openScope _).trans hparams.toPersists)

theorem addNamespace {name : String} {id : SymbolId} (h : t.addNamespace name = some (t₁, id)) :
    t.KeepsHomes t₁ :=
  of_persists (OpensNone.addNamespace h).toPersists

theorem addFunctionToNamespace {space name : String} {type : Ty} {modifier declared : Modifier}
    {id : SymbolId}
    (h : t.addFunctionToNamespace space name type modifier declared = some (t₁, id)) :
    t.KeepsHomes t₁ :=
  of_persists (OpensNone.addFunctionToNamespace h).toPersists

/-- No step moves a symbol. -/
theorem stable : Table.Stable KeepsHomes KeepsHomes where
  refl := refl
  trans := trans
  ofExpr h := h
  stmtTrans := trans
  declare _ _ name type q := addQualified name type _ q
  spawn {_ bound id frozen} _ _ _ hb _ _ :=
    of_sameButThreads ((SameButThreads.bind hb).trans (bound.sameButThreads_looksAt id frozen))
  function _ _ name type modifier declared :=
    (add name type _).trans (setFunction _ _ modifier declared)
  space _ _ _ ha := addNamespace ha
  member _ _ ha := addFunctionToNamespace ha
  wait _ hv := of_sameButThreads (sameButThreads_syncVariable hv)
  scope _ _ _ _ _ h := ((openScope _).trans h).trans (popScope _)
  round name type _ _ _ _ _ h :=
    (((openScope _).trans (add name type .param)).trans h).trans (popScope _)
  frame params _ _ _ _ _ h := ((frame params).trans h).trans (popScope _)
  region {t t'} h := (enterRegion t).trans (h.trans (exitRegion t'))
  stmtRegion {t t'} h := (enterRegion t).trans (h.trans (exitRegion t'))

/-- A symbol that is in the table stands at its place from then on. -/
theorem standsAt (h : t.KeepsHomes t₁) {a : SymbolId} (ha : a < t.symbols.size) {kind : SymbolKind}
    {n : Nat} (hs : (t.symbol a).StandsAt kind n) : (t₁.symbol a).StandsAt kind n :=
  hs.of_home_eq (h.home a ha)

end KeepsHomes

/-- Without declarations and scopes nothing is left in the table. -/
theorem sameButThreads_stableIn :
    Table.StableIn (fun _ => False) SameButThreads SameButThreads where
  refl := .refl
  trans := .trans
  ofExpr h := h
  stmtTrans := .trans
  declare hA := hA.elim
  spawn hA := hA.elim
  function hA := hA.elim
  space hA := hA.elim
  member hA := hA.elim
  wait _ hv := sameButThreads_syncVariable hv
  scope hA := hA.elim
  round _ _ hA := hA.elim
  frame _ hA := hA.elim
  region h := ⟨h.scopes, h.inner, congrArg (· - 1) h.region, h.size, h.plain⟩
  stmtRegion h := ⟨h.scopes, h.inner, congrArg (· - 1) h.region, h.size, h.plain⟩

end Table

/-- No tree moves a symbol that has been declared before. -/
theorem keepsHomes_visit {s : Checker} (hw : s.table.WellFormed) (v : Visit) :
    s.table.KeepsHomes (v.after s).table :=
  (Table.KeepsHomes.stable.visitAfter s v hw).2.2.2

/-- A tree without declarations and scopes changes nothing but threads. -/
theorem sameButThreads_visit {s : Checker} (hw : s.table.WellFormed) {v : Visit}
    (hv : v.constructs = []) : s.table.SameButThreads (v.after s).table := by
  have hp := Table.sameButThreads_stableIn.visitTree ⟨s, v⟩ fun k hk =>
    absurd (hv ▸ hk) List.not_mem_nil
  unfold Point.Holds at hp
  cases v with
  | _ => exact (hp hw).2.2.2

/-! ### The first declaration of a body -/

/-- The name that a statement declares where it stands, and the symbol that it carries. -/
def Stmt.declared? : Stmt → Option (String × Option SymbolId)
  | .declare _ head _ => some (head.name, head.symbol)
  | .function _ head _ => some (head.name, head.symbol)
  | _ => none

/-- What is inside of a statement and comes before the name that it declares. -/
def Stmt.constructsBefore : Stmt → List Construct
  | .declare _ _ init => exprConstructs? init
  | _ => []

/-- Statements are checked one after the other, so a list of them can be cut anywhere. -/
theorem checkStmts_append (ret : Ty) (sts others : List Stmt) (s : Checker) :
    (checkStmts ret (sts ++ others)).after s =
        (checkStmts ret others).after ((checkStmts ret sts).after s) ∧
      (checkStmts ret (sts ++ others)).answer s =
        (checkStmts ret sts).answer s ++
          (checkStmts ret others).answer ((checkStmts ret sts).after s) := by
  induction sts generalizing s with
  | nil => exact ⟨rfl, rfl⟩
  | cons st sts ih =>
    obtain ⟨hafter, hanswer⟩ := ih ((checkStmt ret st).after s)
    simp only [List.cons_append, checkStmts, after_bind, answer_bind, after_pure, answer_pure,
      hafter, hanswer, and_self]

/-- The checker answers one statement for each statement, so they can be told apart by their
numbers. -/
theorem length_checkStmts (ret : Ty) (sts : List Stmt) (s : Checker) :
    ((checkStmts ret sts).answer s).length = sts.length := by
  induction sts generalizing s with
  | nil => rfl
  | cons st sts ih =>
    simp only [checkStmts, answer_bind, answer_pure, List.length_cons, ih]

/-- A function without an error: the state in which its body is checked, and what it looks like
afterwards. -/
theorem silent_function {s : Checker} {ret : Ty} {span : Span} {head : FunctionHead}
    {body : List Stmt}
    (he : ((checkStmt ret (.function span head body)).after s).errors = s.errors) :
    let s₁ := (declareFunction head).after ((reportHead span head).after s)
    let s₂ := (enterFunction head).after s₁
    (checkStmt ret (.function span head body)).answer s = .function span
        { head with
          effective := some (effectiveModifier head.modifier head.ret)
          params := (declareCheckedParams head.params).answer
            (((enterRegionIf (head.modifier = .isolated)).after s₁).onLedger Ledger.pushFrame)
          symbol := some ((declareFunction head).answer ((reportHead span head).after s)) }
        ((checkStmts head.ret body).answer s₂) ∧
      (checkStmt ret (.function span head body)).after s =
        (leaveBlock head.modifier).after ((checkStmts head.ret body).after s₂) ∧
      ((checkStmts head.ret body).after s₂).errors = s₂.errors := by
  intro s₁ s₂
  have hhead : s.Reports ((reportHead span head).after s) :=
    Checker.Reports.stable.reportHead span head
  rw [checkStmt] at he ⊢
  rw [after_checkFunction] at he ⊢
  dsimp only at he ⊢
  -- a name that clashes is reported, which the assumption rules out
  cases hclash : ((reportHead span head).after s).clashes head.name with
  | true =>
    rw [hclash, if_pos rfl] at he
    exact absurd he (hhead.report_ne _)
  | false =>
    simp only [hclash, Bool.false_eq_true, if_false] at he ⊢
    have henter : s.Reports s₂ :=
      (hhead.trans (Checker.Reports.stable.declareFunction head)).trans (.enterFunction head)
    have hbody : s₂.Reports ((checkStmts head.ret body).after s₂) :=
      reports_checkStmts s₂ head.ret body
    obtain ⟨-, he⟩ := henter.silent (hbody.trans (.leaveBlock head.modifier)) he
    exact ⟨answer_checkFunction hclash _ _, rfl, (hbody.silent (.leaveBlock head.modifier) he).1⟩

/-- The name of a function is declared with its own modifier and with the one that is in effect. -/
theorem declareFunction_eq (s : Checker) (head : FunctionHead) :
    (((declareFunction head).after s).table, (declareFunction head).answer s) =
      s.table.addFunction head.name head.type (effectiveModifier head.modifier head.ret)
        head.modifier := by
  simp only [declareFunction, after_bind, answer_bind, after_askLedger, answer_askLedger,
    after_pure, answer_pure, table_note]
  rfl

theorem wellFormed_enterFunction {s : Checker} (hw : s.table.WellFormed) (head : FunctionHead) :
    ((enterFunction head).after s).table.WellFormed := by
  rw [table_enterFunction]
  exact ((hw.enterRegionIf _).pushFrame.addParams _).alignLocals

theorem wellFormed_enterLambda {s : Checker} (hw : s.table.WellFormed) (head : LambdaHead)
    (types : List Ty) : ((enterLambda head types).after s).table.WellFormed := by
  rw [table_enterLambda]
  exact ((hw.enterRegionIf _).pushFrame.addParams _).alignLocals

/-- Entering a function adds its parameters and moves nothing. -/
theorem keepsHomes_enterFunction (s : Checker) (head : FunctionHead) :
    s.table.KeepsHomes ((enterFunction head).after s).table := by
  rw [table_enterFunction, table_enterRegionIf]
  split
  · exact (Table.KeepsHomes.enterRegion _).trans (.frame _)
  · exact .frame _

theorem keepsHomes_leaveBlock (s : Checker) (modifier : Modifier) :
    s.table.KeepsHomes ((leaveBlock modifier).after s).table := by
  have hpop : s.table.KeepsHomes (s.onLedger Ledger.popScope).table := by
    rw [Checker.table_onLedger, Ledger.table_popScope]
    exact .popScope _
  refine hpop.trans ?_
  show Table.KeepsHomes _ ((exitRegionIf (modifier = .isolated)).after _).table
  cases decide (modifier = .isolated)
  · exact .refl _
  · exact .exitRegion _

section

variable {s : Checker} {names : List String} (hw : s.table.WellFormed)
  (h : s.table.EntersBody names)

include hw h

theorem declare_standsAt {ret : Ty} {span : Span} {head : VariableHead} {init : Option Expr}
    (hi : exprConstructs? init = [])
    (he : ((checkStmt ret (.declare span head init)).after s).errors = s.errors) :
    ∃ st a, (checkStmt ret (.declare span head init)).answer s = st ∧
      st.declared? = some (head.name, some a) ∧
      a < ((checkStmt ret (.declare span head init)).after s).table.symbols.size ∧
      (((checkStmt ret (.declare span head init)).after s).table.symbol a).StandsAt
        (if head.name ∈ names then .param else .local_) (placeAmong names head.name) := by
  have hsame : s.table.SameButThreads (s.afterInit head init).table := by
    cases init with
    | none => exact .refl _
    | some e => exact sameButThreads_visit hw (v := .expr head.type e) hi
  -- the initial value is checked before the name is declared, and leaves no symbol behind
  obtain ⟨head', init', type, hans, hname, -, -, hsymbol, hthreads, -⟩ := silent_declare he
  have hstands := (h.of_sameButThreads hsame).standsAt_addQualified head.name type head.qualifier
  obtain ⟨a, ha, hlt, -⟩ := Table.knows_addQualified (hsame.wellFormed hw) head.name type
    (s.afterInit head init).table.declarationKind head.qualifier
  refine ⟨_, a, rfl, ?_, hthreads.size ▸ hlt, ?_⟩
  · rw [hans, Stmt.declared?, hname, hsymbol, ha]
  · refine (Table.KeepsHomes.of_sameButThreads hthreads).standsAt hlt ?_
    obtain rfl := Option.some.inj ha
    exact hstands

theorem function_standsAt {ret : Ty} {span : Span} {head : FunctionHead} {body : List Stmt}
    (he : ((checkStmt ret (.function span head body)).after s).errors = s.errors) :
    ∃ st a, (checkStmt ret (.function span head body)).answer s = st ∧
      st.declared? = some (head.name, some a) ∧
      a < ((checkStmt ret (.function span head body)).after s).table.symbols.size ∧
      (((checkStmt ret (.function span head body)).after s).table.symbol a).StandsAt
        (if head.name ∈ names then .param else .local_) (placeAmong names head.name) := by
  obtain ⟨hans, hafter, -⟩ := silent_function he
  have htable := table_reportHead s span head
  have hw₀ : ((reportHead span head).after s).table.WellFormed := htable ▸ hw
  have hw₁ := (Table.Lasts.stable.toStable.declareFunction head trivial hw₀).1
  have hdeclare := declareFunction_eq ((reportHead span head).after s) head
  have hstands := h.standsAt_addFunction head.name head.type
    (effectiveModifier head.modifier head.ret) head.modifier
  obtain ⟨a, ha, hlt, -⟩ := Table.knows_addFunction hw₀ head.name head.type
    (effectiveModifier head.modifier head.ret) head.modifier
  rw [← htable, ← hdeclare] at hstands
  rw [← hdeclare] at ha hlt
  -- the rest of the function leaves its symbol where it is
  have hkeeps := ((keepsHomes_enterFunction _ head).trans (keepsHomes_visit
    (wellFormed_enterFunction hw₁ head) (.stmts head.ret body))).trans
      (keepsHomes_leaveBlock _ head.modifier)
  rw [hans, hafter]
  refine ⟨_, a, rfl, ?_, Nat.lt_of_lt_of_le hlt hkeeps.size_le, hkeeps.standsAt hlt ?_⟩
  · rw [Stmt.declared?, ha]
  · obtain rfl := Option.some.inj ha
    exact hstands

theorem first_standsAt {ret : Ty} {before rest : List Stmt} {st : Stmt} {x : String}
    {old : Option SymbolId} (hb : stmtsConstructs before = []) (hst : st.constructsBefore = [])
    (hx : st.declared? = some (x, old))
    (he : ((checkStmts ret (before ++ st :: rest)).after s).errors = s.errors) :
    ∃ st' a, ((checkStmts ret (before ++ st :: rest)).answer s)[before.length]? = some st' ∧
      st'.declared? = some (x, some a) ∧
      a < ((checkStmts ret (before ++ st :: rest)).after s).table.symbols.size ∧
      (((checkStmts ret (before ++ st :: rest)).after s).table.symbol a).StandsAt
        (if x ∈ names then .param else .local_) (placeAmong names x) := by
  obtain ⟨hafter, hanswer⟩ := checkStmts_append ret before (st :: rest) s
  rw [hafter] at he ⊢
  rw [hanswer, ← length_checkStmts ret before s, List.getElem?_append_right (Nat.le_refl _),
    Nat.sub_self]
  -- nothing happens before the declaration
  have hsame : s.table.SameButThreads ((checkStmts ret before).after s).table :=
    sameButThreads_visit hw (v := .stmts ret before) hb
  have hw₁ := hsame.wellFormed hw
  have h₁ := h.of_sameButThreads hsame
  obtain ⟨-, he⟩ := (reports_checkStmts s ret before).silent (reports_checkStmts _ ret _) he
  generalize (checkStmts ret before).after s = s₁ at *
  simp only [checkStmts, after_bind, answer_bind, after_pure, answer_pure] at he ⊢
  obtain ⟨he, -⟩ := (reports_checkStmt s₁ ret st).silent (reports_checkStmts _ ret rest) he
  have hdecl : ∃ st' a, (checkStmt ret st).answer s₁ = st' ∧ st'.declared? = some (x, some a) ∧
      a < ((checkStmt ret st).after s₁).table.symbols.size ∧
      (((checkStmt ret st).after s₁).table.symbol a).StandsAt
        (if x ∈ names then .param else .local_) (placeAmong names x) := by
    cases st with
    | declare span head init =>
      cases hx
      exact declare_standsAt hw₁ h₁ hst he
    | function span head body =>
      cases hx
      exact function_standsAt hw₁ h₁ he
    | _ => cases hx
  obtain ⟨st', a, hans, hdeclared, hlt, hstands⟩ := hdecl
  have hkeeps := keepsHomes_visit (hw₁.lasts_visit (.stmt ret st)).1 (.stmts ret rest)
  refine ⟨st', a, ?_, hdeclared, Nat.lt_of_lt_of_le hlt hkeeps.size_le, hkeeps.standsAt hlt hstands⟩
  rw [hans]
  rfl

end

/-! ### The frame of a function and the frame of a lambda -/

/-- How a frame begins.  The parameters and the body `body'` are what the checker has made of the
parameters and the body `body`. -/
structure Table.BeginsFrame (t : Table) (params : List Param) (body body' : List Stmt) : Prop where
  /-- Each parameter has a symbol at the place of its name. -/
  param : ∀ p ∈ params, ∃ a, p.symbol = some a ∧
    (t.symbol a).StandsAt .param (placeAmong (params.map Param.name) p.name)
  /-- The parameters of one name have one symbol, and those of different names have different
  ones. -/
  shared : ∀ p ∈ params, ∀ q ∈ params, p.symbol = q.symbol ↔ p.name = q.name
  /-- If the names are different, the parameters stand one after the other. -/
  distinct : (params.map Param.name).Nodup → (params.map Param.symbol).Nodup ∧
    (∀ i p, params[i]? = some p → placeAmong (params.map Param.name) p.name = i) ∧
    ∀ x, x ∉ params.map Param.name → placeAmong (params.map Param.name) x = params.length
  /-- The first declaration of the body, with nothing declared or opened before it, takes the next
  place, unless it has the name of a parameter. -/
  first : ∀ before st rest x old, body = before ++ st :: rest → stmtsConstructs before = [] →
    st.constructsBefore = [] → st.declared? = some (x, old) →
      ∃ st' a, body'[before.length]? = some st' ∧ st'.declared? = some (x, some a) ∧
        (t.symbol a).StandsAt (if x ∈ params.map Param.name then .param else .local_)
          (placeAmong (params.map Param.name) x)

/-- The parameters that the current scope has stay where they are until the frame has been left. -/
theorem Table.EntersBody.beginsFrame {t t' : Table} {params declared : List Param}
    {body body' : List Stmt} (h : t.EntersBody (params.map Param.name)) (hw : t.WellFormed)
    (hp : t.HasParams params declared) (hk : t.KeepsHomes t')
    (hfirst : ∀ before st rest x old, body = before ++ st :: rest → stmtsConstructs before = [] →
      st.constructsBefore = [] → st.declared? = some (x, old) →
        ∃ st' a, body'[before.length]? = some st' ∧ st'.declared? = some (x, some a) ∧
          (t'.symbol a).StandsAt (if x ∈ params.map Param.name then .param else .local_)
            (placeAmong (params.map Param.name) x)) :
    t'.BeginsFrame declared body body' := by
  have hshared : ∀ p ∈ declared, ∀ q ∈ declared, p.symbol = q.symbol ↔ p.name = q.name := by
    intro p hpmem q hqmem
    obtain ⟨a, ha, hfa⟩ := hp.found p hpmem
    obtain ⟨b, hb, hfb⟩ := hp.found q hqmem
    -- one symbol has one name, and one name is found once in a scope
    constructor
    · intro heq
      rw [ha, hb] at heq
      rw [← (findIn_eq_some hfa).2, ← (findIn_eq_some hfb).2, Option.some.inj heq]
    · intro heq
      rw [heq] at hfa
      rw [ha, hb, ← hfa, hfb]
  constructor
  · intro p hpmem
    obtain ⟨a, ha, hfa⟩ := hp.found p hpmem
    have hmem : p.name ∈ params.map Param.name :=
      hp.names ▸ List.mem_map_of_mem hpmem
    obtain ⟨b, hb, hstands⟩ := h.params.found p.name hmem
    obtain rfl := Option.some.inj (hfa.symm.trans hb)
    rw [hp.names]
    exact ⟨a, ha, hk.standsAt (hw.lookupCurrent_lt hb) hstands⟩
  · exact hshared
  · intro hnodup
    refine ⟨?_, fun i p hi => placeAmong_of_nodup hnodup (by simp [hi]), fun x hx => ?_⟩
    · refine List.Nodup.map_on ?_ hnodup.of_map
      intro p hpmem q hqmem heq
      exact List.inj_on_of_nodup_map hnodup hpmem hqmem ((hshared p hpmem q hqmem).1 heq)
    · rw [placeAmong_of_notMem hx, eraseDups_of_nodup hnodup, List.length_map]
  · rw [hp.names]
    exact hfirst

/-- The statements of the body of a lambda. -/
def Body.statements : Body → List Stmt
  | .expr _ => []
  | .block statements => statements

/-- The parameters of a function are declared in a frame of their own. -/
theorem entersBody_enterFunction {s : Checker} (hw : s.table.WellFormed) (head : FunctionHead) :
    ((enterFunction head).after s).table.EntersBody (head.params.map Param.name) := by
  rw [table_enterFunction]
  have henters := Table.entersBody_frame (hw.enterRegionIf (head.modifier = .isolated))
    (head.params.map fun p => (p.name, p.type.getD .nil, p.qualifier))
  rwa [List.map_map] at henters

/-- The same for a lambda, whose parameters come with the types that have been found for them. -/
theorem entersBody_enterLambda {s : Checker} (hw : s.table.WellFormed) (head : LambdaHead)
    {types : List Ty} (hlength : types.length = head.params.length) :
    ((enterLambda head types).after s).table.EntersBody (head.params.map Param.name) := by
  rw [table_enterLambda]
  have henters := Table.entersBody_frame (hw.enterRegionIf (head.modifier = .isolated))
    ((head.params.zip types).map fun p => (p.1.name, p.2, p.1.qualifier))
  have hnames : (head.params.zip types).map (Param.name ∘ Prod.fst) =
      head.params.map Param.name := by
    rw [← List.map_map, List.map_fst_zip (Nat.le_of_eq hlength.symm)]
  rw [List.map_map] at henters
  exact hnames ▸ henters

section

variable {s : Checker} {params declared : List Param} (hw : s.table.WellFormed)
  (h : s.table.EntersBody (params.map Param.name)) (hp : s.table.HasParams params declared)

include hw h hp

theorem beginsFrame_checkStmts {ret : Ty} {body : List Stmt}
    (he : ((checkStmts ret body).after s).errors = s.errors) (modifier : Modifier) :
    ((leaveBlock modifier).after ((checkStmts ret body).after s)).table.BeginsFrame declared body
      ((checkStmts ret body).answer s) := by
  have hleave := keepsHomes_leaveBlock ((checkStmts ret body).after s) modifier
  refine h.beginsFrame hw hp ((keepsHomes_visit hw (.stmts ret body)).trans hleave) ?_
  rintro before st rest x old rfl hb hst hx
  obtain ⟨st', a, hst', hdeclared, hlt, hstands⟩ := first_standsAt hw h hb hst hx he
  exact ⟨st', a, hst', hdeclared, hleave.standsAt hlt hstands⟩

theorem beginsFrame_checkBody {start : Position} {ret : Ty} {body body' : Body}
    (hans : (checkBody start ret body).answer s = (body', none))
    (he : ((checkBody start ret body).after s).errors = s.errors) (modifier : Modifier) :
    ((leaveBlock modifier).after ((checkBody start ret body).after s)).table.BeginsFrame declared
      body.statements body'.statements := by
  cases body with
  | expr value =>
    have hleave := keepsHomes_leaveBlock ((checkBody start ret (.expr value)).after s) modifier
    have hkeeps := (keepsHomes_visit hw (.body start ret (.expr value))).trans hleave
    refine h.beginsFrame hw hp hkeeps ?_
    -- a lambda without a block has no first declaration
    intro before st rest x old hbody
    exact absurd hbody (by simp [Body.statements])
  | block statements =>
    rw [checkBody] at hans he ⊢
    obtain rfl := (Prod.mk.inj hans).1
    exact beginsFrame_checkStmts hw h hp he modifier

end

/-- A function that is checked without an error, in any well-formed state. -/
theorem function_beginsFrame {s : Checker} (hw : s.table.WellFormed) {ret : Ty} {span : Span}
    {head : FunctionHead} {body : List Stmt}
    (he : ((checkStmt ret (.function span head body)).after s).errors = s.errors) :
    ∃ head' body',
      (checkStmt ret (.function span head body)).answer s = .function span head' body' ∧
      head'.params.map Param.name = head.params.map Param.name ∧
      ((checkStmt ret (.function span head body)).after s).table.BeginsFrame head'.params
        body body' := by
  obtain ⟨hans, hafter, hbody⟩ := silent_function he
  have hw₀ := (Table.Lasts.stable.toStable.reportHead span head hw).1
  have hw₁ := (Table.Lasts.stable.toStable.declareFunction head trivial hw₀).1
  have hparams := hasParams_enterFunction hw₁ head
  refine ⟨_, _, hans, hparams.names, ?_⟩
  rw [hafter]
  exact beginsFrame_checkStmts (wellFormed_enterFunction hw₁ head)
    (entersBody_enterFunction hw₁ head) hparams hbody head.modifier

/-- A lambda that is checked without an error, in any well-formed state.  Its node has no type yet,
so the checker does visit it. -/
theorem lambda_beginsFrame {s s' : Checker} (hw : s.table.WellFormed) {hint : Option Ty}
    {node : Node} {head : LambdaHead} {body : Body} {e : Expr} {type : Ty} (hn : node.type = none)
    (h : Succeeds (checkExpr hint (.lambda node head body)) s e type s')
    (he : s'.errors = s.errors) :
    ∃ node' head' body', e = .lambda node' head' body' ∧
      head'.params.map Param.name = head.params.map Param.name ∧
      s'.table.BeginsFrame head'.params body.statements body'.statements := by
  rw [checkExpr] at h
  obtain ⟨ret, types, body', s₁, -, htypes, -, hbody, rfl, rfl, rfl⟩ :=
    (h.unlessKnown hn).checkLambda
  have hlength := length_lambdaParamTypes htypes
  have hw₀ := (Table.Lasts.stable.toStable.lambdaParamTypes node.span.start
    (head.infer hint).params hw).1
  have hparams := hasParams_enterLambda hw₀ (head.infer hint) hlength
  have henters := entersBody_enterLambda hw₀ (head.infer hint) hlength
  have hreports : s.Reports ((enterLambda (head.infer hint) types).after
      ((lambdaParamTypes node.span.start (head.infer hint).params).after s)) :=
    (Checker.Reports.stable.lambdaParamTypes _ _).trans (.enterLambda _ _)
  have hvisit := reports_visit ((enterLambda (head.infer hint) types).after
    ((lambdaParamTypes node.span.start (head.infer hint).params).after s))
    (.body node.span.start ret body)
  obtain ⟨-, he⟩ := hreports.silent (hvisit.trans (.leaveLambda _)) he
  refine ⟨_, _, _, rfl, hparams.names.trans (head.names_infer hint).1, ?_⟩
  rw [table_leaveLambda]
  exact beginsFrame_checkBody (wellFormed_enterLambda hw₀ _ types) henters hparams hbody
    (hvisit.silent (.leaveLambda _) he).1 _

/-- A function and a lambda that are checked without an error, wherever they stand: each parameter
has a symbol at the place that its name has among the names of the parameters, and the first
declaration of the body goes on behind them.  So if the names are different, the symbols are
different, the parameters stand one after the other, and the first local variable has the place with
the number of parameters. -/
theorem checked_beginsFrame {roots : List ScopeId} {s : Checker} (h : Reachable roots s) :
    (∀ ret span head body,
      ((checkStmt ret (.function span head body)).after s).errors = s.errors →
      ∃ head' body',
        (checkStmt ret (.function span head body)).answer s = .function span head' body' ∧
        head'.params.map Param.name = head.params.map Param.name ∧
        ((checkStmt ret (.function span head body)).after s).table.BeginsFrame head'.params
          body body') ∧
    ∀ hint node head body e type, node.type = none →
      (checkExpr hint (.lambda node head body)).answer s = ⟨e, .ok type⟩ →
      ((checkExpr hint (.lambda node head body)).after s).errors = s.errors →
      ∃ node' head' body', e = .lambda node' head' body' ∧
        head'.params.map Param.name = head.params.map Param.name ∧
        ((checkExpr hint (.lambda node head body)).after s).table.BeginsFrame head'.params
          body.statements body'.statements := by
  constructor
  · intro ret span head body he
    exact function_beginsFrame h.wellFormed he
  · intro hint node head body e type hn hans he
    exact lambda_beginsFrame h.wellFormed hn ⟨hans, rfl⟩ he

namespace Sample

/-- The parameters of `(a: int, x: int)`. -/
def pairParams (x : String) : List Param :=
  [⟨"a", some .int, .default, span, none⟩, ⟨x, some .int, .default, span, none⟩]

/-- `a = 1; var b = 2; return a;` -/
def pairBody : List Stmt :=
  [.expression span (.assign (.at span) "a" (.literal (.at span) (.int 1))),
   .declare span ⟨"b", none, .default, none⟩ (some (.literal (.at span) (.int 2))),
   .ret span (some (var "a"))]

/-- The head of `fn pair(a: int, x: int): int`. -/
def pairHead (x : String) : FunctionHead := ⟨"pair", pairParams x, .int, .default, none, none⟩

/-- The head of a lambda with the same parameters. -/
def pairLambdaHead (x : String) : LambdaHead := ⟨pairParams x, some .int, .default, []⟩

/-- The symbols of the parameters of a lambda. -/
def lambdaSymbols : Expr → List (Option SymbolId)
  | .lambda _ head _ => head.params.map Param.symbol
  | _ => []

/-- The symbols of the parameters of a function, and those of the variables of its body. -/
def functionSymbols : Stmt → List (Option SymbolId)
  | .function _ head body =>
    head.params.map Param.symbol ++ (body.filterMap Stmt.declared?).map Prod.snd
  | _ => []

end Sample

/-- A function and a lambda with two parameters of different names, and a variable behind them. -/
theorem checked_beginsFrame_pair :
    let s := Sample.after [Sample.data]
    let function := checkStmt .void (.function Sample.span (Sample.pairHead "c") Sample.pairBody)
    let lambda := checkExpr none
      (.lambda (.at Sample.span) (Sample.pairLambdaHead "c") (.block Sample.pairBody))
    Reachable [] s ∧ (function.after s).errors = s.errors ∧ (lambda.after s).errors = s.errors ∧
      (∃ head body, function.answer s = .function Sample.span head body ∧
        (head.params.map Param.symbol).Nodup ∧
        ∃ st a, body[1]? = some st ∧ st.declared? = some ("b", some a) ∧
          ((function.after s).table.symbol a).StandsAt .local_ 2) ∧
      ∃ node head body, (lambda.answer s).expr = .lambda node head body ∧
        (head.params.map Param.symbol).Nodup ∧
        ∃ st a, body.statements[1]? = some st ∧ st.declared? = some ("b", some a) ∧
          ((lambda.after s).table.symbol a).StandsAt .local_ 2 := by
  intro s function lambda
  have hs : Reachable [] s := Sample.reachable_after _
  have he₁ : (function.after s).errors = s.errors := by decide +kernel
  have he₂ : (lambda.after s).errors = s.errors := by decide +kernel
  have hok : (lambda.answer s).type.toOption.isSome := by decide +kernel
  obtain ⟨type, hans⟩ : ∃ type, lambda.answer s = ⟨(lambda.answer s).expr, .ok type⟩ := by
    cases ht : (lambda.answer s).type with
    | ok type => exact ⟨type, by rw [← ht]⟩
    | error d =>
      rw [ht] at hok
      cases hok
  have hnames : (Sample.pairParams "c").map Param.name = ["a", "c"] := rfl
  have hnodup : ["a", "c"].Nodup := by decide
  have hkind : (if "b" ∈ ["a", "c"] then SymbolKind.param else .local_) = .local_ := by decide
  have hplace : placeAmong ["a", "c"] "b" = 2 := by decide
  obtain ⟨hfunction, hlambda⟩ := checked_beginsFrame hs
  obtain ⟨head₁, body₁, hanswer, hnames₁, hframe₁⟩ := hfunction _ _ _ _ he₁
  obtain ⟨node₂, head₂, body₂, hexpr, hnames₂, hframe₂⟩ := hlambda _ _ _ _ _ type rfl hans he₂
  replace hnames₁ := hnames₁.trans hnames
  replace hnames₂ := hnames₂.trans hnames
  obtain ⟨st₁, a₁, hst₁, hdeclared₁, hstands₁⟩ := hframe₁.first [_] _ _ "b" none rfl rfl rfl rfl
  obtain ⟨st₂, a₂, hst₂, hdeclared₂, hstands₂⟩ := hframe₂.first [_] _ _ "b" none rfl rfl rfl rfl
  rw [hnames₁, hkind, hplace] at hstands₁
  rw [hnames₂, hkind, hplace] at hstands₂
  have hsymbols₁ := (hframe₁.distinct (by rw [hnames₁]; exact hnodup)).1
  have hsymbols₂ := (hframe₂.distinct (by rw [hnames₂]; exact hnodup)).1
  refine ⟨hs, he₁, he₂, ⟨head₁, body₁, hanswer, hsymbols₁, st₁, a₁, hst₁, hdeclared₁, ?_⟩,
    ⟨node₂, head₂, body₂, hexpr, hsymbols₂, st₂, a₂, hst₂, hdeclared₂, ?_⟩⟩
  -- otherwise the run of the checker would be unfolded to compare the tables
  · with_reducible exact hstands₁
  · with_reducible exact hstands₂

/-- Two parameters of one name are one symbol, so the local variable stands at the second place. -/
theorem params_share_symbol :
    let s := Sample.after []
    let function := checkStmt .void (.function Sample.span (Sample.pairHead "a") Sample.pairBody)
    let lambda := checkExpr none
      (.lambda (.at Sample.span) (Sample.pairLambdaHead "a") (.block Sample.pairBody))
    Reachable [] s ∧ (function.after s).errors = s.errors ∧
      Sample.functionSymbols (function.answer s) = [some 2, some 2, some 3] ∧
      ((function.after s).table.symbol 2).offset = -48 ∧
      ((function.after s).table.symbol 3).offset = -56 ∧
      (lambda.after s).errors = s.errors ∧
      Sample.lambdaSymbols (lambda.answer s).expr = [some 1, some 1] := by
  intro s function lambda
  exact ⟨Sample.reachable_after _, by decide +kernel, by decide +kernel, by decide +kernel,
    by decide +kernel, by decide +kernel, by decide +kernel⟩

end ThreadRegions
