import Mathlib.Data.List.Forall2
import ThreadRegions.Proofs.Lasting
import ThreadRegions.Proofs.Lexical
import ThreadRegions.Proofs.Names
import ThreadRegions.Proofs.Surroundings

/-!
# The symbol table and the text of a program

The symbol table does not know which constructs are around a declaration.  It counts regions: how
many have been entered, and how many had been when a symbol was declared.  Here the table is related
to the place of the tree at which the walk is, where the constructs themselves are known, and each
operation of the table is shown to keep the two together.

## Main Definitions

* `ScopeMatches`: a scope of the table has the declarations that the text has
* `Lexical.Describes`: the table is as it should be at a place of the tree
* `Table.Level`: the current scope has been opened in the current region

## Main Results

* `Lexical.Describes.lookup`: both sides agree on what a name stands for
* one lemma for each operation, by which the table and the text stay together

## Design Notes

A second declaration of a name in the same scope is a declaration of the text, while the table
keeps the first symbol.  Both are in the same region, because a region that is entered inside of a
scope is left before the scope is used again.  This is what `Table.Level` says, and it is the reason
why a loop has to have a block for a body.
-/

namespace ThreadRegions

open CheckM

/-! ### One scope -/

/-- The declarations `ds` of a scope, which is inside of `level` regions, and what is settled about
the symbols that the table has for it. -/
structure ScopeMatches (around : List ConstructId) (level : Nat) (ds : List Declaration)
    (origins : List (String × SymbolKind × Nat)) : Prop where
  /-- The same names are declared. -/
  names : ∀ name, (∃ d ∈ ds, d.name = name) ↔ ∃ o ∈ origins, o.1 = name
  /-- The name of a namespace is that of a namespace. -/
  spaces : ∀ d ∈ ds, d.isSpace = true → ∀ o ∈ origins, o.1 = d.name → o.2.1 = .namespace_
  /-- All other declarations are directly inside of the scope. -/
  within : ∀ d ∈ ds, d.isSpace = false → d.around <:+ around ∧ d.around.length = level
  /-- All symbols are in the region of the scope. -/
  levels : ∀ o ∈ origins, o.2.2 = level
  /-- The scope is around the current place. -/
  level_le : level ≤ around.length

namespace ScopeMatches

variable {around : List ConstructId} {level : Nat} {ds : List Declaration}
  {origins : List (String × SymbolKind × Nat)}

theorem empty (h : level ≤ around.length) : ScopeMatches around level [] [] :=
  ⟨by simp, nofun, nofun, nofun, h⟩

theorem isolate (h : ScopeMatches around level ds origins) (r : ConstructId) :
    ScopeMatches (r :: around) level ds origins where
  names := h.names
  spaces := h.spaces
  within d hd hs := by
    obtain ⟨hsuffix, hlength⟩ := h.within d hd hs
    exact ⟨hsuffix.trans (List.suffix_cons r around), hlength⟩
  levels := h.levels
  level_le := Nat.le_succ_of_le h.level_le

theorem release {r : ConstructId} (h : ScopeMatches (r :: around) level ds origins)
    (hle : level ≤ around.length) : ScopeMatches around level ds origins where
  names := h.names
  spaces := h.spaces
  within d hd hs := by
    obtain ⟨hsuffix, hlength⟩ := h.within d hd hs
    rcases List.suffix_cons_iff.1 hsuffix with heq | hsuffix
    · rw [heq, List.length_cons] at hlength
      omega
    · exact ⟨hsuffix, hlength⟩
  levels := h.levels
  level_le := hle

theorem redeclare (h : ScopeMatches around level ds origins) (hl : level = around.length)
    {name : String} (hin : ∃ o ∈ origins, o.1 = name) :
    ScopeMatches around level (⟨name, around, false⟩ :: ds) origins where
  names other := by
    rw [List.exists_mem_cons_iff, h.names]
    constructor
    · rintro (rfl | hother)
      · exact hin
      · exact hother
    · exact .inr
  spaces d hd hs := by
    rcases List.mem_cons.1 hd with rfl | hd
    · cases hs
    · exact h.spaces d hd hs
  within d hd hs := by
    rcases List.mem_cons.1 hd with rfl | hd
    · exact ⟨List.suffix_rfl, hl.symm⟩
    · exact h.within d hd hs
  levels := h.levels
  level_le := h.level_le

theorem declare (h : ScopeMatches around level ds origins) {d : Declaration} {kind : SymbolKind}
    (hnew : ¬∃ o ∈ origins, o.1 = d.name) (hspace : d.isSpace = true → kind = .namespace_)
    (hd : d.isSpace = false → d.around <:+ around ∧ d.around.length = level) :
    ScopeMatches around level (d :: ds) (origins ++ [(d.name, kind, level)]) where
  names other := by
    rw [List.exists_mem_cons_iff, h.names]
    simp only [List.mem_append, List.mem_singleton, or_and_right, exists_or, exists_eq_left]
    exact or_comm
  spaces d' hd' hs o ho hname := by
    rcases List.mem_append.1 ho with hold | ho
    · rcases List.mem_cons.1 hd' with rfl | hd'
      · exact absurd ⟨o, hold, hname⟩ hnew
      · exact h.spaces d' hd' hs o hold hname
    · rw [List.mem_singleton] at ho
      subst ho
      rcases List.mem_cons.1 hd' with rfl | hd'
      · exact hspace hs
      · -- the scope does not have the name yet, so no earlier declaration has it
        exact absurd ((h.names d.name).1 ⟨d', hd', hname.symm⟩) hnew
  within d' hd' hs := by
    rcases List.mem_cons.1 hd' with rfl | hd'
    · exact hd hs
    · exact h.within d' hd' hs
  levels o ho := by
    rcases List.mem_append.1 ho with ho | ho
    · exact h.levels o ho
    · rw [List.mem_singleton.1 ho]
  level_le := h.level_le

end ScopeMatches

namespace Table

/-- What is settled about the symbols of a scope. -/
def origins (t : Table) (c : ScopeId) : List (String × SymbolKind × Nat) :=
  (t.scope c).symbols.map fun a => (t.symbol a).origin

theorem Lasts.origins_eq {t t' : Table} (hl : t.Lasts t') (hw : t.WellFormed) {c : ScopeId}
    (hs : (t'.scope c).symbols = (t.scope c).symbols) : t'.origins c = t.origins c := by
  unfold origins
  rw [hs]
  exact List.map_congr_left fun a ha => hl.origin a (hw.linked c a ha).1

/-- A name is among what is settled if a symbol of the scope has it. -/
theorem mem_origins {t : Table} {c : ScopeId} {name : String} :
    (∃ o ∈ t.origins c, o.1 = name) ↔ ∃ a ∈ (t.scope c).symbols, (t.symbol a).name = name := by
  unfold origins
  simp only [List.mem_map, exists_exists_and_eq_and]
  rfl

/-- A name is not found if no symbol of the scope has it. -/
theorem findIn_eq_none_iff {t : Table} {c : ScopeId} {name : String} :
    t.findIn c name = none ↔ ¬∃ o ∈ t.origins c, o.1 = name := by
  rw [mem_origins, findIn, findLast, List.find?_eq_none]
  simp

/-- A declaration keeps the symbols of the current scope or adds one, if the name is new. -/
theorem origins_add {t : Table} (hw : t.WellFormed) (name : String) (type : Ty)
    (kind : SymbolKind) :
    (∃ o ∈ t.origins t.current, o.1 = name) ∧
        (t.add name type kind).1.origins t.current = t.origins t.current ∨
      (¬∃ o ∈ t.origins t.current, o.1 = name) ∧
        (t.add name type kind).1.origins t.current =
          t.origins t.current ++ [(name, kind, t.region)] := by
  have hl := Lasts.add (t := t) name type kind
  unfold add at hl ⊢
  split
  · next id hid =>
    simp only [hid] at hl
    refine .inl ⟨?_, hl.origins_eq hw rfl⟩
    exact mem_origins.2 ⟨id, findIn_eq_some hid⟩
  · next hnone =>
    refine .inr ⟨findIn_eq_none_iff.1 hnone, ?_⟩
    have hold : ∀ a ∈ (t.scope t.current).symbols,
        ((t.addNew name type kind).symbol a).origin = (t.symbol a).origin := by
      intro a ha
      rw [symbol_addNew_of_lt t name type kind (hw.linked _ a ha).1]
    unfold origins
    rw [scope_addNew_self t name type kind hw, List.map_append, List.map_congr_left hold]
    show _ ++ [((t.addNew name type kind).symbol t.symbols.size).origin] = _
    rw [symbol_addNew_self]
    rfl

/-- A namespace comes last among the symbols of the global scope. -/
theorem origins_addNamespace {t t' : Table} (hw : t.WellFormed) {name : String} {id : SymbolId}
    (ha : t.addNamespace name = some (t', id)) :
    (¬∃ o ∈ t.origins globalId, o.1 = name) ∧
      t'.origins globalId = t.origins globalId ++ [(name, .namespace_, 0)] ∧
      ∀ c, c ≠ globalId → t'.origins c = t.origins c := by
  have hl := Lasts.addNamespace ha
  obtain ⟨hnone, -, rfl⟩ := addNamespace_eq_some ha
  refine ⟨findIn_eq_none_iff.1 hnone, ?_, fun c hc => hl.origins_eq hw ?_⟩
  · have hold := fun a ha => hl.origin a (hw.linked globalId a ha).1
    unfold origins
    rw [scope_modifyScope_self (by exact hw.global_lt), List.map_append, scope_pushSymbol,
      List.map_congr_left hold, List.map_singleton, symbol_modifyScope, symbol_pushSymbol_self]
    rfl
  · rw [scope_modifyScope_of_ne hc]
    rfl

theorem globalId_mem_open (t : Table) : globalId ∈ t.open_ :=
  List.mem_append_right _ (List.mem_singleton_self _)

/-- The current scope has been opened in the current region. -/
def Level (t : Table) : Prop := (t.scope t.current).region = t.region

/-- A step that stays in its scope and its region. -/
theorem Level.of_sameSurroundings {t t' : Table} (h : t.Level) (hw : t.WellFormed)
    (hs : t.SameSurroundings t') (hl : t.Lasts t') : t'.Level := by
  unfold Level
  rw [hs.current_eq, hl.region _ hw.current_lt, hs.region]
  exact h

/-- A scope that is opened is in the current region. -/
theorem level_openScope (t : Table) {s : Scope} (hr : s.region = t.region) :
    (t.openScope s).Level := by
  show ((t.openScope s).scope t.scopes.size).region = t.region
  rw [scope_openScope_self, hr]

end Table

/-! ### All open scopes -/

namespace Lexical

/-- The declarations `ds` are those of a scope of the table. -/
def Fits (l : Lexical) (t : Table) (ds : List Declaration) (c : ScopeId) : Prop :=
  ScopeMatches l.around (t.scope c).region ds (t.origins c)

/-- The table is as it should be at a place of the tree. -/
structure Describes (l : Lexical) (t : Table) : Prop where
  /-- Each construct is a region. -/
  depth : l.around.length = t.region
  /-- The number of the next construct has not been given away. -/
  fresh : ∀ r ∈ l.around, r < l.next
  /-- No construct is counted twice. -/
  nodup : l.around.Nodup
  inner : List.Forall₂ (l.Fits t) l.inner t.inner
  global : l.Fits t l.global Table.globalId
  /-- The global scope is in no region. -/
  ground : (t.scope Table.globalId).region = 0

/-- A relation may be replaced by one that holds wherever it is needed. -/
theorem forall₂_imp_of_mem {α β : Type} {R S : α → β → Prop} {as : List α} {bs : List β}
    (h : List.Forall₂ R as bs) (hRS : ∀ a, ∀ b ∈ bs, R a b → S a b) : List.Forall₂ S as bs := by
  induction h with
  | nil => exact .nil
  | cons hab _ ih =>
    refine .cons (hRS _ _ List.mem_cons_self hab) (ih fun a b hb => ?_)
    exact hRS a b (List.mem_cons_of_mem _ hb)

namespace Describes

variable {l : Lexical} {t t' : Table}

theorem open_ (h : l.Describes t) : List.Forall₂ (l.Fits t) (l.inner ++ [l.global]) t.open_ :=
  List.rel_append h.inner (.cons h.global .nil)

/-- No open scope is in more regions than have been entered. -/
theorem level_le (h : l.Describes t) {c : ScopeId} (hc : c ∈ t.open_) :
    (t.scope c).region ≤ t.region := by
  obtain ⟨i, hi, rfl⟩ := List.getElem_of_mem hc
  have hfits := (List.forall₂_iff_get.1 h.open_).2 i (by rw [h.open_.length_eq]; exact hi) hi
  exact h.depth ▸ hfits.level_le

/-! ### Steps that declare nothing -/

theorem of_same (h : l.Describes t) (hi : t'.inner = t.inner) (hr : t'.region = t.region)
    (ho : ∀ c ∈ t.open_, t'.origins c = t.origins c)
    (hl : ∀ c ∈ t.open_, (t'.scope c).region = (t.scope c).region) : l.Describes t' := by
  have hfits : ∀ ds, ∀ c ∈ t.open_, l.Fits t ds c → l.Fits t' ds c := by
    intro ds c hc hf
    unfold Fits
    rw [ho c hc, hl c hc]
    exact hf
  refine ⟨h.depth.trans hr.symm, h.fresh, h.nodup, ?_, hfits _ _ t.globalId_mem_open h.global, ?_⟩
  · rw [hi]
    exact forall₂_imp_of_mem h.inner fun ds c hc => hfits ds c (List.mem_append_left _ hc)
  · rw [hl _ t.globalId_mem_open]
    exact h.ground

/-- The open scopes have the same symbols, and these come from the same declarations. -/
theorem of_lasts (h : l.Describes t) (hw : t.WellFormed) (hs : t.SameSurroundings t')
    (hl : t.Lasts t') (hsym : ∀ c ∈ t.open_, (t'.scope c).symbols = (t.scope c).symbols) :
    l.Describes t' :=
  h.of_same hs.inner hs.region (fun c hc => hl.origins_eq hw (hsym c hc))
    fun c hc => hl.region c (hw.open_lt hc)

/-- Threads have nothing to do with declarations. -/
theorem of_sameButThreads (h : l.Describes t) (hw : t.WellFormed) (hs : t.SameButThreads t') :
    l.Describes t' :=
  h.of_lasts hw (.of_sameButThreads hs) (.of_sameButThreads hs) fun c _ => by rw [hs.scope_eq]

theorem alignLocals (h : l.Describes t) (hw : t.WellFormed) : l.Describes t.alignLocals :=
  h.of_lasts hw .alignLocals (.modifyScope rfl) fun c _ =>
    Table.view_modifyScope Scope.symbols rfl c

/-- The members of a namespace are not declared by a name of their own. -/
theorem addFunctionToNamespace (h : l.Describes t) (hw : t.WellFormed) {space name : String}
    {type : Ty} {modifier declared : Modifier} {id : SymbolId}
    (ha : t.addFunctionToNamespace space name type modifier declared = some (t', id)) :
    l.Describes t' :=
  h.of_lasts hw (.addFunctionToNamespace ha) (.addFunctionToNamespace ha)
    fun c _ => (Table.Untouched.addFunctionToNamespace hw ha c).symbols

/-! ### Declarations -/

/-- A declaration in the current scope, if the other scopes are left alone. -/
theorem declare {name : String} (h : l.Describes t) (hi : t'.inner = t.inner)
    (hr : t'.region = t.region) (hl : ∀ c ∈ t.open_, (t'.scope c).region = (t.scope c).region)
    (hothers : ∀ c ∈ t.open_.tail, t'.origins c = t.origins c)
    (hcurrent : ∀ ds, l.Fits t ds t.current → l.Fits t' (⟨name, l.around, false⟩ :: ds) t.current) :
    (l.declare name).Describes t' := by
  obtain ⟨hdepth, hfresh, hnodup, hinner, hglobal, hground⟩ := h
  unfold Lexical.declare
  -- the current scope is the global one, or the innermost of the others
  cases hti : t.inner with
  | nil =>
    rw [hti, List.forall₂_nil_right_iff] at hinner
    have hcur : t.current = Table.globalId := by rw [Table.current, hti]; rfl
    rw [hcur] at hcurrent
    rw [hinner]
    refine ⟨hdepth.trans hr.symm, hfresh, hnodup, ?_, hcurrent _ hglobal, ?_⟩
    · rw [hi, hti]
      exact .nil
    · rw [hl _ t.globalId_mem_open]
      exact hground
  | cons c outer =>
    rw [hti, List.forall₂_cons_right_iff] at hinner
    obtain ⟨ds, douter, hds, hrest, hli⟩ := hinner
    have hcur : t.current = c := by rw [Table.current, hti]; rfl
    have hopen : t.open_ = c :: (outer ++ [Table.globalId]) := by rw [Table.open_, hti]; rfl
    rw [hopen, List.tail_cons] at hothers
    rw [hopen] at hl
    rw [hcur] at hcurrent
    rw [hli]
    have hfits : ∀ ds, ∀ d ∈ outer ++ [Table.globalId], l.Fits t ds d → l.Fits t' ds d := by
      intro ds d hd hf
      unfold Fits
      rw [hothers d hd, hl d (List.mem_cons_of_mem c hd)]
      exact hf
    have hlast : Table.globalId ∈ outer ++ [Table.globalId] :=
      List.mem_append_right _ (List.mem_singleton_self _)
    refine ⟨hdepth.trans hr.symm, hfresh, hnodup, ?_, hfits _ _ hlast hglobal, ?_⟩
    · rw [hi, hti]
      refine .cons (hcurrent ds hds) (forall₂_imp_of_mem hrest fun ds d hd => ?_)
      exact hfits ds d (List.mem_append_left _ hd)
    · rw [hl _ (List.mem_cons_of_mem c hlast)]
      exact hground

/-- A declaration: the text has it in any case, and the table if the name is new. -/
theorem add (h : l.Describes t) (hw : t.WellFormed) (hlevel : t.Level) (name : String) (type : Ty)
    (kind : SymbolKind) : (l.declare name).Describes (t.add name type kind).1 := by
  have hlasts := Table.Lasts.add (t := t) name type kind
  have hregion : ∀ c ∈ t.open_, ((t.add name type kind).1.scope c).region = (t.scope c).region :=
    fun c hc => hlasts.region c (hw.open_lt hc)
  refine h.declare (t.inner_add name type kind) (t.region_add name type kind) hregion ?_ ?_
  · intro c hc
    exact hlasts.origins_eq hw
      (Table.Untouched.add hw (hw.ne_current_of_mem_tail hc) name type kind).symbols
  · intro ds hds
    unfold Fits at hds ⊢
    rw [hregion _ t.current_mem_open, hlevel]
    rw [hlevel] at hds
    -- the name is there already, or it is new
    rcases Table.origins_add hw name type kind with ⟨hin, ho⟩ | ⟨hnew, ho⟩
    · rw [ho]
      exact hds.redeclare h.depth.symm hin
    · rw [ho]
      refine hds.declare (d := ⟨name, l.around, false⟩) hnew nofun fun _ => ?_
      exact ⟨List.suffix_rfl, h.depth⟩

theorem addQualified (h : l.Describes t) (hw : t.WellFormed) (hlevel : t.Level) (name : String)
    (type : Ty) (kind : SymbolKind) (q : Qualifier) :
    (l.declare name).Describes (t.addQualified name type kind q).1 :=
  (h.add hw hlevel name type kind).of_lasts (hw.add name type kind) ⟨rfl, rfl, Nat.le_refl _⟩
    (.setQualifier _ _ q) fun _ _ => rfl

theorem addFunction (h : l.Describes t) (hw : t.WellFormed) (hlevel : t.Level) (name : String)
    (type : Ty) (modifier declared : Modifier) :
    (l.declare name).Describes (t.addFunction name type modifier declared).1 :=
  (h.add hw hlevel name type t.declarationKind).of_lasts (hw.add name type t.declarationKind)
    ⟨rfl, rfl, Nat.le_refl _⟩ (.setFunction _ _ modifier declared) fun _ _ => rfl

theorem addParams (h : l.Describes t) (hw : t.WellFormed) (hlevel : t.Level)
    (params : List (String × Ty × Qualifier)) :
    (l.declareAll (params.map Prod.fst)).Describes (t.addParams params) := by
  induction params generalizing l t with
  | nil => exact h
  | cons p others ih =>
    refine ih (h.addQualified hw hlevel p.1 p.2.1 .param p.2.2) (hw.addQualified _ _ _ _) ?_
    exact hlevel.of_sameSurroundings hw (.addQualified _ _ _ _) (.addQualified _ _ _ _)

/-- A namespace is added to the global scope, and no scope further in has to do with it. -/
theorem addNamespace (h : l.Describes t) (hw : t.WellFormed) {name : String} {id : SymbolId}
    (ha : t.addNamespace name = some (t', id)) : (l.declareSpace name).Describes t' := by
  have hs := Table.SameSurroundings.addNamespace ha
  have hregion : ∀ c ∈ t.open_, (t'.scope c).region = (t.scope c).region :=
    fun c hc => (Table.Lasts.addNamespace ha).region c (hw.open_lt hc)
  obtain ⟨hnew, hglobal, hothers⟩ := Table.origins_addNamespace hw ha
  refine ⟨h.depth.trans hs.region.symm, h.fresh, h.nodup, ?_, ?_, ?_⟩
  · rw [hs.inner]
    refine forall₂_imp_of_mem h.inner fun ds c hc hf => ?_
    show ScopeMatches l.around (t'.scope c).region ds (t'.origins c)
    rw [hregion c (List.mem_append_left _ hc), hothers c (hw.ne_globalId hc)]
    exact hf
  · show ScopeMatches l.around (t'.scope Table.globalId).region _ (t'.origins Table.globalId)
    have hg : ScopeMatches l.around 0 l.global (t.origins Table.globalId) := h.ground ▸ h.global
    rw [hregion _ t.globalId_mem_open, h.ground, hglobal]
    exact hg.declare (d := ⟨name, l.around, true⟩) hnew (fun _ => rfl) nofun
  · rw [hregion _ t.globalId_mem_open]
    exact h.ground

/-! ### Scopes -/

/-- A scope is opened that has no symbols. -/
theorem openScope (h : l.Describes t) (hw : t.WellFormed) {s : Scope} (hs : s.symbols = [])
    (hr : s.region = t.region) : l.openScope.Describes (t.openScope s) := by
  have hold : ∀ ds, ∀ c ∈ t.open_, l.Fits t ds c → l.openScope.Fits (t.openScope s) ds c := by
    intro ds c hc hf
    show ScopeMatches l.around ((t.openScope s).scope c).region ds ((t.openScope s).origins c)
    unfold Table.origins
    rw [Table.scope_openScope_of_ne s (Nat.ne_of_lt (hw.open_lt hc))]
    exact hf
  refine ⟨h.depth, h.fresh, h.nodup, .cons ?_ ?_, hold _ _ t.globalId_mem_open h.global, ?_⟩
  · show ScopeMatches l.around _ [] (Table.origins (t.openScope s) t.scopes.size)
    unfold Table.origins
    rw [Table.scope_openScope_self, hs]
    exact .empty (Nat.le_of_eq (hr.trans h.depth.symm))
  · exact forall₂_imp_of_mem h.inner fun ds c hc => hold ds c (List.mem_append_left _ hc)
  · rw [Table.scope_openScope_of_ne s (Nat.ne_of_lt hw.global_lt)]
    exact h.ground

/-- In the global scope nothing is left, neither in the table nor in the text. -/
theorem popScope (h : l.Describes t) : l.closeScope.Describes t.popScope := by
  have hsymbols := fun c => (Table.Untouched.popScope t c).symbols
  have horigins : ∀ c, t.popScope.origins c = t.origins c := by
    intro c
    unfold Table.origins
    rw [hsymbols c]
    unfold Table.popScope
    split <;> rfl
  have hregion : ∀ c, (t.popScope.scope c).region = (t.scope c).region := by
    intro c
    unfold Table.popScope
    split
    · rfl
    · next child outer _ =>
      exact Table.view_modifyScope (t := { t with inner := outer }) Scope.region rfl c
  have hfits : ∀ ds c, l.Fits t ds c → l.closeScope.Fits t.popScope ds c := by
    intro ds c hf
    show ScopeMatches l.around _ ds _
    rw [horigins, hregion]
    exact hf
  refine ⟨h.depth.trans t.region_popScope.symm, h.fresh, h.nodup, ?_, hfits _ _ h.global, ?_⟩
  · rw [t.inner_popScope]
    have hinner := h.inner
    show List.Forall₂ _ l.inner.tail t.inner.tail
    -- either both sides are in the global scope or none is
    generalize l.inner = scopes at hinner ⊢
    generalize t.inner = ids at hinner ⊢
    cases hinner with
    | nil => exact .nil
    | cons _ hrest => exact hrest.imp hfits
  · rw [hregion]
    exact h.ground

/-! ### Regions -/

/-- An isolating construct is entered, and gets a number that no other one has. -/
theorem enterRegion (h : l.Describes t) : (l.isolate true).Describes t.enterRegion where
  depth := congrArg Nat.succ h.depth
  fresh r hr := by
    rcases List.mem_cons.1 hr with rfl | hr
    · exact Nat.lt_succ_self _
    · exact Nat.lt_succ_of_lt (h.fresh r hr)
  nodup := List.nodup_cons.2 ⟨fun hmem => Nat.lt_irrefl _ (h.fresh _ hmem), h.nodup⟩
  inner := h.inner.imp fun _ _ hf => hf.isolate l.next
  global := h.global.isolate l.next
  ground := h.ground

/-- A region is left, if all open scopes are around it. -/
theorem exitRegion (h : l.Describes t) {k : Nat} (hk : t.region = k + 1)
    (hle : ∀ c ∈ t.open_, (t.scope c).region ≤ k) : (l.release true).Describes t.exitRegion := by
  obtain ⟨hdepth, hfresh, hnodup, hinner, hglobal, hground⟩ := h
  -- there is a construct to be left, because a region is
  cases hl : l.around with
  | nil =>
    rw [hl, hk] at hdepth
    cases hdepth
  | cons r around =>
    have hlength : around.length = k := by
      rw [hl, hk, List.length_cons] at hdepth
      omega
    have hrelease : (l.release true).around = around := by
      show l.around.tail = around
      rw [hl]
      rfl
    have hfits : ∀ ds, ∀ c ∈ t.open_, l.Fits t ds c → (l.release true).Fits t.exitRegion ds c := by
      intro ds c hc hf
      unfold Fits at hf ⊢
      rw [hl] at hf
      rw [hrelease]
      exact hf.release (hlength ▸ hle c hc)
    rw [hl] at hfresh hnodup
    refine ⟨?_, ?_, ?_, ?_, hfits _ _ t.globalId_mem_open hglobal, hground⟩
    · show (l.release true).around.length = t.region - 1
      rw [hrelease, hlength, hk]
      rfl
    · rw [hrelease]
      exact fun r hr => hfresh r (List.mem_cons_of_mem _ hr)
    · rw [hrelease]
      exact (List.nodup_cons.1 hnodup).2
    · exact forall₂_imp_of_mem hinner fun ds c hc => hfits ds c (List.mem_append_left _ hc)

end Describes

/-! ### What names stand for -/

/-- The declaration is that of the symbol. -/
structure DeclaresSymbol (around : List ConstructId) (d : Declaration) (s : Symbol) : Prop where
  space : d.isSpace = true → s.isNamespace = true
  within : d.isSpace = false → d.around <:+ around ∧ d.around.length = s.region

/-- The declaration that is found is one of the same name, whichever it is. -/
theorem Fits.find? {l : Lexical} {t : Table} {ds : List Declaration} {c : ScopeId} {name : String}
    {id : SymbolId} (h : l.Fits t ds c) (hid : t.findIn c name = some id) :
    ∃ d, ds.find? (fun d => d.name = name) = some d ∧ DeclaresSymbol l.around d (t.symbol id) := by
  obtain ⟨hmem, hname⟩ := Table.findIn_eq_some hid
  have horigin : (t.symbol id).origin ∈ t.origins c :=
    List.mem_map_of_mem (f := fun a => (t.symbol a).origin) hmem
  obtain ⟨d, hd, hdname⟩ := (h.names name).2 ⟨_, horigin, hname⟩
  have hsome : (ds.find? fun d => d.name = name).isSome :=
    List.find?_isSome.2 ⟨d, hd, decide_eq_true hdname⟩
  obtain ⟨d', hd'⟩ := Option.isSome_iff_exists.1 hsome
  have hd'mem := List.mem_of_find?_eq_some hd'
  have hd'name : d'.name = name := by simpa using List.find?_some hd'
  refine ⟨d', hd', fun hs => ?_, fun hs => ?_⟩
  · have hkind := h.spaces d' hd'mem hs _ horigin (hname.trans hd'name.symm)
    exact decide_eq_true hkind
  · obtain ⟨hsuffix, hlength⟩ := h.within d' hd'mem hs
    exact ⟨hsuffix, hlength.trans (h.levels _ horigin).symm⟩

/-- A name that the table does not have is not declared in the text. -/
theorem Fits.find?_eq_none {l : Lexical} {t : Table} {ds : List Declaration} {c : ScopeId}
    {name : String} (h : l.Fits t ds c) (hnone : t.findIn c name = none) :
    ds.find? (fun d => d.name = name) = none := by
  rw [List.find?_eq_none]
  intro d hd hname
  exact Table.findIn_eq_none_iff.1 hnone ((h.names name).1 ⟨d, hd, by simpa using hname⟩)

/-- A name that the table finds is found in the text, and it is the same declaration. -/
theorem Describes.lookup {l : Lexical} {t : Table} (h : l.Describes t) {name : String}
    {id : SymbolId} (hid : t.lookup name = some id) :
    ∃ d, l.lookup name = some d ∧ DeclaresSymbol l.around d (t.symbol id) := by
  have hopen := h.open_
  unfold Table.lookup at hid
  unfold Lexical.lookup
  -- scope by scope, from the innermost one outward
  generalize l.inner ++ [l.global] = scopes at hopen ⊢
  generalize t.open_ = ids at hopen hid
  induction hopen with
  | nil => cases hid
  | @cons ds c _ _ hf _ ih =>
    rw [List.findSome?_cons] at hid ⊢
    cases hfind : t.findIn c name with
    | none =>
      rw [hfind] at hid
      rw [hf.find?_eq_none hfind]
      exact ih hid
    | some a =>
      rw [hfind] at hid
      cases hid
      obtain ⟨d, hd, hdecl⟩ := hf.find? hfind
      rw [hd]
      exact ⟨d, rfl, hdecl⟩

end Lexical

end ThreadRegions
