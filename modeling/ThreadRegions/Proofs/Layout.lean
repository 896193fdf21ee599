import ThreadRegions.Proofs.Places

/-!
# The layout of frames

A scope goes on with the counters of the scope around it, and leaves them behind when it is left.
Only at the entry of a function or a lambda are the two counters brought together: the local
variables begin behind the parameters.  A loop over an array takes a parameter's place for its
variable in the middle of a body, when the local variables have gone their own way.

Here the places of all visible symbols are compared.  Within one frame they are apart, with one
exception: the variable of a loop and a local variable may share a place.

## Main Definitions

* `Table.Layout`: every open scope is laid out
* `Table.Opening`: a scope that has nothing but parameters yet

## Main Results

* `Table.layout_invariant`: each step keeps the layout
* `offset_eq_only_of_loopVariable`: two symbols of one frame that share a place are the variable of
  a loop and a local variable

## Design Notes

Only the innermost scope changes, so the layout is said of all open scopes, each with the scopes of
its frame around it: a step then proves something new of the innermost scope, and for the scopes
around it that nothing has changed.
-/

namespace ThreadRegions

namespace Table

/-- Every open scope is laid out. -/
structure Layout (t : Table) (roots : List ScopeId) : Prop where
  roots_lt : ∀ c ∈ roots, c < t.scopes.size
  laidOut : ∀ c outer, c :: outer <:+ t.open_ → t.LaidOut roots c (frameScopes roots (c :: outer))

namespace Layout

variable {t t' : Table} {roots roots' : List ScopeId}

/-- The scopes around the innermost one are laid out as before. -/
theorem of_innermost {c : ScopeId} {outer : List ScopeId} (h : t.Layout roots)
    (hlt : ∀ c ∈ roots', c < t'.scopes.size) (hopen : t'.open_ = c :: outer)
    (houter : outer <:+ t.open_) (hroots : ∀ d ∈ outer, isRoot roots' d = isRoot roots d)
    (hsame : ∀ d ∈ outer, SamePlaces d t t')
    (hc : t'.LaidOut roots' c (frameScopes roots' (c :: outer))) : t'.Layout roots' := by
  refine ⟨hlt, fun d rest hd => ?_⟩
  rw [hopen] at hd
  -- an open scope is the innermost one, or one of those around it
  rcases List.suffix_cons_iff.1 hd with heq | hd
  · cases heq
    exact hc
  · have hsub : ∀ x ∈ frameScopes roots (d :: rest), x ∈ outer :=
      fun x hx => hd.subset (frameScopes_subset roots _ hx)
    rw [frameScopes_congr fun x hx => hroots x (hd.subset hx)]
    refine (h.laidOut d rest (hd.trans houter)).congr (mem_frameScopes_self roots d rest) ?_ ?_
    · exact fun x hx => hroots x (hsub x hx)
    · exact fun x hx => hsame x (hsub x hx)

/-- A step that changes no place and no open scope. -/
theorem of_samePlaces (h : t.Layout roots) (hi : t'.inner = t.inner)
    (hsize : t.scopes.size ≤ t'.scopes.size) (hsame : ∀ d, SamePlaces d t t') :
    t'.Layout roots := by
  refine ⟨fun c hc => Nat.lt_of_lt_of_le (h.roots_lt c hc) hsize, fun d rest hd => ?_⟩
  rw [open_eq_of_inner_eq hi] at hd
  exact (h.laidOut d rest hd).congr (mem_frameScopes_self roots d rest) (fun _ _ => rfl)
    fun x _ => hsame x

/-- The current scope is open. -/
theorem laidOut_current (h : t.Layout roots) :
    t.LaidOut roots t.current (frameScopes roots t.open_) := by
  have hlaid := h.laidOut t.current t.open_.tail (t.open_eq_cons ▸ List.suffix_rfl)
  rwa [← t.open_eq_cons] at hlaid

/-- A declaration in the current scope.  A scope with a frame of its own has its parameters already.
-/
theorem add (h : t.Layout roots) (hw : t.WellFormed) (name : String) (type : Ty)
    {kind : SymbolKind} (hk : kind = .param → isRoot roots t.current = false) :
    (t.add name type kind).1.Layout roots := by
  have hopen : (t.add name type kind).1.open_ = t.current :: t.open_.tail :=
    (open_eq_of_inner_eq (inner_add ..)).trans t.open_eq_cons
  refine h.of_innermost (fun c hc => ?_) hopen (List.tail_suffix _) (fun _ _ => rfl)
    (fun d hd => ?_) ?_
  · rw [size_add]
    exact h.roots_lt c hc
  · exact .add hw (hw.ne_current_of_mem_tail hd) name type kind
  · rw [← t.open_eq_cons]
    refine h.laidOut_current.add hw ?_ name type hk
    rw [t.open_eq_cons]
    exact mem_frameScopes_self ..

/-- What is declared by a statement is no parameter. -/
theorem addDeclared (h : t.Layout roots) (hw : t.WellFormed) (name : String) (type : Ty) :
    (t.add name type t.declarationKind).1.Layout roots := by
  refine h.add hw name type fun hk => ?_
  unfold declarationKind at hk
  split at hk <;> cases hk

/-! ### Entering a scope -/

/-- The next scope that is opened does not have a frame of its own yet. -/
theorem isRoot_size (h : t.Layout roots) (hw : t.WellFormed) :
    isRoot roots t.scopes.size = false := by
  have hglobal : t.scopes.size ≠ globalId := Ne.symm (Nat.ne_of_lt hw.global_lt)
  have hroots : t.scopes.size ∉ roots := fun hc => Nat.lt_irrefl _ (h.roots_lt _ hc)
  simp [isRoot, hglobal, hroots]

/-- A scope without symbols goes on with the counters of the scope around it. -/
theorem pushScope (h : t.Layout roots) (hw : t.WellFormed) : t.pushScope.Layout roots := by
  have hcur := h.laidOut_current
  have hself : t.pushScope.scope t.scopes.size = t.nested := scope_openScope_self _
  have hsame : ∀ d ∈ t.open_, SamePlaces d t t.pushScope := fun d hd => .openScope (hw.open_lt hd)
  refine h.of_innermost (fun c hc => ?_) rfl List.suffix_rfl (fun _ _ => rfl) hsame ?_
  · exact (size_openScope ..).symm ▸ Nat.lt_succ_of_lt (h.roots_lt c hc)
  rw [frameScopes, if_neg (by rw [h.isRoot_size hw]; exact Bool.false_ne_true)]
  -- symbols of the frame are those of the scopes around
  have hold : ∀ d ∈ t.scopes.size :: frameScopes roots t.open_,
      ∀ a ∈ (t.pushScope.scope d).symbols,
        d ∈ frameScopes roots t.open_ ∧ a ∈ (t.scope d).symbols := by
    intro d hd a ha
    rcases List.mem_cons.1 hd with rfl | hd
    · rw [hself] at ha
      cases ha
    · have hlt := hw.open_lt (frameScopes_subset roots _ hd)
      rw [Table.pushScope, scope_openScope_of_ne _ (Nat.ne_of_lt hlt)] at ha
      exact ⟨hd, ha⟩
  have hempty : ∀ a, a ∉ (t.pushScope.scope t.scopes.size).symbols := fun a ha => by
    rw [hself] at ha
    cases ha
  have hnext : ∀ k, nextOffset (t.pushScope.scope t.scopes.size) k =
      nextOffset (t.scope t.current) k := fun k => by
    rw [hself]
    cases k <;> rfl
  refine ⟨?_, ?_, fun a ha => absurd ha (hempty a), fun d hd a ha hkind => ?_,
    fun d hd hroot p hp hkind => ?_, fun a ha => absurd ha (hempty a),
    fun a ha => absurd ha (hempty a)⟩
  · rw [hself]
    exact hcur.locals
  · rw [hself]
    exact hcur.params
  · obtain ⟨hd, ha⟩ := hold d hd a ha
    rw [hnext]
    exact hcur.free d hd a ha hkind
  · obtain ⟨hd, hp⟩ := hold d hd p hp
    rw [hnext]
    exact hcur.behind d hd hroot p hp hkind

/-- The variable of a loop takes a parameter's place in a scope that is not the first one of its
frame. -/
theorem round (h : t.Layout roots) (hw : t.WellFormed) (name : String) (type : Ty) :
    (t.pushScope.add name type .param).1.Layout roots :=
  (h.pushScope hw).add hw.pushScope name type fun _ => h.isRoot_size hw

end Layout

/-! ### Entering a frame -/

/-- The scope has nothing but parameters yet. -/
structure Opening (t : Table) (c : ScopeId) : Prop where
  laidOut : t.LaidOut [] c [c]
  params : ∀ a ∈ (t.scope c).symbols, (t.symbol a).kind = .param

namespace Opening

variable {t : Table}

/-- A frame that is opened has no symbols, and both counters stand at its beginning. -/
theorem pushFrame (t : Table) : t.pushFrame.Opening t.scopes.size := by
  have hself : t.pushFrame.scope t.scopes.size =
      { t.nested with locals := frameBase, params := frameBase } := scope_openScope_self _
  have hempty : ∀ a, a ∉ (t.pushFrame.scope t.scopes.size).symbols := fun a ha => by
    rw [hself] at ha
    cases ha
  have hbase : IsPlace frameBase := ⟨0, rfl⟩
  refine ⟨⟨?_, ?_, fun a ha => absurd ha (hempty a), fun d hd a ha => ?_, fun d hd _ p hp => ?_,
    fun a ha => absurd ha (hempty a), fun a ha => absurd ha (hempty a)⟩,
    fun a ha => absurd ha (hempty a)⟩
  · rw [hself]
    exact hbase
  · rw [hself]
    exact hbase
  · exact absurd (List.mem_singleton.1 hd ▸ ha) (hempty a)
  · exact absurd (List.mem_singleton.1 hd ▸ hp) (hempty p)

theorem add (hw : t.WellFormed) (hc : t.current ≠ globalId) (h : t.Opening t.current)
    (name : String) (type : Ty) : (t.add name type .param).1.Opening t.current := by
  refine ⟨h.laidOut.add hw List.mem_cons_self name type fun _ => ?_, ?_⟩
  · simp [isRoot, hc]
  · unfold Table.add
    split
    · intro a ha
      rw [setType, view_modifySymbol Symbol.kind rfl]
      exact h.params a ha
    · intro a ha
      rcases mem_symbols_addNew t name type .param hw ha with ⟨-, -, hk, -⟩ | ⟨ha, hsym⟩
      · exact hk
      · rw [hsym]
        exact h.params a ha

/-- The qualifier of a parameter has nothing to do with its place. -/
theorem addQualified (hw : t.WellFormed) (hc : t.current ≠ globalId) (h : t.Opening t.current)
    (name : String) (type : Ty) (q : Qualifier) :
    (t.addQualified name type .param q).1.Opening t.current := by
  have hadd := h.add hw hc name type
  refine ⟨hadd.laidOut.congr List.mem_cons_self (fun _ _ => rfl) fun d _ => ?_, fun a ha => ?_⟩
  · exact .modifySymbol rfl rfl d
  · exact (view_modifySymbol Symbol.kind rfl a).trans (hadd.params a ha)

theorem addParams (hw : t.WellFormed) (hc : t.current ≠ globalId) (h : t.Opening t.current)
    (params : List (String × Ty × Qualifier)) : (t.addParams params).Opening t.current := by
  induction params generalizing t with
  | nil => exact h
  | cons p others ih =>
    have hcur : (t.addQualified p.1 p.2.1 .param p.2.2).1.current = t.current := by
      rw [current, inner_addQualified, current]
    have hfirst := h.addQualified hw hc p.1 p.2.1 p.2.2
    rw [← hcur] at hc hfirst ⊢
    exact ih (hw.addQualified _ _ _ _) hc hfirst

/-- The parameters are those that the frame is opened with: the local variables begin behind
them. -/
theorem alignLocals (hw : t.WellFormed) (h : t.Opening t.current) (roots : List ScopeId) :
    t.alignLocals.LaidOut roots t.current [t.current] := by
  have hself : t.alignLocals.scope t.current =
      { t.scope t.current with locals := (t.scope t.current).params } :=
    scope_modifyScope_self hw.current_lt
  have hmem : ∀ d ∈ [t.current], ∀ a ∈ (t.alignLocals.scope d).symbols,
      a ∈ (t.scope t.current).symbols := by
    intro d hd a ha
    rw [List.mem_singleton.1 hd, hself] at ha
    exact ha
  -- all places that are taken are those of parameters
  have hparams : ∀ a ∈ (t.scope t.current).symbols, -((t.scope t.current).params : Int) <
      (t.symbol a).offset := by
    intro a ha
    have hk := h.params a ha
    have hfree := h.laidOut.free t.current List.mem_cons_self a ha (by rw [hk]; rfl)
    rwa [hk] at hfree
  have hcur : t.current ∈ [t.current] := List.mem_cons_self
  refine ⟨?_, ?_, fun a ha hkind => ?_, fun d hd a ha hkind => ?_, fun d hd _ p hp hkind => ?_,
    fun a ha hkind d hd b hb hsame heq => ?_, fun a ha hkind => ?_⟩
  · rw [hself]
    exact h.laidOut.params
  · rw [hself]
    exact h.laidOut.params
  · exact h.laidOut.place a (hmem _ hcur a ha) hkind
  · have ha := hmem d hd a ha
    rw [show (t.alignLocals.symbol a).kind = .param from h.params a ha, hself]
    exact hparams a ha
  · rw [hself]
    exact hparams p (hmem d hd p hp)
  · exact h.laidOut.apart a (hmem _ hcur a ha) hkind t.current hcur b (hmem d hd b hb) hsame heq
  · have hk : (t.alignLocals.symbol a).kind = .param := h.params a (hmem _ hcur a ha)
    rw [hk] at hkind
    cases hkind

end Opening

namespace Layout

variable {t t' : Table} {roots roots' : List ScopeId}

/-- A function or a lambda is entered: its parameters are all there is in the new frame. -/
theorem frame (h : t.Layout roots) (hw : t.WellFormed) (params : List (String × Ty × Qualifier)) :
    (t.pushFrame.addParams params).alignLocals.Layout (t.scopes.size :: roots) := by
  have hcur : (t.pushFrame.addParams params).current = t.scopes.size := by
    rw [current, inner_addParams]
    rfl
  have hglobal : t.scopes.size ≠ globalId := Ne.symm (Nat.ne_of_lt hw.global_lt)
  have hsize : (t.pushFrame.addParams params).alignLocals.scopes.size = t.scopes.size + 1 :=
    (size_modifyScope ..).trans ((size_addParams ..).trans (size_openScope ..))
  refine h.of_innermost (c := t.scopes.size) (fun c hc => ?_) ?_ List.suffix_rfl (fun d hd => ?_)
    (fun d hd => ?_) ?_
  · rw [hsize]
    rcases List.mem_cons.1 hc with rfl | hc
    · exact Nat.lt_succ_self _
    · exact Nat.lt_succ_of_lt (h.roots_lt c hc)
  · exact open_eq_of_inner_eq (inner_addParams t.pushFrame params)
  · have hne : d ≠ t.scopes.size := Nat.ne_of_lt (hw.open_lt hd)
    simp [isRoot, hne]
  · have hne : d ≠ t.scopes.size := Nat.ne_of_lt (hw.open_lt hd)
    have hparams := SamePlaces.addParams hw.pushFrame hne params
    exact ((SamePlaces.openScope (hw.open_lt hd)).trans hparams).trans
      (.modifyScope_of_ne (hcur ▸ hne))
  -- the new scope: parameters only, and then the local variables are moved behind them
  · have hopening := (Opening.pushFrame t).addParams hw.pushFrame hglobal params
    rw [frameScopes, if_pos (by simp [isRoot])]
    have hopening : (t.pushFrame.addParams params).Opening
        (t.pushFrame.addParams params).current := hcur ▸ hopening
    have hlaid := hopening.alignLocals (hw.pushFrame.addParams params) (t.scopes.size :: roots)
    rwa [hcur] at hlaid

end Layout

/-! ### Leaving a scope -/

section

variable {t : Table} {c : ScopeId} {outer : List ScopeId} (hi : t.inner = c :: outer)

include hi

theorem popScope_eq : t.popScope =
    ({ t with inner := outer } : Table).modifyScope (outer.headD globalId) fun around =>
      { around with
        locals := max around.locals (t.scope c).locals
        params := max around.params (t.scope c).params } := by
  rw [popScope, hi]
  rfl

theorem current_popScope : t.popScope.current = outer.headD globalId := by
  rw [popScope_eq hi]
  rfl

theorem open_popScope : t.open_ = c :: t.popScope.open_ := by
  rw [open_, open_, inner_popScope, hi]
  rfl

/-- The scope around takes over the larger counters. -/
theorem scope_popScope_current (hw : t.WellFormed) :
    t.popScope.scope t.popScope.current =
      { t.scope t.popScope.current with
        locals := max (t.scope t.popScope.current).locals (t.scope c).locals
        params := max (t.scope t.popScope.current).params (t.scope c).params } := by
  have hlt := hw.popScope.current_lt
  rw [size_popScope, current_popScope hi] at hlt
  rw [current_popScope hi, popScope_eq hi]
  exact scope_modifyScope_self hlt

theorem scope_popScope_of_ne {d : ScopeId} (hd : d ≠ t.popScope.current) :
    t.popScope.scope d = t.scope d := by
  rw [current_popScope hi] at hd
  rw [popScope_eq hi]
  exact scope_modifyScope_of_ne hd

/-- No symbol is moved. -/
theorem keepsPlaces_popScope (d : ScopeId) : KeepsPlaces d t t.popScope := by
  intro a ha _
  rw [popScope_eq hi] at ha ⊢
  rw [view_modifyScope Scope.symbols rfl] at ha
  exact ⟨ha, rfl, rfl⟩

end

/-- The scope around takes over counters that are larger, and no places. -/
theorem Layout.popScope {t : Table} {roots roots' : List ScopeId} (h : t.Layout roots)
    (hw : t.WellFormed) {c : ScopeId} {outer : List ScopeId} (hi : t.inner = c :: outer)
    (hlt : ∀ d ∈ roots', d < t.scopes.size)
    (hroots : ∀ d, d ≠ c → isRoot roots' d = isRoot roots d) : t.popScope.Layout roots' := by
  have hopen := open_popScope hi
  have hcons := t.popScope.open_eq_cons
  have hsorted := hw.sorted
  rw [hopen] at hsorted
  have hroots : ∀ d ∈ t.popScope.open_, isRoot roots' d = isRoot roots d :=
    fun d hd => hroots d (Nat.ne_of_lt ((List.pairwise_cons.1 hsorted).1 d hd))
  have hleft := h.laidOut c t.popScope.open_ (hopen ▸ List.suffix_rfl)
  have haround := h.laidOut t.popScope.current t.popScope.open_.tail
    (by rw [← hcons, hopen]; exact List.suffix_cons ..)
  refine h.of_innermost (by rwa [size_popScope]) hcons ?_ (fun d hd => ?_) (fun d hd => ?_) ?_
  · rw [hopen]
    exact (List.tail_suffix _).trans (List.suffix_cons ..)
  · exact hroots d (List.mem_of_mem_tail hd)
  · have hscope := scope_popScope_of_ne hi (hw.popScope.ne_current_of_mem_tail hd)
    exact ⟨by rw [hscope], by rw [hscope], keepsPlaces_popScope hi d⟩
  -- the scope that is current again: its symbols are the same, and its counters have not become
  -- smaller
  · have hself := scope_popScope_current hi hw
    rw [← hcons] at haround ⊢
    rw [frameScopes_congr hroots]
    refine haround.mono ?_ (fun d hd => hroots d (frameScopes_subset roots _ hd)) ?_ ?_ ?_ ?_
      fun d _ => keepsPlaces_popScope hi d
    · rw [hcons]
      exact mem_frameScopes_self ..
    · rw [hself]
      exact haround.locals.max hleft.locals
    · rw [hself]
      exact haround.params.max hleft.params
    · rw [hself]
      exact Nat.le_max_left _ _
    · rw [hself]
      exact Nat.le_max_left _ _

/-! ### All runs -/

/-- Each step keeps the layout. -/
theorem layout_invariant : Table.Invariant fun roots t => t.Layout roots where
  declare hw h name type q :=
    (h.addDeclared hw name type).of_samePlaces rfl (Nat.le_refl _) (.setQualifier _ _ q)
  spawn {_ t bound id frozen} _ h _ hb _ _ := by
    have hsame := (SameButThreads.bind hb).trans (bound.sameButThreads_looksAt id frozen)
    exact h.of_samePlaces hsame.inner (hsame.scopes ▸ Nat.le_refl _) (.of_sameButThreads hsame)
  function hw h name type modifier declared :=
    (h.addDeclared hw name type).of_samePlaces rfl (Nat.le_refl _)
      (.setFunction _ _ modifier declared)
  space {_ t t' name id} hw h _ ha := by
    have hsame := SamePlaces.addNamespace hw ha
    obtain ⟨-, -, rfl⟩ := addNamespace_eq_some ha
    exact h.of_samePlaces rfl (Nat.le_of_eq (size_modifyScope ..).symm) hsame
  member hw h ha := by
    obtain ⟨hinner, hscopes⟩ := addFunctionToNamespace_eq_some ha
    exact h.of_samePlaces hinner (hscopes ▸ Nat.le_refl _) (.addFunctionToNamespace hw ha)
  wait _ h hv := by
    have hsame := sameButThreads_syncVariable hv
    exact h.of_samePlaces hsame.inner (hsame.scopes ▸ Nat.le_refl _) (.of_sameButThreads hsame)
  pushScope hw h := h.pushScope hw
  round name type hw h := h.round hw name type
  frame params hw h := h.frame hw params
  popScope hw hi _ h := h.popScope hw hi h.roots_lt fun _ _ => rfl
  -- the scope that is left is the innermost one with a frame of its own
  popFrame {r t c outer} hw hi h := by
    refine h.popScope hw hi (fun d hd => h.roots_lt d (List.mem_cons_of_mem c hd)) fun d hd => ?_
    simp [isRoot, hd]
  -- regions have nothing to do with scopes
  enterRegion h := h.of_samePlaces rfl (Nat.le_refl _) fun d => .of_scopes_eq rfl rfl
  exitRegion h := h.of_samePlaces rfl (Nat.le_refl _) fun d => .of_scopes_eq rfl rfl

/-- An empty table has no places that are taken. -/
theorem layout_empty : empty.Layout [] := by
  have hempty : ∀ c, (empty.scope c).symbols = [] := fun c => by
    rcases c with - | c
    · rfl
    · rfl
  refine ⟨nofun, fun c outer hc => ?_⟩
  have hplace : IsPlace (empty.scope c).locals ∧ IsPlace (empty.scope c).params := by
    rcases c with - | c
    · exact ⟨⟨0, rfl⟩, ⟨0, rfl⟩⟩
    · exact ⟨⟨0, rfl⟩, ⟨0, rfl⟩⟩
  refine ⟨hplace.1, hplace.2, ?_, ?_, ?_, ?_, ?_⟩ <;> simp [hempty]

/-- The functions that every program begins with are in the global scope. -/
theorem layout_initial (d : Nat) : (Checker.initial d).table.Layout [] :=
  layout_invariant.function wellFormed_empty layout_empty _ _ _ _

/-- In one frame, no open scope lies outside of one that has a frame of its own. -/
theorem WellFormed.le_of_isRoot {t : Table} (hw : t.WellFormed) {roots : List ScopeId}
    {c d : ScopeId} (hc : c ∈ t.open_) (hd : d ∈ t.open_) (hroot : isRoot roots d)
    (hframe : t.frameOf roots c = t.frameOf roots d) : d ≤ c := by
  rcases Nat.le_total d c with hdc | hcd
  · exact hdc
  · obtain ⟨outer, -, hmem⟩ := hw.mem_frameScopes hd hc hcd hframe.symm
    rw [frameScopes, if_pos hroot] at hmem
    exact Nat.le_of_eq (List.mem_singleton.1 hmem).symm

/-- Two symbols of one frame that are of the same kind are apart. -/
theorem Layout.eq_of_offset_eq {t : Table} {roots : List ScopeId} (h : t.Layout roots)
    (hw : t.WellFormed) {a b : SymbolId} (ha : t.InScope a) (hb : t.InScope b)
    (hframe : t.frameOf roots (t.symbol a).scope = t.frameOf roots (t.symbol b).scope)
    (hplace : (t.symbol a).kind.hasPlace) (hkind : (t.symbol a).kind = (t.symbol b).kind)
    (ho : (t.symbol a).offset = (t.symbol b).offset) : a = b := by
  obtain ⟨c, hc, ha⟩ := ha
  obtain ⟨d, hd, hb⟩ := hb
  rw [(hw.linked c a ha).2, (hw.linked d b hb).2] at hframe
  -- the layout is said of the scope further in
  rcases Nat.le_total d c with hdc | hcd
  · obtain ⟨outer, hsuffix, hmem⟩ := hw.mem_frameScopes hc hd hdc hframe
    exact ((h.laidOut c outer hsuffix).apart a ha hplace d hmem b hb hkind.symm ho.symm).symm
  · obtain ⟨outer, hsuffix, hmem⟩ := hw.mem_frameScopes hd hc hcd hframe.symm
    exact (h.laidOut d outer hsuffix).apart b hb (hkind ▸ hplace) c hmem a ha hkind ho

/-- A local variable lies behind the parameters that its frame was opened with. -/
theorem Layout.local_lt_param {t : Table} {roots : List ScopeId} (h : t.Layout roots)
    (hw : t.WellFormed) {p l : SymbolId} (hp : t.InScope p) (hl : t.InScope l)
    (hframe : t.frameOf roots (t.symbol p).scope = t.frameOf roots (t.symbol l).scope)
    (hpkind : (t.symbol p).kind = .param) (hlkind : (t.symbol l).kind = .local_)
    (hloop : ¬ t.isLoopVariable roots p) : (t.symbol l).offset < (t.symbol p).offset := by
  obtain ⟨d, hd, hp⟩ := hp
  obtain ⟨c, hc, hl⟩ := hl
  rw [(hw.linked d p hp).2, (hw.linked c l hl).2] at hframe
  have hroot : isRoot roots d := by
    rw [isLoopVariable, hpkind, (hw.linked d p hp).2] at hloop
    simpa using hloop
  have hdc := hw.le_of_isRoot hc hd hroot hframe.symm
  obtain ⟨outer, hsuffix, hmem⟩ := hw.mem_frameScopes hc hd hdc hframe.symm
  exact (h.laidOut c outer hsuffix).first l hl hlkind d hmem hroot p hp hpkind

/-- A parameter that shares a place with a local variable is the variable of a loop. -/
theorem Layout.isLoopVariable_of_offset_eq {t : Table} {roots : List ScopeId} (h : t.Layout roots)
    (hw : t.WellFormed) {p l : SymbolId} (hp : t.InScope p) (hl : t.InScope l)
    (hframe : t.frameOf roots (t.symbol p).scope = t.frameOf roots (t.symbol l).scope)
    (hpkind : (t.symbol p).kind = .param) (hlkind : (t.symbol l).kind = .local_)
    (ho : (t.symbol p).offset = (t.symbol l).offset) : t.isLoopVariable roots p := by
  refine Decidable.byContradiction fun hloop => ?_
  have hlt := h.local_lt_param hw hp hl hframe hpkind hlkind hloop
  rw [ho] at hlt
  exact Int.lt_irrefl _ hlt

/-- Visible symbols stand at places. -/
theorem Layout.place {t : Table} {roots : List ScopeId} (h : t.Layout roots) {a : SymbolId}
    (ha : t.InScope a) (hplace : (t.symbol a).kind.hasPlace) :
    ∃ n, IsPlace n ∧ (t.symbol a).offset = -(n : Int) := by
  obtain ⟨c, hc, ha⟩ := ha
  obtain ⟨pre, outer, hopen⟩ := List.append_of_mem hc
  exact (h.laidOut c outer (hopen ▸ List.suffix_append pre _)).place a ha hplace

end Table

theorem SymbolKind.hasPlace_iff {kind : SymbolKind} :
    kind.hasPlace ↔ kind = .param ∨ kind = .local_ := by
  cases kind <;> simp [hasPlace]

/-- In every state of every run, the visible parameters and local variables stand at multiples of 8
bytes in their frames.  In one frame, two of them share a place only if one is the variable of a
loop and the other a local variable; the parameters that the frame was opened with lie in front of
all its local variables. -/
theorem offset_eq_only_of_loopVariable {roots : List ScopeId} {s : Checker}
    (h : Reachable roots s) :
    (∀ a, s.table.InScope a → (s.table.symbol a).kind.hasPlace →
      ∃ k : Nat, (s.table.symbol a).offset = -((frameBase + frameAlignment * k : Nat) : Int)) ∧
    (∀ a b, s.table.InScope a → s.table.InScope b →
      s.table.frameOf roots (s.table.symbol a).scope =
        s.table.frameOf roots (s.table.symbol b).scope →
      (s.table.symbol a).kind.hasPlace → (s.table.symbol b).kind.hasPlace →
      (s.table.symbol a).offset = (s.table.symbol b).offset →
        a = b ∨
        s.table.isLoopVariable roots a ∧ (s.table.symbol b).kind = .local_ ∨
        (s.table.symbol a).kind = .local_ ∧ s.table.isLoopVariable roots b) ∧
    (∀ p l, s.table.InScope p → s.table.InScope l →
      s.table.frameOf roots (s.table.symbol p).scope =
        s.table.frameOf roots (s.table.symbol l).scope →
      (s.table.symbol p).kind = .param → (s.table.symbol l).kind = .local_ →
      ¬ s.table.isLoopVariable roots p →
        (s.table.symbol l).offset < (s.table.symbol p).offset) := by
  have hg := Table.layout_invariant.reachable Table.layout_initial h
  have hw := hg.wellFormed
  have hlayout : s.table.Layout roots := hg.holds
  refine ⟨fun a ha hplace => ?_, fun a b ha hb hframe haplace hbplace ho => ?_,
    fun p l hp hl hframe => hlayout.local_lt_param hw hp hl hframe⟩
  · obtain ⟨n, ⟨k, rfl⟩, ho⟩ := hlayout.place ha hplace
    exact ⟨k, ho⟩
  -- two of a kind are apart, so a parameter and a local variable remain
  · rcases SymbolKind.hasPlace_iff.1 haplace with hak | hak <;>
      rcases SymbolKind.hasPlace_iff.1 hbplace with hbk | hbk
    · exact .inl (hlayout.eq_of_offset_eq hw ha hb hframe haplace (hak.trans hbk.symm) ho)
    · exact .inr (.inl ⟨hlayout.isLoopVariable_of_offset_eq hw ha hb hframe hak hbk ho, hbk⟩)
    · have hloop := hlayout.isLoopVariable_of_offset_eq hw hb ha hframe.symm hbk hak ho.symm
      exact .inr (.inr ⟨hak, hloop⟩)
    · exact .inl (hlayout.eq_of_offset_eq hw ha hb hframe haplace (hak.trans hbk.symm) ho)

namespace Sample

/-- `fn sum(xs: int[]): int { var total = 0; for x in xs { total = total + x; } return total; }` -/
def totals : Stmt :=
  .function span
    ⟨"sum", [⟨"xs", some (.array .int), .default, span, none⟩], .int, .default, none, none⟩
    [.declare span ⟨"total", none, .default, none⟩ (some (.literal (.at span) (.int 0))),
      .forEach span "x" none (var "xs")
        (.block span .default [.expression span
          (.assign (.at span) "total" (.binary (.at span) .add (var "total") (var "x")))]) false,
      .ret span (some (var "total"))]

/-- The roots and the state at a point inside of `totals`. -/
def insideTotals (path : List Nat) : Option (List ScopeId × Checker) :=
  follow [] ⟨.initial defaultSuggestionDistance, .stmts .void [totals]⟩ (0 :: path)

theorem reachable_insideTotals {path : List Nat} {roots : List ScopeId} {s : Checker}
    (h : insideTotals path = some (roots, s)) : Reachable roots s :=
  reachable_follow (p := ⟨.initial defaultSuggestionDistance, .stmts .void [totals]⟩)
    (.initial defaultSuggestionDistance) h

end Sample

/-- Behind the declaration of `total`, the variable lies behind the parameter. -/
theorem offset_eq_only_of_loopVariable_body :
    ∃ roots s, Reachable roots s ∧ s.table.lookup "xs" = some 2 ∧
      s.table.lookup "total" = some 3 ∧ (s.table.symbol 3).offset < (s.table.symbol 2).offset := by
  have hrun : (Sample.insideTotals [0, 1]).any (fun (roots, s) =>
      s.table.lookup "xs" = some 2 ∧ s.table.lookup "total" = some 3 ∧
        s.table.InScope 2 ∧ s.table.InScope 3 ∧
        s.table.frameOf roots (s.table.symbol 2).scope =
          s.table.frameOf roots (s.table.symbol 3).scope ∧
        (s.table.symbol 2).kind = .param ∧ (s.table.symbol 3).kind = .local_ ∧
        ¬ s.table.isLoopVariable roots 2) = true := by decide +kernel
  obtain ⟨⟨roots, s⟩, hs, hrun⟩ := (Option.any_eq_true _ _).1 hrun
  obtain ⟨hxs, htotal, hp, hl, hframe, hpk, hlk, hloop⟩ := of_decide_eq_true hrun
  have hreach := Sample.reachable_insideTotals hs
  refine ⟨roots, s, hreach, hxs, htotal, ?_⟩
  exact (offset_eq_only_of_loopVariable hreach).2.2 2 3 hp hl hframe hpk hlk hloop

/-- The program is accepted, and in the body of its loop the variable of the loop shares the place
of `total`. -/
theorem loopVariable_shares_place :
    (Sample.after [Sample.totals]).accepted ∧
    ∃ roots s, Sample.insideTotals [0, 1, 0, 1] = some (roots, s) ∧ Reachable roots s ∧
      s.table.lookup "x" = some 4 ∧ s.table.lookup "total" = some 3 ∧
      (s.table.symbol 4).kind = .param ∧ (s.table.symbol 3).kind = .local_ ∧
      s.table.frameOf roots (s.table.symbol 4).scope =
        s.table.frameOf roots (s.table.symbol 3).scope ∧
      (s.table.symbol 4).offset = (s.table.symbol 3).offset := by
  have hrun : (Sample.insideTotals [0, 1, 0, 1]).any (fun (roots, s) =>
      s.table.lookup "x" = some 4 ∧ s.table.lookup "total" = some 3 ∧
        (s.table.symbol 4).kind = .param ∧ (s.table.symbol 3).kind = .local_ ∧
        s.table.frameOf roots (s.table.symbol 4).scope =
          s.table.frameOf roots (s.table.symbol 3).scope ∧
        (s.table.symbol 4).offset = (s.table.symbol 3).offset) = true := by decide +kernel
  obtain ⟨⟨roots, s⟩, hs, hrun⟩ := (Option.any_eq_true _ _).1 hrun
  refine ⟨by decide +kernel, roots, s, hs, Sample.reachable_insideTotals hs, ?_⟩
  exact of_decide_eq_true hrun

end ThreadRegions
