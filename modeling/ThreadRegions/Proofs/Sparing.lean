import ThreadRegions.Proofs.Freeze

/-!
# What a block leaves alone

A block without imports declares names in scopes of its own.  Once it has been left, all that was
there before is as it was: every scope lists the same symbols, and a symbol has changed at most in
its part in the threads of the program, for the block may have waited for the thread of a variable
around it, or have started one that looks at it.

## Main Definitions

* `Symbol.still`: a symbol without what threads change about it
* `Table.Spares`: all but some scopes and their symbols is left alone

## Main Results

* `Table.sparing_stableIn`: a statement without imports leaves all but the current scope alone
-/

namespace ThreadRegions

/-- The symbol without its state and without the number of threads that look at it. -/
def Symbol.still (s : Symbol) : Symbol := { s with state := .normal, freezeCount := 0 }

namespace Table

/-- The scopes outside of `X` list the same symbols, symbols that are in no scope of `X` have
changed at most in their part in threads, and only new symbols have been put into a scope. -/
structure Spares (X : ScopeId → Prop) (t t' : Table) : Prop where
  symbols_le : t.symbols.size ≤ t'.symbols.size
  scopes_le : t.scopes.size ≤ t'.scopes.size
  still : ∀ a, a < t.symbols.size → (∀ c, X c → a ∉ (t.scope c).symbols) →
    (t'.symbol a).still = (t.symbol a).still
  listed : ∀ c, c < t.scopes.size → ¬ X c → (t'.scope c).symbols = (t.scope c).symbols
  fresh : ∀ c, ∀ a ∈ (t'.scope c).symbols, a ∈ (t.scope c).symbols ∨ t.symbols.size ≤ a

/-- The symbol of a declaration is in the current scope. -/
theorem add_mem_current {t : Table} (h : t.current < t.scopes.size) (name : String) (type : Ty)
    (kind : SymbolKind) :
    (t.add name type kind).2 ∈ ((t.add name type kind).1.scope t.current).symbols := by
  unfold Table.add
  split
  · next id hid => exact (findIn_eq_some hid).1
  · have hsymbols : ((t.addNew name type kind).scope t.current).symbols =
        (t.scope t.current).symbols ++ [t.symbols.size] :=
      congrArg Scope.symbols (scope_modifyScope_self (t := t.pushSymbol _) h)
    rw [hsymbols]
    exact List.mem_append_right _ (List.mem_singleton_self _)

/-- A symbol that has just been declared is in the current scope. -/
theorem JustDeclared.mem_current {t : Table} {id : SymbolId} (h : t.JustDeclared id)
    (hw : t.WellFormed) : id ∈ (t.scope t.current).symbols := by
  obtain ⟨before, name, type, kind, q, h⟩ := h
  have hadd : (before.add name type kind).1.setQualifier (before.add name type kind).2 q = t :=
    congrArg Prod.fst h
  have hid : (before.add name type kind).2 = id := congrArg Prod.snd h
  have hcurrent : t.current = before.current := by
    rw [← hadd, current, current]
    exact congrArg (List.headD · globalId) (inner_add ..)
  have hsize : t.scopes.size = before.scopes.size := by
    rw [← hadd]
    exact size_add ..
  have hlt : before.current < before.scopes.size := by
    rw [← hcurrent, ← hsize]
    exact hw.current_lt
  rw [hcurrent, ← hid, ← hadd]
  exact add_mem_current hlt name type kind

namespace Spares

variable {X Y : ScopeId → Prop} {t t₁ t₂ : Table}

theorem refl (X : ScopeId → Prop) (t : Table) : t.Spares X t where
  symbols_le := Nat.le_refl _
  scopes_le := Nat.le_refl _
  still _ _ _ := rfl
  listed _ _ _ := rfl
  fresh _ _ ha := .inl ha

theorem trans (h : t.Spares X t₁) (h' : t₁.Spares X t₂) : t.Spares X t₂ where
  symbols_le := Nat.le_trans h.symbols_le h'.symbols_le
  scopes_le := Nat.le_trans h.scopes_le h'.scopes_le
  still a ha hX := by
    refine (h'.still a (Nat.lt_of_lt_of_le ha h.symbols_le) fun c hc hmem => ?_).trans
      (h.still a ha hX)
    -- an old symbol cannot get into a scope that is taken out
    rcases h.fresh c a hmem with hold | hnew
    · exact hX c hc hold
    · exact Nat.not_le_of_lt ha hnew
  listed c hc hX :=
    (h'.listed c (Nat.lt_of_lt_of_le hc h.scopes_le) hX).trans (h.listed c hc hX)
  fresh c a ha := by
    rcases h'.fresh c a ha with hold | hnew
    · exact h.fresh c a hold
    · exact .inr (Nat.le_trans h.symbols_le hnew)

/-- With more scopes taken out, less is said. -/
theorem mono (h : t.Spares X t₁) (hXY : ∀ c, X c → Y c) : t.Spares Y t₁ :=
  { h with
    still := fun a ha hY => h.still a ha fun c hc => hY c (hXY c hc)
    listed := fun c hc hY => h.listed c hc fun hX => hY (hXY c hX) }

/-- A scope that was not there before need not be taken out. -/
theorem narrow (h : t.Spares (· = t.scopes.size) t₁) : t.Spares (fun _ => False) t₁ :=
  { h with
    still := by
      intro a ha _
      refine h.still a ha ?_
      rintro _ rfl hmem
      rw [scope_of_size_le (Nat.le_refl _)] at hmem
      exact List.not_mem_nil hmem
    listed := fun c hc _ => h.listed c hc (Nat.ne_of_lt hc) }

/-- Only threads make a difference. -/
theorem of_still (hscopes : t₁.scopes = t.scopes) (hsize : t₁.symbols.size = t.symbols.size)
    (h : ∀ a, (∀ c, X c → a ∉ (t.scope c).symbols) → (t₁.symbol a).still = (t.symbol a).still) :
    t.Spares X t₁ := by
  have hscope (c : ScopeId) : t₁.scope c = t.scope c := by rw [scope, hscopes, scope]
  exact
    { symbols_le := Nat.le_of_eq hsize.symm
      scopes_le := Nat.le_of_eq (congrArg Array.size hscopes).symm
      still := fun a _ ha => h a ha
      listed := fun c _ _ => by rw [hscope]
      fresh := fun c a ha => .inl (by rwa [hscope] at ha) }

/-- A symbol of a scope that is not spared is changed. -/
theorem modifySymbol {id : SymbolId} (hid : ∃ c, X c ∧ id ∈ (t.scope c).symbols)
    (f : Symbol → Symbol) : t.Spares X (t.modifySymbol id f) := by
  obtain ⟨c, hc, hmem⟩ := hid
  refine of_still rfl (size_modifySymbol ..) fun a ha => ?_
  have hne : a ≠ id := by
    rintro rfl
    exact ha c hc hmem
  rw [symbol_modifySymbol_of_ne hne]

theorem modifyScope {c : ScopeId} {g : Scope → Scope}
    (hg : (g (t.scope c)).symbols = (t.scope c).symbols) : t.Spares X (t.modifyScope c g) where
  symbols_le := Nat.le_refl _
  scopes_le := Nat.le_of_eq (size_modifyScope ..).symm
  still _ _ _ := rfl
  listed a _ _ := view_modifyScope Scope.symbols hg a
  fresh a b hb := .inl (by rwa [view_modifyScope Scope.symbols hg a] at hb)

/-- A scope is opened that has no symbols. -/
theorem openScope {s : Scope} (hs : s.symbols = []) : t.Spares X (t.openScope s) where
  symbols_le := Nat.le_refl _
  scopes_le := by
    rw [size_openScope]
    exact Nat.le_succ _
  still _ _ _ := rfl
  listed c hc _ := by rw [scope_openScope_of_ne s (Nat.ne_of_lt hc)]
  fresh c a ha := by
    by_cases hc : c = t.scopes.size
    · rw [hc, scope_openScope_self, hs] at ha
      exact absurd ha List.not_mem_nil
    · rw [scope_openScope_of_ne s hc] at ha
      exact .inl ha

theorem popScope (X : ScopeId → Prop) (t : Table) : t.Spares X t.popScope := by
  unfold Table.popScope
  split
  · exact refl X t
  · next child outer _ =>
    have hinner : t.Spares X { t with inner := outer } := of_still rfl rfl fun _ _ => rfl
    exact hinner.trans (modifyScope rfl)

theorem region (h : t.enterRegion.Spares X t₁) : t.Spares X t₁.exitRegion :=
  ⟨h.symbols_le, h.scopes_le, h.still, h.listed, h.fresh⟩

/-! ### Declarations -/

theorem addNew (hw : t.WellFormed) (name : String) (type : Ty) (kind : SymbolKind) :
    t.Spares (· = t.current) (t.addNew name type kind) where
  symbols_le := by simp [Table.addNew]
  scopes_le := by simp [Table.addNew]
  still a ha _ := congrArg Symbol.still (symbol_addNew_of_lt t name type kind ha)
  listed c _ hc := congrArg Scope.symbols (scope_addNew_of_ne t name type kind hc)
  fresh c a ha := by
    by_cases hc : c = t.current
    · subst hc
      have hsymbols := congrArg Scope.symbols (scope_addNew_self t name type kind hw)
      rw [hsymbols] at ha
      rcases List.mem_append.1 ha with hold | hnew
      · exact .inl hold
      · exact .inr (Nat.le_of_eq (List.mem_singleton.1 hnew).symm)
    · rw [scope_addNew_of_ne t name type kind hc] at ha
      exact .inl ha

/-- A second declaration changes the symbol of the first one, which is in the current scope. -/
theorem add (hw : t.WellFormed) (name : String) (type : Ty) (kind : SymbolKind) :
    t.Spares (· = t.current) (t.add name type kind).1 := by
  unfold Table.add
  split
  · next id hid => exact modifySymbol (X := (· = t.current)) ⟨_, rfl, (findIn_eq_some hid).1⟩ _
  · exact addNew hw name type kind

/-- A declaration that says more about its symbol. -/
theorem addWith (hw : t.WellFormed) (name : String) (type : Ty) (kind : SymbolKind)
    (f : Symbol → Symbol) :
    t.Spares (· = t.current)
      ((t.add name type kind).1.modifySymbol (t.add name type kind).2 f) := by
  have hcurrent := add_mem_current hw.current_lt name type kind
  exact (add hw name type kind).trans
    (modifySymbol (X := (· = t.current)) ⟨_, rfl, hcurrent⟩ f)

theorem addParams (hw : t.WellFormed) (params : List (String × Ty × Qualifier)) :
    t.Spares (· = t.current) (t.addParams params) := by
  induction params generalizing t with
  | nil => exact refl _ t
  | cons p others ih =>
    have hothers := ih (hw.addQualified p.1 p.2.1 .param p.2.2)
    rw [current, inner_addQualified] at hothers
    exact (addWith hw p.1 p.2.1 .param _).trans hothers

/-! ### Threads -/

/-- Waiting for a thread releases what the thread looks at, and that is all. -/
theorem syncVariable {name : String} {id : SymbolId} (X : ScopeId → Prop)
    (h : t.syncVariable name = .ok (t₁, id)) : t.Spares X t₁ := by
  have hsame := sameButThreads_syncVariable h
  obtain ⟨-, marked, hm, rfl⟩ := syncVariable_eq_ok h
  refine of_still hsame.scopes hsame.size fun a _ => ?_
  -- the handle changes its state only, and the others their number of threads
  have hstill : (marked.symbol a).still = (t.symbol a).still := by
    obtain ⟨s, hs, rfl⟩ := transition_eq_ok hm
    obtain ⟨-, rfl⟩ := Symbol.markSynchronized_eq_ok hs
    exact view_modifySymbol Symbol.still rfl a
  rw [symbol_foldl_release]
  exact hstill

theorem spawn {bound : Table} {id : SymbolId} {frozen : List SymbolId} (hw : t.WellFormed)
    (hd : t.JustDeclared id)
    (hb : t.transition id (fun s => s.rebind.bind Symbol.markPending) = .ok bound)
    (hv : ∀ a ∈ frozen, ∃ name, bound.lookup name = some a) :
    t.Spares (· = t.current) (bound.looksAt id frozen) := by
  have hbound := SameButThreads.bind hb
  have hsame := hbound.trans (bound.sameButThreads_looksAt id frozen)
  have hlt : ∀ a ∈ frozen, a < t.symbols.size := by
    intro a ha
    obtain ⟨name, hl⟩ := hv a ha
    rw [hbound.lookup_eq] at hl
    exact hw.lookup_lt hl
  refine of_still hsame.scopes hsame.size fun a ha => ?_
  have hne : a ≠ id := by
    rintro rfl
    exact ha t.current rfl (hd.mem_current hw)
  rw [symbol_looksAt_of_ne hb hlt hne]
  rfl

end Spares

/-! ### All steps -/

/-- The same scopes are open, and all that was there is left alone. -/
def SparesAll (t t' : Table) : Prop := t'.inner = t.inner ∧ t.Spares (fun _ => False) t'

/-- The same scopes are open, and all but the current scope is left alone. -/
def SparesOuter (t t' : Table) : Prop := t'.inner = t.inner ∧ t.Spares (· = t.current) t'

theorem current_eq_of_inner_eq {t t' : Table} (h : t'.inner = t.inner) :
    t'.current = t.current := by
  rw [current, h, current]

/-- The current scope is the same all the time. -/
theorem SparesOuter.trans {t t₁ t₂ : Table} (h : t.SparesOuter t₁) (h' : t₁.SparesOuter t₂) :
    t.SparesOuter t₂ := by
  have hlater := h'.2
  rw [current_eq_of_inner_eq h.1] at hlater
  exact ⟨h'.1.trans h.1, h.2.trans hlater⟩

/-- Leaving a scope that has been entered with some declarations. -/
theorem SparesAll.popScope {t entered t' : Table} (hi : t'.inner = t.scopes.size :: t.inner)
    (hcurrent : entered.current = t.scopes.size) (hin : t.Spares (· = t.scopes.size) entered)
    (hr : entered.SparesOuter t') : t.SparesAll t'.popScope := by
  have hbody := hr.2
  rw [hcurrent] at hbody
  refine ⟨by rw [inner_popScope, hi, List.tail_cons], ?_⟩
  exact ((hin.trans hbody).trans (.popScope _ t')).narrow

/-- Without imports, a statement leaves all but the current scope alone, and an expression leaves
everything alone. -/
theorem sparing_stableIn : Table.StableIn (· ≠ .space) SparesAll SparesOuter where
  refl t := ⟨rfl, .refl _ t⟩
  trans h h' := ⟨h'.1.trans h.1, h.2.trans h'.2⟩
  ofExpr h := ⟨h.1, h.2.mono fun _ => False.elim⟩
  stmtTrans := SparesOuter.trans
  declare _ hw name type q := ⟨inner_addQualified .., .addWith hw name type _ _⟩
  spawn _ hw hd hb _ hv :=
    ⟨((SameButThreads.bind hb).trans (sameButThreads_looksAt ..)).inner, .spawn hw hd hb hv⟩
  function _ hw name type modifier declared := ⟨inner_add .., .addWith hw name type _ _⟩
  space h := absurd rfl h
  member h := absurd rfl h
  scope _ hw _ hi _ hr := .popScope hi rfl (.openScope rfl) hr
  -- what is declared on entry is in the scope that is left again
  round name type _ hw _ hi _ hr := by
    have hadd := Spares.add hw.pushScope name type .param
    exact .popScope hi (current_eq_of_inner_eq (inner_add ..)) (.trans (.openScope rfl) hadd) hr
  frame params _ hw _ hi _ hr := by
    have hparams := Spares.addParams hw.pushFrame params
    refine .popScope hi (current_frame ..) ?_ hr
    exact (Spares.trans (.openScope rfl) hparams).trans (.modifyScope rfl)
  region h := ⟨h.1, h.2.region⟩
  stmtRegion h := ⟨h.1, h.2.region⟩
  wait _ hv := ⟨(sameButThreads_syncVariable hv).inner, .syncVariable _ hv⟩

end Table

end ThreadRegions
