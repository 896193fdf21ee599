import ThreadRegions.Proofs.Names

/-!
# What is settled once and for all

A table hands out numbers for scopes and symbols and never takes one back.  What a number stands for
is settled when it is handed out: a scope stays in the scope that it was opened in, and a symbol
keeps its name and its place.

## Main Definitions

* `Symbol.birth`, `Scope.place`: what is settled about a symbol and about a scope
* `Table.Persists`: all numbers of a table stay in use for the same things
* `Table.OpensNone`: the same, where no scope is opened

## Main Results

* one lemma for each operation, by which it opens none; `Table.Persists.openScope` is for the others
-/

namespace ThreadRegions

/-- All that is settled about a symbol when it is declared. -/
def Symbol.birth (s : Symbol) : String × SymbolKind × ScopeId × Int × Nat :=
  (s.name, s.kind, s.scope, s.offset, s.region)

/-- All that is settled about a scope when it is opened. -/
def Scope.place (s : Scope) : Option ScopeId × Nat × Nat := (s.parent, s.depth, s.region)

namespace Table

/-- The numbers of the first table stand for the same scopes and symbols in the second one. -/
structure Persists (t t' : Table) : Prop where
  symbols_le : t.symbols.size ≤ t'.symbols.size
  symbol : ∀ a, a < t.symbols.size → (t'.symbol a).birth = (t.symbol a).birth
  scopes_le : t.scopes.size ≤ t'.scopes.size
  scope : ∀ c, c < t.scopes.size → (t'.scope c).place = (t.scope c).place

/-- The numbers stand for the same things, no scope is new, and if the open scopes are not the same,
some of the inner ones have been left. -/
structure OpensNone (t t' : Table) : Prop extends Persists t t' where
  scopes_eq : t'.scopes.size = t.scopes.size
  inner_suffix : t'.inner <:+ t.inner

namespace Persists

variable {t t₁ t₂ : Table}

theorem refl (t : Table) : t.Persists t :=
  ⟨Nat.le_refl _, fun _ _ => rfl, Nat.le_refl _, fun _ _ => rfl⟩

/-- The numbers of the first table are numbers of the second one, so what they stand for there is
what they stand for in the third. -/
theorem trans (h : t.Persists t₁) (h' : t₁.Persists t₂) : t.Persists t₂ where
  symbols_le := Nat.le_trans h.symbols_le h'.symbols_le
  symbol a ha := (h'.symbol a (Nat.lt_of_lt_of_le ha h.symbols_le)).trans (h.symbol a ha)
  scopes_le := Nat.le_trans h.scopes_le h'.scopes_le
  scope c hc := (h'.scope c (Nat.lt_of_lt_of_le hc h.scopes_le)).trans (h.scope c hc)

/-- A new scope gets a number that was not in use. -/
theorem openScope (s : Scope) : t.Persists (t.openScope s) where
  symbols_le := Nat.le_refl _
  symbol _ _ := rfl
  scopes_le := (size_openScope ..).symm ▸ Nat.le_succ _
  scope c hc := by rw [scope_openScope_of_ne s (Nat.ne_of_lt hc)]

end Persists

namespace OpensNone

variable {t t₁ t₂ : Table}

theorem refl (t : Table) : t.OpensNone t := ⟨.refl t, rfl, List.suffix_refl _⟩

/-- One operation after the other.  The scopes that are left are the inner ones each time. -/
theorem trans (h : t.OpensNone t₁) (h' : t₁.OpensNone t₂) : t.OpensNone t₂ where
  toPersists := h.toPersists.trans h'.toPersists
  scopes_eq := h'.scopes_eq.trans h.scopes_eq
  inner_suffix := h'.inner_suffix.trans h.inner_suffix

/-! ### Single changes -/

/-- Scopes are left, and the rest stays as it is. -/
theorem of_eq (hs : t₁.symbols = t.symbols) (hc : t₁.scopes = t.scopes)
    (hi : t₁.inner <:+ t.inner) : t.OpensNone t₁ where
  symbols_le := Nat.le_of_eq (congrArg Array.size hs).symm
  symbol a _ := by rw [Table.symbol, hs]; rfl
  scopes_le := Nat.le_of_eq (congrArg Array.size hc).symm
  scope c _ := by rw [Table.scope, hc]; rfl
  scopes_eq := congrArg Array.size hc
  inner_suffix := hi

/-- A symbol may change in its type, its marks and its part in threads. -/
theorem modifySymbol {id : SymbolId} {f : Symbol → Symbol}
    (hf : (f (t.symbol id)).birth = (t.symbol id).birth) : t.OpensNone (t.modifySymbol id f) where
  symbols_le := Nat.le_of_eq (size_modifySymbol ..).symm
  symbol a _ := view_modifySymbol Symbol.birth hf a
  scopes_le := Nat.le_refl _
  scope _ _ := rfl
  scopes_eq := rfl
  inner_suffix := List.suffix_refl _

/-- A scope may change in its symbols and its free places. -/
theorem modifyScope {c : ScopeId} {g : Scope → Scope}
    (hg : (g (t.scope c)).place = (t.scope c).place) : t.OpensNone (t.modifyScope c g) where
  symbols_le := Nat.le_refl _
  symbol _ _ := rfl
  scopes_le := Nat.le_of_eq (size_modifyScope ..).symm
  scope d _ := view_modifyScope Scope.place hg d
  scopes_eq := size_modifyScope ..
  inner_suffix := List.suffix_refl _

/-- A new symbol gets a number that was not in use. -/
theorem pushSymbol (s : Symbol) : t.OpensNone (t.pushSymbol s) where
  symbols_le := (size_pushSymbol ..).symm ▸ Nat.le_succ _
  symbol a ha := by rw [symbol_pushSymbol_of_ne s (Nat.ne_of_lt ha)]
  scopes_le := Nat.le_refl _
  scope _ _ := rfl
  scopes_eq := rfl
  inner_suffix := List.suffix_refl _

/-- Threads change nothing that is settled. -/
theorem of_sameButThreads (h : t.SameButThreads t₁) : t.OpensNone t₁ where
  symbols_le := Nat.le_of_eq h.size.symm
  symbol a _ := h.field Symbol.birth (fun _ => rfl) a
  scopes_le := Nat.le_of_eq (congrArg Array.size h.scopes).symm
  scope c _ := by rw [h.scope_eq]
  scopes_eq := congrArg Array.size h.scopes
  inner_suffix := h.inner ▸ List.suffix_refl _

/-! ### Operations -/

/-- The scope is left, and the one around it may have fewer free places. -/
theorem popScope (t : Table) : t.OpensNone t.popScope := by
  unfold Table.popScope
  split
  · exact refl t
  · next child outer hi =>
    -- leaving the scope and keeping its places clear are two changes
    have hout : t.OpensNone { t with inner := outer } := of_eq rfl rfl ⟨[child], hi.symm⟩
    exact hout.trans (modifyScope rfl)

theorem alignLocals (t : Table) : t.OpensNone t.alignLocals := modifyScope rfl

theorem enterRegion (t : Table) : t.OpensNone t.enterRegion := of_eq rfl rfl (List.suffix_refl _)

theorem exitRegion (t : Table) : t.OpensNone t.exitRegion := of_eq rfl rfl (List.suffix_refl _)

/-- A name that the scope already has is given another type.  Otherwise there is one symbol more,
and the scope holds it. -/
theorem add (name : String) (type : Ty) (kind : SymbolKind) :
    t.OpensNone (t.add name type kind).1 := by
  unfold Table.add
  split
  · exact modifySymbol rfl
  · refine (pushSymbol _).trans (modifyScope ?_)
    cases kind <;> rfl

theorem addQualified (name : String) (type : Ty) (kind : SymbolKind) (q : Qualifier) :
    t.OpensNone (t.addQualified name type kind q).1 :=
  (add name type kind).trans (modifySymbol rfl)

theorem addFunction (name : String) (type : Ty) (modifier declared : Modifier) :
    t.OpensNone (t.addFunction name type modifier declared).1 :=
  (add name type _).trans (modifySymbol rfl)

theorem addParams (params : List (String × Ty × Qualifier)) : t.OpensNone (t.addParams params) := by
  induction params generalizing t with
  | nil => exact refl t
  | cons p others ih => exact (addQualified p.1 p.2.1 .param p.2.2).trans ih

/-- The symbol stays under its number.  Only the scope does not hold it any more. -/
theorem removeFromGlobal (name : String) : t.OpensNone (t.removeFromGlobal name).1 := by
  unfold Table.removeFromGlobal
  dsimp only
  split
  · exact modifyScope rfl
  · exact refl t

/-- A namespace is a symbol of the global scope. -/
theorem addNamespace {name : String} {id : SymbolId}
    (h : t.addNamespace name = some (t₁, id)) : t.OpensNone t₁ := by
  obtain ⟨-, -, rfl⟩ := addNamespace_eq_some h
  exact (pushSymbol _).trans (modifyScope rfl)

/-- A member is held by its namespace, which is another symbol, and by no scope. -/
theorem addToNamespace {space name : String} {type : Ty} {id : SymbolId}
    (h : t.addToNamespace space name type = some (t₁, id)) : t.OpensNone t₁ := by
  obtain ⟨b, -, hb⟩ := Option.map_eq_some_iff.1 h
  split at hb
  · cases hb
    exact modifySymbol rfl
  · cases hb
    exact (pushSymbol _).trans (modifySymbol rfl)

theorem addFunctionToNamespace {space name : String} {type : Ty} {modifier declared : Modifier}
    {id : SymbolId}
    (h : t.addFunctionToNamespace space name type modifier declared = some (t₁, id)) :
    t.OpensNone t₁ := by
  obtain ⟨⟨t₂, a⟩, hadd, hb⟩ := Option.map_eq_some_iff.1 h
  cases hb
  exact (addToNamespace hadd).trans (modifySymbol rfl)

end OpensNone

end Table

end ThreadRegions
