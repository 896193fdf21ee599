import ThreadRegions.Proofs.Names

/-!
# Places in a frame

Parameters and local variables take places in a frame, each kind from a counter of its own.  Here a
single scope is looked at, together with the scopes of its frame around it: the counters of the
scope lie behind the places that are taken, and a declaration keeps that.

## Main Definitions

* `Table.frameOf`: the scope whose frame an open scope belongs to
* `Table.isLoopVariable`: a parameter that the frame was not opened with
* `Table.LaidOut`: the counters of a scope lie behind the places that are taken
* `Table.SamePlaces`: a scope in which no place has been taken

## Main Results

* `Table.WellFormed.mem_frameScopes`: the scopes of a frame, seen from the innermost one
* `Table.LaidOut.mono`: a scope stays laid out while its counters grow
* `Table.LaidOut.add`: a scope stays laid out when a symbol is declared in it

## Design Notes

The scopes of a frame are found in the list of open scopes, from the innermost one up to the first
that has a frame of its own.  So all that is said of a frame follows the list.
-/

namespace ThreadRegions

/-- Whether symbols of a kind take a place in a frame. -/
def SymbolKind.hasPlace : SymbolKind → Bool
  | .param | .local_ => true
  | .global | .namespace_ | .typeAlias => false

/-- Distances from the beginning of a frame that a place can have. -/
def IsPlace (n : Nat) : Prop := ∃ k, n = frameBase + frameAlignment * k

/-- Every value takes one place. -/
theorem frameSize_eq (type : Ty) : frameSize type = frameAlignment := by
  cases type <;> simp [frameSize, Ty.size, frameAlignment]

/-- Behind a place is a place. -/
theorem IsPlace.add {n : Nat} (h : IsPlace n) (type : Ty) : IsPlace (n + frameSize type) := by
  obtain ⟨k, rfl⟩ := h
  refine ⟨k + 1, ?_⟩
  rw [frameSize_eq, Nat.mul_add, Nat.mul_one, Nat.add_assoc]

/-- The counters of a scope that is left and of the scope around it are both places, and so is the
larger one. -/
theorem IsPlace.max {m n : Nat} (hm : IsPlace m) (hn : IsPlace n) : IsPlace (max m n) := by
  rcases Nat.le_total m n with h | h
  · rwa [Nat.max_eq_right h]
  · rwa [Nat.max_eq_left h]

namespace Table

/-! ### Frames -/

/-- Whether a scope has a frame of its own.  The global scope has one. -/
def isRoot (roots : List ScopeId) (c : ScopeId) : Bool := c = globalId || roots.contains c

/-- The nearest of the given scopes that has a frame of its own. -/
def nearestRoot (roots scopes : List ScopeId) : ScopeId :=
  (scopes.find? (isRoot roots)).getD globalId

/-- The scope whose frame an open scope belongs to: the nearest around it that has one, which may be
the scope itself. -/
def frameOf (t : Table) (roots : List ScopeId) (c : ScopeId) : ScopeId :=
  nearestRoot roots (t.open_.dropWhile (· ≠ c))

/-- An open scope holds the symbol. -/
def InScope (t : Table) (a : SymbolId) : Prop := ∃ c ∈ t.open_, a ∈ (t.scope c).symbols

instance (t : Table) (a : SymbolId) : Decidable (t.InScope a) :=
  inferInstanceAs (Decidable (∃ c ∈ t.open_, a ∈ (t.scope c).symbols))

/-- Whether a symbol is the variable of a loop: a parameter that its frame was not opened with. -/
def isLoopVariable (t : Table) (roots : List ScopeId) (a : SymbolId) : Bool :=
  (t.symbol a).kind = .param && !isRoot roots (t.symbol a).scope

/-- The scopes of the frame that the innermost of the given scopes belongs to. -/
def frameScopes (roots : List ScopeId) : List ScopeId → List ScopeId
  | [] => []
  | c :: outer => if isRoot roots c then [c] else c :: frameScopes roots outer

/-- A scope belongs to its own frame. -/
theorem mem_frameScopes_self (roots : List ScopeId) (c : ScopeId) (outer : List ScopeId) :
    c ∈ frameScopes roots (c :: outer) := by
  rw [frameScopes]
  split <;> exact List.mem_cons_self

/-- The scopes of a frame are open. -/
theorem frameScopes_subset (roots scopes : List ScopeId) : frameScopes roots scopes ⊆ scopes := by
  induction scopes with
  | nil => exact List.Subset.refl []
  | cons c outer ih =>
    rw [frameScopes]
    split
    · exact List.cons_subset_cons c (List.nil_subset outer)
    · exact List.cons_subset_cons c ih

/-- Which scopes have frames of their own is all that matters. -/
theorem frameScopes_congr {roots roots' scopes : List ScopeId}
    (h : ∀ c ∈ scopes, isRoot roots' c = isRoot roots c) :
    frameScopes roots' scopes = frameScopes roots scopes := by
  induction scopes with
  | nil => rfl
  | cons c outer ih =>
    obtain ⟨hc, houter⟩ := List.forall_mem_cons.1 h
    rw [frameScopes, frameScopes, hc, ih houter]

/-- A scope that has the nearest root in common with the innermost one belongs to its frame. -/
theorem mem_frameScopes {roots scopes : List ScopeId} {d : ScopeId}
    (hsorted : scopes.Pairwise (· > ·)) (hd : d ∈ scopes)
    (hroot : nearestRoot roots scopes = nearestRoot roots (scopes.dropWhile (· ≠ d))) :
    d ∈ frameScopes roots scopes := by
  induction scopes with
  | nil => cases hd
  | cons c outer ih =>
    obtain ⟨hlt, hsorted⟩ := List.pairwise_cons.1 hsorted
    -- the innermost scope itself, or one further out
    rcases List.mem_cons.1 hd with rfl | hd
    · exact mem_frameScopes_self roots d outer
    have hcd : c ≠ d := Ne.symm (Nat.ne_of_lt (hlt d hd))
    rw [List.dropWhile_cons_of_pos (by simpa using hcd)] at hroot
    rw [frameScopes]
    split
    · -- a root further in would be the nearest one of all scopes, and not of those around `d`
      next hc =>
      exfalso
      rw [nearestRoot, List.find?_cons_of_pos hc, Option.getD_some, nearestRoot] at hroot
      cases hfind : (outer.dropWhile (· ≠ d)).find? (isRoot roots) with
      | none =>
        rw [hfind, Option.getD_none] at hroot
        exact Nat.not_lt_zero d (show d < globalId from hroot ▸ hlt d hd)
      | some r =>
        rw [hfind, Option.getD_some] at hroot
        have hr := (List.dropWhile_suffix _).subset (List.mem_of_find?_eq_some hfind)
        exact Nat.lt_irrefl r (hroot ▸ hlt r hr)
    · next hc =>
      refine List.mem_cons_of_mem c (ih hsorted hd ?_)
      rwa [nearestRoot, List.find?_cons_of_neg hc] at hroot

/-- Going outward to a scope by way of one further in makes no difference. -/
theorem dropWhile_ne_dropWhile {scopes : List ScopeId} {c d : ScopeId}
    (hsorted : scopes.Pairwise (· > ·)) (hc : c ∈ scopes) (hdc : d ≤ c) :
    (scopes.dropWhile (· ≠ c)).dropWhile (· ≠ d) = scopes.dropWhile (· ≠ d) := by
  induction scopes with
  | nil => rfl
  | cons x xs ih =>
    obtain ⟨hlt, hsorted⟩ := List.pairwise_cons.1 hsorted
    -- the list goes down, so the scope further in comes first
    by_cases hx : x = c
    · rw [List.dropWhile_cons_of_neg (by simpa using hx)]
    · have hc : c ∈ xs := (List.mem_cons.1 hc).resolve_left (Ne.symm hx)
      have hxd : x ≠ d := Ne.symm (Nat.ne_of_lt (Nat.lt_of_le_of_lt hdc (hlt c hc)))
      rw [List.dropWhile_cons_of_pos (by simpa using hx), ih hsorted hc,
        List.dropWhile_cons_of_pos (by simpa using hxd)]

/-- Of two open scopes of one frame, the outer one is among the scopes of the frame that the inner
one belongs to. -/
theorem WellFormed.mem_frameScopes {t : Table} (hw : t.WellFormed) {roots : List ScopeId}
    {c d : ScopeId} (hc : c ∈ t.open_) (hd : d ∈ t.open_) (hdc : d ≤ c)
    (hframe : t.frameOf roots c = t.frameOf roots d) :
    ∃ outer, c :: outer <:+ t.open_ ∧ d ∈ frameScopes roots (c :: outer) := by
  obtain ⟨pre, outer, hopen⟩ := List.append_of_mem hc
  have hsorted := hw.sorted
  rw [hopen, List.pairwise_append] at hsorted
  have hpre : ∀ x ∈ pre, (decide (x ≠ c)) = true := fun x hx => by
    simpa using Ne.symm (Nat.ne_of_lt (hsorted.2.2 x hx c List.mem_cons_self))
  have hdrop : t.open_.dropWhile (· ≠ c) = c :: outer := by
    rw [hopen, List.dropWhile_append_of_pos hpre, List.dropWhile_cons_of_neg (by simp)]
  refine ⟨outer, hopen ▸ List.suffix_append pre (c :: outer), ?_⟩
  refine Table.mem_frameScopes hsorted.2.1 ?_ ?_
  · rw [hopen] at hd
    refine (List.mem_append.1 hd).resolve_left fun hd => ?_
    exact Nat.not_lt_of_le hdc (hsorted.2.2 d hd c List.mem_cons_self)
  · rw [← hdrop, dropWhile_ne_dropWhile hw.sorted hc hdc]
    exact hframe

/-! ### Scopes that are laid out -/

/-- In scope `c`, whose frame has the given scopes, the counters lie behind the places that are
taken, and the symbols are apart from those of the frame. -/
structure LaidOut (t : Table) (roots : List ScopeId) (c : ScopeId) (frame : List ScopeId) :
    Prop where
  locals : IsPlace (t.scope c).locals
  params : IsPlace (t.scope c).params
  place : ∀ a ∈ (t.scope c).symbols, (t.symbol a).kind.hasPlace →
    ∃ n, IsPlace n ∧ (t.symbol a).offset = -(n : Int)
  /-- The next place of a kind lies behind all places of that kind. -/
  free : ∀ d ∈ frame, ∀ a ∈ (t.scope d).symbols, (t.symbol a).kind.hasPlace →
    nextOffset (t.scope c) (t.symbol a).kind < (t.symbol a).offset
  /-- The next place of a local variable lies behind the parameters that the frame was opened
  with. -/
  behind : ∀ d ∈ frame, isRoot roots d → ∀ p ∈ (t.scope d).symbols, (t.symbol p).kind = .param →
    nextOffset (t.scope c) .local_ < (t.symbol p).offset
  apart : ∀ a ∈ (t.scope c).symbols, (t.symbol a).kind.hasPlace →
    ∀ d ∈ frame, ∀ b ∈ (t.scope d).symbols, (t.symbol b).kind = (t.symbol a).kind →
      (t.symbol b).offset = (t.symbol a).offset → b = a
  first : ∀ a ∈ (t.scope c).symbols, (t.symbol a).kind = .local_ →
    ∀ d ∈ frame, isRoot roots d → ∀ p ∈ (t.scope d).symbols, (t.symbol p).kind = .param →
      (t.symbol a).offset < (t.symbol p).offset

/-- No symbol takes a place in scope `d` of the second table that it does not take in the first. -/
def KeepsPlaces (d : ScopeId) (t t' : Table) : Prop :=
  ∀ a ∈ (t'.scope d).symbols, (t'.symbol a).kind.hasPlace →
    a ∈ (t.scope d).symbols ∧ (t'.symbol a).kind = (t.symbol a).kind ∧
      (t'.symbol a).offset = (t.symbol a).offset

/-- The counters and the places in scope `d` are those of the first table. -/
structure SamePlaces (d : ScopeId) (t t' : Table) : Prop where
  locals : (t'.scope d).locals = (t.scope d).locals
  params : (t'.scope d).params = (t.scope d).params
  symbols : KeepsPlaces d t t'

/-- Larger counters give places that lie further behind, which are smaller numbers. -/
theorem nextOffset_le {s s' : Scope} (hl : s.locals ≤ s'.locals) (hp : s.params ≤ s'.params)
    (kind : SymbolKind) : nextOffset s' kind ≤ nextOffset s kind := by
  cases kind with
  | param => exact Int.neg_le_neg (Int.ofNat_le.2 hp)
  | local_ => exact Int.neg_le_neg (Int.ofNat_le.2 hl)
  | global => exact Int.le_refl 0
  | namespace_ => exact Int.le_refl 0
  | typeAlias => exact Int.le_refl 0

/-- A scope stays laid out while its counters grow and no places are taken. -/
theorem LaidOut.mono {t t' : Table} {roots roots' : List ScopeId} {c : ScopeId}
    {frame : List ScopeId} (h : t.LaidOut roots c frame) (hc : c ∈ frame)
    (hroots : ∀ d ∈ frame, isRoot roots' d = isRoot roots d)
    (hlocals : IsPlace (t'.scope c).locals) (hparams : IsPlace (t'.scope c).params)
    (hl : (t.scope c).locals ≤ (t'.scope c).locals)
    (hp : (t.scope c).params ≤ (t'.scope c).params)
    (hkeeps : ∀ d ∈ frame, KeepsPlaces d t t') : t'.LaidOut roots' c frame where
  locals := hlocals
  params := hparams
  place a ha hkind := by
    obtain ⟨hmem, hk, ho⟩ := hkeeps c hc a ha hkind
    rw [ho]
    exact h.place a hmem (hk ▸ hkind)
  free d hd a ha hkind := by
    obtain ⟨hmem, hk, ho⟩ := hkeeps d hd a ha hkind
    rw [hk, ho]
    exact Int.lt_of_le_of_lt (nextOffset_le hl hp _) (h.free d hd a hmem (hk ▸ hkind))
  behind d hd hroot p hpmem hkind := by
    obtain ⟨hmem, hk, ho⟩ := hkeeps d hd p hpmem (by rw [hkind]; rfl)
    rw [ho]
    exact Int.lt_of_le_of_lt (nextOffset_le hl hp _)
      (h.behind d hd (hroots d hd ▸ hroot) p hmem (hk ▸ hkind))
  -- both symbols were there before, at the same places
  apart a ha hkind d hd b hb hsame heq := by
    obtain ⟨hamem, hak, hao⟩ := hkeeps c hc a ha hkind
    obtain ⟨hbmem, hbk, hbo⟩ := hkeeps d hd b hb (hsame ▸ hkind)
    rw [hak, hbk] at hsame
    rw [hao, hbo] at heq
    exact h.apart a hamem (hak ▸ hkind) d hd b hbmem hsame heq
  first a ha hkind d hd hroot p hpmem hpkind := by
    obtain ⟨hamem, hak, hao⟩ := hkeeps c hc a ha (by rw [hkind]; rfl)
    obtain ⟨hbmem, hbk, hbo⟩ := hkeeps d hd p hpmem (by rw [hpkind]; rfl)
    rw [hao, hbo]
    exact h.first a hamem (hak ▸ hkind) d hd (hroots d hd ▸ hroot) p hbmem (hbk ▸ hpkind)

/-- A scope stays laid out when nothing changes in the scopes of its frame. -/
theorem LaidOut.congr {t t' : Table} {roots roots' : List ScopeId} {c : ScopeId}
    {frame : List ScopeId} (h : t.LaidOut roots c frame) (hc : c ∈ frame)
    (hroots : ∀ d ∈ frame, isRoot roots' d = isRoot roots d)
    (hsame : ∀ d ∈ frame, SamePlaces d t t') : t'.LaidOut roots' c frame := by
  have hl := (hsame c hc).locals
  have hp := (hsame c hc).params
  exact h.mono hc hroots (hl ▸ h.locals) (hp ▸ h.params) (Nat.le_of_eq hl.symm)
    (Nat.le_of_eq hp.symm) fun d hd => (hsame d hd).symbols

/-! ### Steps that take no place -/

namespace SamePlaces

variable {t t₁ t₂ : Table} {d : ScopeId}

/-- Regions have nothing to do with places. -/
theorem of_scopes_eq (hc : t₁.scopes = t.scopes) (hs : t₁.symbols = t.symbols) :
    SamePlaces d t t₁ := by
  have hscope : t₁.scope d = t.scope d := by rw [scope, hc, scope]
  refine ⟨by rw [hscope], by rw [hscope], fun a ha _ => ?_⟩
  rw [hscope] at ha
  rw [symbol, hs]
  exact ⟨ha, rfl, rfl⟩

theorem trans (h : SamePlaces d t t₁) (h' : SamePlaces d t₁ t₂) : SamePlaces d t t₂ := by
  refine ⟨h'.locals.trans h.locals, h'.params.trans h.params, fun a ha hkind => ?_⟩
  obtain ⟨hmem₁, hk₁, ho₁⟩ := h'.symbols a ha hkind
  obtain ⟨hmem, hk, ho⟩ := h.symbols a hmem₁ (hk₁ ▸ hkind)
  exact ⟨hmem, hk₁.trans hk, ho₁.trans ho⟩

/-- Threads have nothing to do with places. -/
theorem of_sameButThreads (h : t.SameButThreads t₁) (d : ScopeId) : SamePlaces d t t₁ := by
  have hscope := h.scope_eq d
  refine ⟨by rw [hscope], by rw [hscope], fun a ha _ => ?_⟩
  rw [hscope] at ha
  exact ⟨ha, h.field Symbol.kind (fun _ => rfl) a, h.field Symbol.offset (fun _ => rfl) a⟩

theorem modifySymbol {id : SymbolId} {f : Symbol → Symbol}
    (hk : (f (t.symbol id)).kind = (t.symbol id).kind)
    (ho : (f (t.symbol id)).offset = (t.symbol id).offset) (d : ScopeId) :
    SamePlaces d t (t.modifySymbol id f) :=
  ⟨rfl, rfl, fun a ha _ =>
    ⟨ha, view_modifySymbol Symbol.kind hk a, view_modifySymbol Symbol.offset ho a⟩⟩

theorem setQualifier (t : Table) (id : SymbolId) (q : Qualifier) (d : ScopeId) :
    SamePlaces d t (t.setQualifier id q) :=
  modifySymbol rfl rfl d

theorem setFunction (t : Table) (id : SymbolId) (modifier declared : Modifier) (d : ScopeId) :
    SamePlaces d t (t.setFunction id modifier declared) :=
  modifySymbol rfl rfl d

/-- A new symbol is not yet linked. -/
theorem pushSymbol (hw : t.WellFormed) (s : Symbol) (d : ScopeId) :
    SamePlaces d t (t.pushSymbol s) := by
  refine ⟨rfl, rfl, fun a ha _ => ?_⟩
  rw [symbol_pushSymbol_of_ne s (Nat.ne_of_lt (hw.linked d a ha).1)]
  exact ⟨ha, rfl, rfl⟩

theorem modifyScope_of_ne {c : ScopeId} {g : Scope → Scope} (h : d ≠ c) :
    SamePlaces d t (t.modifyScope c g) := by
  have hscope : (t.modifyScope c g).scope d = t.scope d := scope_modifyScope_of_ne h
  refine ⟨by rw [hscope], by rw [hscope], fun a ha _ => ?_⟩
  rw [hscope] at ha
  exact ⟨ha, rfl, rfl⟩

/-- A new scope has a number of its own. -/
theorem openScope {s : Scope} (hd : d < t.scopes.size) : SamePlaces d t (t.openScope s) := by
  have hscope : (t.openScope s).scope d = t.scope d := scope_openScope_of_ne s (Nat.ne_of_lt hd)
  refine ⟨by rw [hscope], by rw [hscope], fun a ha _ => ?_⟩
  rw [hscope] at ha
  exact ⟨ha, rfl, rfl⟩

theorem add (hw : t.WellFormed) (hd : d ≠ t.current) (name : String) (type : Ty)
    (kind : SymbolKind) : SamePlaces d t (t.add name type kind).1 := by
  unfold Table.add
  split
  · exact modifySymbol rfl rfl d
  · exact (pushSymbol hw _ d).trans (modifyScope_of_ne hd)

theorem addQualified (hw : t.WellFormed) (hd : d ≠ t.current) (name : String) (type : Ty)
    (kind : SymbolKind) (q : Qualifier) : SamePlaces d t (t.addQualified name type kind q).1 :=
  (add hw hd name type kind).trans (setQualifier _ _ q d)

/-- Parameters take places in the current scope only. -/
theorem addParams (hw : t.WellFormed) (hd : d ≠ t.current)
    (params : List (String × Ty × Qualifier)) : SamePlaces d t (t.addParams params) := by
  induction params generalizing t with
  | nil => exact of_scopes_eq rfl rfl
  | cons p others ih =>
    refine (addQualified hw hd p.1 p.2.1 .param p.2.2).trans (ih (hw.addQualified _ _ _ _) ?_)
    rwa [current, inner_addQualified]

/-- A namespace is put into the global scope and takes no place. -/
theorem addNamespace (hw : t.WellFormed) {name : String} {id : SymbolId}
    (h : t.addNamespace name = some (t₁, id)) (d : ScopeId) : SamePlaces d t t₁ := by
  obtain ⟨-, -, rfl⟩ := addNamespace_eq_some h
  by_cases hd : d = globalId
  · subst hd
    have hlt : globalId < (t.pushSymbol (.fresh name .nil .namespace_ globalId)).scopes.size :=
      hw.global_lt
    refine ⟨?_, ?_, fun a ha hkind => ?_⟩
    · rw [scope_modifyScope_self hlt]
      rfl
    · rw [scope_modifyScope_self hlt]
      rfl
    · rw [scope_modifyScope_self hlt] at ha
      -- the new symbol is of a kind without a place
      rcases List.mem_append.1 ha with ha | ha
      · exact (pushSymbol hw (.fresh name .nil .namespace_ globalId) globalId).symbols a ha hkind
      · rw [List.mem_singleton.1 ha, symbol_modifyScope, symbol_pushSymbol_self] at hkind
        cases hkind
  · exact (pushSymbol hw _ d).trans (modifyScope_of_ne hd)

/-- A member is in no scope, so it takes no place in any. -/
theorem addFunctionToNamespace (hw : t.WellFormed) {space name : String} {type : Ty}
    {modifier declared : Modifier} {id : SymbolId}
    (h : t.addFunctionToNamespace space name type modifier declared = some (t₁, id))
    (d : ScopeId) : SamePlaces d t t₁ := by
  obtain ⟨⟨t₂, a⟩, hadd, hb⟩ := Option.map_eq_some_iff.1 h
  cases hb
  obtain ⟨b, -, hb⟩ := Option.map_eq_some_iff.1 hadd
  split at hb
  · cases hb
    exact (modifySymbol rfl rfl d).trans (modifySymbol rfl rfl d)
  · cases hb
    exact ((pushSymbol hw _ d).trans (modifySymbol rfl rfl d)).trans (modifySymbol rfl rfl d)

end SamePlaces

/-! ### Declaring a symbol -/

section

variable (t : Table) (name : String) (type : Ty) (kind : SymbolKind)

/-- A symbol of a scope after a declaration is the new one or was there before. -/
theorem mem_symbols_addNew (hw : t.WellFormed) {d : ScopeId} {a : SymbolId}
    (ha : a ∈ ((t.addNew name type kind).scope d).symbols) :
    (d = t.current ∧ a = t.symbols.size ∧ ((t.addNew name type kind).symbol a).kind = kind ∧
      ((t.addNew name type kind).symbol a).offset = nextOffset (t.scope t.current) kind) ∨
    (a ∈ (t.scope d).symbols ∧ (t.addNew name type kind).symbol a = t.symbol a) := by
  have hold : a ∈ (t.scope d).symbols → (t.addNew name type kind).symbol a = t.symbol a :=
    fun ha => symbol_addNew_of_lt t name type kind (hw.linked d a ha).1
  by_cases hd : d = t.current
  · subst hd
    rw [scope_addNew_self t name type kind hw] at ha
    rcases List.mem_append.1 ha with ha | ha
    · exact .inr ⟨ha, hold ha⟩
    · obtain rfl := List.mem_singleton.1 ha
      rw [symbol_addNew_self]
      exact .inl ⟨rfl, rfl, rfl, rfl⟩
  · rw [scope_addNew_of_ne t name type kind hd] at ha
    exact .inr ⟨ha, hold ha⟩

end

/-- A declaration moves at most one of the two counters, and forward. -/
theorem le_reserve (type : Ty) (kind : SymbolKind) (s : Scope) :
    s.locals ≤ (reserve type kind s).locals ∧ s.params ≤ (reserve type kind s).params := by
  cases kind with
  | param => exact ⟨Nat.le_refl _, Nat.le_add_right _ _⟩
  | local_ => exact ⟨Nat.le_add_right _ _, Nat.le_refl _⟩
  | global => exact ⟨Nat.le_refl _, Nat.le_refl _⟩
  | namespace_ => exact ⟨Nat.le_refl _, Nat.le_refl _⟩
  | typeAlias => exact ⟨Nat.le_refl _, Nat.le_refl _⟩

/-- The counters stay places. -/
theorem isPlace_reserve {s : Scope} (type : Ty) (kind : SymbolKind) (hl : IsPlace s.locals)
    (hp : IsPlace s.params) :
    IsPlace (reserve type kind s).locals ∧ IsPlace (reserve type kind s).params := by
  cases kind with
  | param => exact ⟨hl, hp.add type⟩
  | local_ => exact ⟨hl.add type, hp⟩
  | global => exact ⟨hl, hp⟩
  | namespace_ => exact ⟨hl, hp⟩
  | typeAlias => exact ⟨hl, hp⟩

/-- A place that has been given away lies in front of the next one. -/
theorem nextOffset_reserve_lt (type : Ty) {kind : SymbolKind} (h : kind.hasPlace) (s : Scope) :
    nextOffset (reserve type kind s) kind < nextOffset s kind := by
  have hsize : 0 < frameSize type := by
    rw [frameSize_eq]
    decide
  cases kind with
  | param => exact Int.neg_lt_neg (Int.ofNat_lt.2 (Nat.lt_add_of_pos_right hsize))
  | local_ => exact Int.neg_lt_neg (Int.ofNat_lt.2 (Nat.lt_add_of_pos_right hsize))
  | global => cases h
  | namespace_ => cases h
  | typeAlias => cases h

/-- The next offset of a kind that takes places is that of a place. -/
theorem isPlace_nextOffset {s : Scope} {kind : SymbolKind} (h : kind.hasPlace)
    (hl : IsPlace s.locals) (hp : IsPlace s.params) :
    ∃ n, IsPlace n ∧ nextOffset s kind = -(n : Int) := by
  cases kind with
  | param => exact ⟨s.params, hp, rfl⟩
  | local_ => exact ⟨s.locals, hl, rfl⟩
  | global => cases h
  | namespace_ => cases h
  | typeAlias => cases h

/-- The current scope stays laid out when a symbol is declared in it.  A parameter must not come
after the frame has been opened. -/
theorem LaidOut.addNew {t : Table} (hw : t.WellFormed) {roots frame : List ScopeId}
    (h : t.LaidOut roots t.current frame) (hc : t.current ∈ frame) (name : String) (type : Ty)
    {kind : SymbolKind} (hk : kind = .param → isRoot roots t.current = false) :
    (t.addNew name type kind).LaidOut roots t.current frame := by
  have hself := scope_addNew_self t name type kind hw
  have hmem := @mem_symbols_addNew t name type kind hw
  have hnext : ∀ k, nextOffset ((t.addNew name type kind).scope t.current) k =
      nextOffset (reserve type kind (t.scope t.current)) k := fun k => by
    rw [hself]
    cases k <;> rfl
  obtain ⟨hl, hp⟩ := le_reserve type kind (t.scope t.current)
  obtain ⟨hlocals, hparams⟩ := isPlace_reserve type kind h.locals h.params
  -- a parameter of a scope with a frame of its own is not the new symbol
  have hparam : ∀ d, isRoot roots d → ∀ p ∈ ((t.addNew name type kind).scope d).symbols,
      ((t.addNew name type kind).symbol p).kind = .param →
        p ∈ (t.scope d).symbols ∧ (t.addNew name type kind).symbol p = t.symbol p := by
    intro d hroot p hpmem hpkind
    rcases hmem hpmem with ⟨rfl, -, hpk, -⟩ | hold
    · rw [hk (hpk.symm.trans hpkind)] at hroot
      cases hroot
    · exact hold
  refine ⟨?_, ?_, fun a ha hkind => ?_, fun d hd a ha hkind => ?_,
    fun d hd hroot p hpmem hpkind => ?_, fun a ha hkind d hd b hb hsame heq => ?_,
    fun a ha hkind d hd hroot p hpmem hpkind => ?_⟩
  · rw [hself]
    exact hlocals
  · rw [hself]
    exact hparams
  · rcases hmem ha with ⟨-, -, hak, hao⟩ | ⟨ha, hsym⟩
    · rw [hao]
      exact isPlace_nextOffset (hak ▸ hkind) h.locals h.params
    · rw [hsym] at hkind ⊢
      exact h.place a ha hkind
  · rw [hnext]
    rcases hmem ha with ⟨-, -, hak, hao⟩ | ⟨ha, hsym⟩
    · rw [hao, hak]
      exact nextOffset_reserve_lt type (hak ▸ hkind) _
    · rw [hsym] at hkind ⊢
      exact Int.lt_of_le_of_lt (nextOffset_le hl hp _) (h.free d hd a ha hkind)
  · rw [hnext]
    obtain ⟨hpmem, hsym⟩ := hparam d hroot p hpmem hpkind
    rw [hsym] at hpkind ⊢
    exact Int.lt_of_le_of_lt (nextOffset_le hl hp _) (h.behind d hd hroot p hpmem hpkind)
  · rcases hmem ha with ⟨-, rfl, hak, hao⟩ | ⟨ha, hasym⟩
    · rcases hmem hb with ⟨-, rfl, -, -⟩ | ⟨hb, hbsym⟩
      · rfl
      · -- the place of an older symbol is not the next one
        rw [hbsym, hak] at hsame
        rw [hbsym, hao] at heq
        have hfree := h.free d hd b hb (by rw [hsame, ← hak]; exact hkind)
        rw [hsame, heq] at hfree
        exact absurd hfree (Int.lt_irrefl _)
    · rw [hasym] at hkind hsame heq
      rcases hmem hb with ⟨-, -, hbk, hbo⟩ | ⟨hb, hbsym⟩
      · rw [hbk] at hsame
        rw [hbo] at heq
        -- the same the other way round
        have hfree := h.free t.current hc a ha hkind
        rw [← hsame, heq] at hfree
        exact absurd hfree (Int.lt_irrefl _)
      · rw [hbsym] at hsame heq
        exact h.apart a ha hkind d hd b hb hsame heq
  · obtain ⟨hpmem, hpsym⟩ := hparam d hroot p hpmem hpkind
    rw [hpsym] at hpkind ⊢
    rcases hmem ha with ⟨-, -, hak, hao⟩ | ⟨ha, hasym⟩
    -- the next place of a local variable lies behind the parameters of the frame
    · rw [hao, ← hak, hkind]
      exact h.behind d hd hroot p hpmem hpkind
    · rw [hasym] at hkind ⊢
      exact h.first a ha hkind d hd hroot p hpmem hpkind

/-- The same for any declaration: a name that has been there keeps its place. -/
theorem LaidOut.add {t : Table} (hw : t.WellFormed) {roots frame : List ScopeId}
    (h : t.LaidOut roots t.current frame) (hc : t.current ∈ frame) (name : String) (type : Ty)
    {kind : SymbolKind} (hk : kind = .param → isRoot roots t.current = false) :
    (t.add name type kind).1.LaidOut roots t.current frame := by
  unfold Table.add
  split
  · exact h.congr hc (fun _ _ => rfl) fun d _ => .modifySymbol rfl rfl d
  · exact h.addNew hw hc name type hk

end Table

end ThreadRegions
