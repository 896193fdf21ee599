import ThreadRegions.Proofs.Accept
import ThreadRegions.Proofs.Layout

/-!
# The places of scopes that have been left

A block that has been left keeps its places: the scope around it goes on behind them.  So within one
frame no two parameters and no two local variables ever share a place, whether their scopes are open
at the same time or not.  The variables of two blocks that stand one behind the other do not share
one either.

## Main Definitions

* `Table.FrameOf`: the scope whose frame a scope belongs to, by the links between the scopes
* `Table.Placed`: all places that have been given away are apart, and the counters of the current
  scope lie behind those of its frame
* `Table.Extends`: what a step adds to a table

## Main Results

* `Table.placed_stableIn`: every step keeps the places apart, if frames are entered only in the
  given scopes
* `checkModule_places`: the places of all symbols of a module

## Design Notes

`Table.Layout` says more about the scopes that are open, and nothing about those that have been
left.  Here it is the other way round.  A step looks only at the counters of the current scope, so
these are all that has to be known to lie behind the places of the frame; when a scope is left, the
counters of the scope around are the larger ones of the two.
-/

namespace ThreadRegions

/-- What is settled about the place of a symbol when it is declared. -/
def Symbol.home (s : Symbol) : SymbolKind × Int × ScopeId := (s.kind, s.offset, s.scope)

/-- The link of a scope and its counters. -/
def Scope.layout (s : Scope) : Option ScopeId × Nat × Nat := (s.parent, s.locals, s.params)

/-- The three parts of a home, which are needed one by one. -/
theorem Symbol.home_eq_iff {s s' : Symbol} :
    s'.home = s.home ↔ s'.kind = s.kind ∧ s'.offset = s.offset ∧ s'.scope = s.scope := by
  simp [home]

/-- The three parts of a layout, which are needed one by one. -/
theorem Scope.layout_eq_iff {s s' : Scope} :
    s'.layout = s.layout ↔ s'.parent = s.parent ∧ s'.locals = s.locals ∧ s'.params = s.params := by
  simp [layout]

namespace Table

/-! ### Frames -/

/-- The global scope and those that satisfy `F` have a frame of their own.  The scope `r` is the
nearest of them around `c`, which may be `c` itself. -/
inductive FrameOf (t : Table) (F : ScopeId → Prop) : ScopeId → ScopeId → Prop
  | own {c : ScopeId} (h : c = globalId ∨ F c) : FrameOf t F c c
  | around {c p r : ScopeId} (h : ¬ (c = globalId ∨ F c)) (hp : (t.scope c).parent = some p) :
      FrameOf t F p r → FrameOf t F c r

/-- The scopes belong to one frame. -/
def SharesFrame (t : Table) (F : ScopeId → Prop) (c d : ScopeId) : Prop :=
  ∃ r, t.FrameOf F c r ∧ t.FrameOf F d r

/-- Every scope but the global one stands in a scope that has been opened before it. -/
def Nested (t : Table) : Prop :=
  ∀ c < t.scopes.size, c ≠ globalId → ∃ p, (t.scope c).parent = some p ∧ p < c

variable {t t' t₁ t₂ : Table} {F : ScopeId → Prop} {c d r : ScopeId}

/-- To share a frame is mutual. -/
theorem SharesFrame.symm (h : t.SharesFrame F c d) : t.SharesFrame F d c := by
  obtain ⟨r, hc, hd⟩ := h
  exact ⟨r, hd, hc⟩

/-- The scope around has a smaller number.  Numbers that stand for no scope have no link at all. -/
theorem Nested.parent_lt (h : t.Nested) (hc : c ≠ globalId) {p : ScopeId}
    (hp : (t.scope c).parent = some p) : p < c := by
  by_cases hlt : c < t.scopes.size
  · obtain ⟨p', hp', hlt'⟩ := h c hlt hc
    rw [hp] at hp'
    exact Option.some.inj hp' ▸ hlt'
  · rw [scope_of_size_le (Nat.le_of_not_lt hlt)] at hp
    cases hp

/-- Only the number of scopes and their links matter. -/
theorem Nested.congr (h : t.Nested) (hsize : t'.scopes.size = t.scopes.size)
    (hp : ∀ c, (t'.scope c).parent = (t.scope c).parent) : t'.Nested := by
  intro c hc hne
  rw [hp]
  exact h c (hsize ▸ hc) hne

/-- The scope of a frame is not younger than the scopes inside of it. -/
theorem FrameOf.le (hn : t.Nested) (h : t.FrameOf F c r) : r ≤ c := by
  induction h with
  | own => exact Nat.le_refl _
  | around hroot hp _ ih =>
    exact Nat.le_trans ih (Nat.le_of_lt (hn.parent_lt (fun hc => hroot (.inl hc)) hp))

/-- A scope belongs to one frame at most. -/
theorem FrameOf.unique {r' : ScopeId} (h : t.FrameOf F c r) (h' : t.FrameOf F c r') : r = r' := by
  induction h with
  | own hroot =>
    -- both walk the same links and stop at the same scope
    cases h' with
    | own => rfl
    | around hnot => exact absurd hroot hnot
  | around hnot hp _ ih =>
    cases h' with
    | own hroot => exact absurd hroot hnot
    | around _ hp' hr' =>
      rw [hp] at hp'
      exact ih (Option.some.inj hp' ▸ hr')

/-- Every scope belongs to a frame. -/
theorem Nested.exists_frameOf (hn : t.Nested) (F : ScopeId → Prop) (hc : c < t.scopes.size) :
    ∃ r, t.FrameOf F c r := by
  -- the scope around has a smaller number
  induction c using Nat.strongRecOn with
  | ind c ih =>
    by_cases hroot : c = globalId ∨ F c
    · exact ⟨c, .own hroot⟩
    · obtain ⟨p, hp, hlt⟩ := hn c hc fun h => hroot (.inl h)
      obtain ⟨r, hr⟩ := ih p hlt (Nat.lt_trans hlt hc)
      exact ⟨r, .around hroot hp hr⟩

/-- The frame of a scope depends on the links of the scopes up to it. -/
theorem FrameOf.congr (hn : t.Nested) (h : t.FrameOf F c r) {n : Nat} (hc : c < n)
    (hp : ∀ d < n, (t'.scope d).parent = (t.scope d).parent) : t'.FrameOf F c r := by
  induction h with
  | own hroot => exact .own hroot
  | around hroot hparent _ ih =>
    refine .around hroot ((hp _ hc).trans hparent) (ih (Nat.lt_trans ?_ hc))
    exact hn.parent_lt (fun hc => hroot (.inl hc)) hparent

/-- Whether scopes share a frame depends on the links of the scopes up to them. -/
theorem SharesFrame.congr (hn : t.Nested) (h : t.SharesFrame F c d) {n : Nat} (hc : c < n)
    (hd : d < n) (hp : ∀ d < n, (t'.scope d).parent = (t.scope d).parent) :
    t'.SharesFrame F c d := by
  obtain ⟨r, hcr, hdr⟩ := h
  exact ⟨r, hcr.congr hn hc hp, hdr.congr hn hd hp⟩

/-! ### What a step adds -/

/-- The second table has more scopes, which stand in the current one, and more symbols with places,
which are declared in the current scope and in new ones. -/
structure Extends (t t' : Table) : Prop where
  inner : t'.inner = t.inner
  size_le : t.scopes.size ≤ t'.scopes.size
  parent : ∀ d < t.scopes.size, (t'.scope d).parent = (t.scope d).parent
  newParent : ∀ d, t.scopes.size ≤ d → d < t'.scopes.size →
    ∃ p, (t'.scope d).parent = some p ∧ p < d ∧ (p = t.current ∨ t.scopes.size ≤ p)
  counters : ∀ d < t.scopes.size, (t.scope d).locals ≤ (t'.scope d).locals ∧
    (t.scope d).params ≤ (t'.scope d).params
  symbols : ∀ a, (t'.symbol a).kind.hasPlace → (t'.symbol a).home = (t.symbol a).home ∨
    (t'.symbol a).scope = t.current ∨ t.scopes.size ≤ (t'.symbol a).scope

/-- A step ends in the scope where it began. -/
theorem Extends.current_eq (h : t.Extends t') : t'.current = t.current := by
  rw [current, current, h.inner]

theorem Extends.trans (h : t.Extends t₁) (h' : t₁.Extends t₂) : t.Extends t₂ where
  inner := h'.inner.trans h.inner
  size_le := Nat.le_trans h.size_le h'.size_le
  parent d hd := (h'.parent d (Nat.lt_of_lt_of_le hd h.size_le)).trans (h.parent d hd)
  newParent d hd hlt := by
    -- the scope has been opened in the first step or in the second
    by_cases hd₁ : d < t₁.scopes.size
    · obtain ⟨p, hp, hpd, hpc⟩ := h.newParent d hd hd₁
      exact ⟨p, (h'.parent d hd₁).trans hp, hpd, hpc⟩
    · obtain ⟨p, hp, hpd, hpc⟩ := h'.newParent d (Nat.le_of_not_lt hd₁) hlt
      rw [h.current_eq] at hpc
      exact ⟨p, hp, hpd, hpc.imp_right (Nat.le_trans h.size_le)⟩
  counters d hd := by
    obtain ⟨hl, hp⟩ := h.counters d hd
    obtain ⟨hl', hp'⟩ := h'.counters d (Nat.lt_of_lt_of_le hd h.size_le)
    exact ⟨Nat.le_trans hl hl', Nat.le_trans hp hp'⟩
  symbols a ha := by
    rcases h'.symbols a ha with hsame | hnew
    · obtain ⟨hk, -, hscope⟩ := Symbol.home_eq_iff.1 hsame
      rw [hsame, hscope]
      exact h.symbols a (hk ▸ ha)
    · rw [h.current_eq] at hnew
      exact .inr (hnew.imp_right (Nat.le_trans h.size_le))

/-- No place is taken, and the scopes and their counters stay as they are. -/
structure Unplaced (t t' : Table) : Prop where
  inner : t'.inner = t.inner
  size : t'.scopes.size = t.scopes.size
  layout : ∀ c, (t'.scope c).layout = (t.scope c).layout
  symbols : ∀ a, (t'.symbol a).home = (t.symbol a).home ∨
    ¬ (t'.symbol a).kind.hasPlace ∧ (t'.symbol a).offset = 0 ∧ (t'.symbol a).scope = globalId

namespace Unplaced

theorem trans (h : t.Unplaced t₁) (h' : t₁.Unplaced t₂) : t.Unplaced t₂ where
  inner := h'.inner.trans h.inner
  size := h'.size.trans h.size
  layout c := (h'.layout c).trans (h.layout c)
  symbols a := by
    rcases h'.symbols a with hsame | hnew
    · obtain ⟨hk, ho, hs⟩ := Symbol.home_eq_iff.1 hsame
      rw [hsame, hk, ho, hs]
      exact h.symbols a
    · exact .inr hnew

theorem parent (h : t.Unplaced t') (c : ScopeId) : (t'.scope c).parent = (t.scope c).parent :=
  (Scope.layout_eq_iff.1 (h.layout c)).1

/-- A step that takes no place adds no scope and no symbol with a place. -/
theorem toExtends (h : t.Unplaced t') : t.Extends t' where
  inner := h.inner
  size_le := Nat.le_of_eq h.size.symm
  parent d _ := h.parent d
  newParent d hd hlt := absurd (h.size ▸ hlt) (Nat.not_lt_of_le hd)
  counters d _ := by
    obtain ⟨-, hl, hp⟩ := Scope.layout_eq_iff.1 (h.layout d)
    exact ⟨Nat.le_of_eq hl.symm, Nat.le_of_eq hp.symm⟩
  symbols a ha := (h.symbols a).imp_right fun hnew => absurd ha hnew.1

/-- What is known about threads is not part of the home of a symbol. -/
theorem of_sameButThreads (h : t.SameButThreads t') : t.Unplaced t' where
  inner := h.inner
  size := congrArg Array.size h.scopes
  layout c := by rw [h.scope_eq c]
  symbols a := .inl (h.field Symbol.home (fun _ => rfl) a)

/-- Regions are entered and left without a look at the symbols and the scopes. -/
theorem of_eq (hi : t'.inner = t.inner) (hc : t'.scopes = t.scopes) (hs : t'.symbols = t.symbols) :
    t.Unplaced t' where
  inner := hi
  size := congrArg Array.size hc
  layout c := by rw [scope, hc, scope]
  symbols a := .inl (by rw [symbol, hs, symbol])

/-- Any change to a symbol that leaves its kind, its place and its scope alone. -/
theorem modifySymbol {id : SymbolId} {f : Symbol → Symbol}
    (hf : (f (t.symbol id)).home = (t.symbol id).home) : t.Unplaced (t.modifySymbol id f) where
  inner := rfl
  size := rfl
  layout _ := rfl
  symbols a := .inl (view_modifySymbol Symbol.home hf a)

theorem setQualifier (t : Table) (id : SymbolId) (q : Qualifier) :
    t.Unplaced (t.setQualifier id q) :=
  modifySymbol rfl

theorem setFunction (t : Table) (id : SymbolId) (modifier declared : Modifier) :
    t.Unplaced (t.setFunction id modifier declared) :=
  modifySymbol rfl

theorem modifyScope {id : ScopeId} {g : Scope → Scope}
    (hg : (g (t.scope id)).layout = (t.scope id).layout) : t.Unplaced (t.modifyScope id g) where
  inner := rfl
  size := size_modifyScope ..
  layout c := view_modifyScope Scope.layout hg c
  symbols _ := .inl rfl

/-- Namespaces and their members have no place. -/
theorem pushSymbol {s : Symbol} (hk : ¬ s.kind.hasPlace) (ho : s.offset = 0)
    (hs : s.scope = globalId) : t.Unplaced (t.pushSymbol s) where
  inner := rfl
  size := rfl
  layout _ := rfl
  symbols a := by
    by_cases ha : a = t.symbols.size
    · subst ha
      rw [symbol_pushSymbol_self]
      exact .inr ⟨hk, ho, hs⟩
    · rw [symbol_pushSymbol_of_ne s ha]
      exact .inl rfl

/-- A namespace takes no place: its symbol is global. -/
theorem addNamespace {name : String} {id : SymbolId} (h : t.addNamespace name = some (t', id)) :
    t.Unplaced t' := by
  obtain ⟨-, -, rfl⟩ := addNamespace_eq_some h
  exact (pushSymbol (by simp [Symbol.fresh, SymbolKind.hasPlace]) rfl rfl).trans (modifyScope rfl)

/-- A member takes no place, whether it is new or its type is replaced. -/
theorem addFunctionToNamespace {space name : String} {type : Ty} {modifier declared : Modifier}
    {id : SymbolId}
    (h : t.addFunctionToNamespace space name type modifier declared = some (t', id)) :
    t.Unplaced t' := by
  obtain ⟨⟨t₂, a⟩, hadd, hb⟩ := Option.map_eq_some_iff.1 h
  cases hb
  obtain ⟨b, -, hb⟩ := Option.map_eq_some_iff.1 hadd
  split at hb
  · cases hb
    exact (modifySymbol rfl).trans (modifySymbol rfl)
  · cases hb
    refine Unplaced.trans ?_ (modifySymbol rfl)
    exact (pushSymbol (by simp [Symbol.fresh, SymbolKind.hasPlace]) rfl rfl).trans
      (modifySymbol rfl)

end Unplaced

/-! ### Places that are apart -/

/-- The places that have been given away are apart, and the counters of the current scope lie behind
those of its frame. -/
structure Placed (F : ScopeId → Prop) (t : Table) : Prop where
  nested : t.Nested
  current_lt : t.current < t.scopes.size
  scope_lt : ∀ a, (t.symbol a).scope < t.scopes.size
  counters : ∀ c, IsPlace (t.scope c).locals ∧ IsPlace (t.scope c).params
  place : ∀ a, (t.symbol a).kind.hasPlace → ∃ n, IsPlace n ∧ (t.symbol a).offset = -(n : Int)
  noPlace : ∀ a, ¬ (t.symbol a).kind.hasPlace → (t.symbol a).offset = 0
  free : ∀ a, (t.symbol a).kind.hasPlace → t.SharesFrame F (t.symbol a).scope t.current →
    nextOffset (t.scope t.current) (t.symbol a).kind < (t.symbol a).offset
  apart : ∀ a b, (t.symbol a).kind.hasPlace → (t.symbol b).kind = (t.symbol a).kind →
    t.SharesFrame F (t.symbol a).scope (t.symbol b).scope →
      (t.symbol b).offset = (t.symbol a).offset → b = a

/-- The next place is read off the counters. -/
theorem nextOffset_of_layout_eq {s s' : Scope} (h : s'.layout = s.layout) (kind : SymbolKind) :
    nextOffset s' kind = nextOffset s kind := by
  obtain ⟨-, hl, hp⟩ := Scope.layout_eq_iff.1 h
  cases kind <;> simp [nextOffset, hl, hp]

namespace Placed

/-- Places stay apart when none is taken. -/
theorem of_unplaced (h : t.Placed F) (hu : t.Unplaced t') : t'.Placed F := by
  have hcur : t'.current = t.current := hu.toExtends.current_eq
  have hcurlt : t'.current < t'.scopes.size := by
    rw [hcur, hu.size]
    exact h.current_lt
  have hscope := hu.layout t.current
  have hnested : t'.Nested := h.nested.congr hu.size hu.parent
  -- a symbol with a place is an old one
  have hold : ∀ a, (t'.symbol a).kind.hasPlace → (t'.symbol a).home = (t.symbol a).home :=
    fun a ha => (hu.symbols a).resolve_right fun hnew => hnew.1 ha
  have hlt : ∀ a, (t'.symbol a).scope < t'.scopes.size := fun a => by
    rw [hu.size]
    rcases hu.symbols a with hsame | ⟨-, -, hs⟩
    · exact (Symbol.home_eq_iff.1 hsame).2.2 ▸ h.scope_lt a
    · exact hs ▸ Nat.lt_of_le_of_lt (Nat.zero_le _) (h.scope_lt a)
  have hframe : ∀ {c d : ScopeId}, t'.SharesFrame F c d → c < t'.scopes.size →
      d < t'.scopes.size → t.SharesFrame F c d :=
    fun hcd hc hd => hcd.congr hnested hc hd fun d _ => (hu.parent d).symm
  refine ⟨hnested, hcurlt, hlt, fun c => ?_, fun a ha => ?_, fun a ha => ?_, fun a ha hshare => ?_,
    fun a b ha hkind hshare heq => ?_⟩
  · obtain ⟨-, hl, hp⟩ := Scope.layout_eq_iff.1 (hu.layout c)
    rw [hl, hp]
    exact h.counters c
  · obtain ⟨hk, ho, -⟩ := Symbol.home_eq_iff.1 (hold a ha)
    rw [ho]
    exact h.place a (hk ▸ ha)
  · rcases hu.symbols a with hsame | ⟨-, ho, -⟩
    · obtain ⟨hk, ho, -⟩ := Symbol.home_eq_iff.1 hsame
      rw [ho]
      exact h.noPlace a (hk ▸ ha)
    · exact ho
  · have hshare := hframe hshare (hlt a) hcurlt
    obtain ⟨hk, ho, hs⟩ := Symbol.home_eq_iff.1 (hold a ha)
    rw [hcur, nextOffset_of_layout_eq hscope, hk, ho]
    rw [hcur, hs] at hshare
    exact h.free a (hk ▸ ha) hshare
  · have hshare := hframe hshare (hlt a) (hlt b)
    obtain ⟨hak, hao, has⟩ := Symbol.home_eq_iff.1 (hold a ha)
    obtain ⟨hbk, hbo, hbs⟩ := Symbol.home_eq_iff.1 (hold b (hkind ▸ ha))
    rw [hbk, hak] at hkind
    rw [hbo, hao] at heq
    rw [has, hbs] at hshare
    exact h.apart a b (hak ▸ ha) hkind hshare heq

end Placed

section

variable (t : Table) (name : String) (type : Ty) (kind : SymbolKind)

/-- A new symbol opens no scope. -/
theorem size_addNew : (t.addNew name type kind).scopes.size = t.scopes.size := size_modifyScope ..

/-- A new symbol moves the counters of a scope and leaves its link. -/
theorem parent_addNew (c : ScopeId) :
    ((t.addNew name type kind).scope c).parent = (t.scope c).parent :=
  view_modifyScope Scope.parent (by cases kind <;> rfl) c

/-- A symbol is the new one, at the next place, or an old one. -/
theorem symbol_addNew (a : SymbolId) :
    (a = t.symbols.size ∧ ((t.addNew name type kind).symbol a).kind = kind ∧
      ((t.addNew name type kind).symbol a).offset = nextOffset (t.scope t.current) kind ∧
        ((t.addNew name type kind).symbol a).scope = t.current) ∨
      (t.addNew name type kind).symbol a = t.symbol a := by
  by_cases ha : a = t.symbols.size
  · subst ha
    rw [symbol_addNew_self]
    exact .inl ⟨rfl, rfl, rfl, rfl⟩
  · exact .inr (symbol_pushSymbol_of_ne _ ha)

end

namespace Placed

/-- Places stay apart when a symbol is declared. -/
theorem addNew (h : t.Placed F) (hw : t.WellFormed) (name : String) (type : Ty)
    (kind : SymbolKind) : (t.addNew name type kind).Placed F := by
  have hself := scope_addNew_self t name type kind hw
  have hcur : (t.addNew name type kind).current = t.current := rfl
  have hsize := size_addNew t name type kind
  have hparent := parent_addNew t name type kind
  have hsymbol := symbol_addNew t name type kind
  obtain ⟨hl, hp⟩ := le_reserve type kind (t.scope t.current)
  have hnested : (t.addNew name type kind).Nested := h.nested.congr hsize hparent
  have hlt : ∀ a, ((t.addNew name type kind).symbol a).scope < t.scopes.size := fun a => by
    rcases hsymbol a with ⟨-, -, -, hs⟩ | hold
    · exact hs ▸ hw.current_lt
    · exact hold ▸ h.scope_lt a
  have hframe : ∀ {c d : ScopeId}, (t.addNew name type kind).SharesFrame F c d →
      c < t.scopes.size → d < t.scopes.size → t.SharesFrame F c d :=
    fun hcd hc hd => hcd.congr hnested hc hd fun d _ => (hparent d).symm
  have hnext : ∀ k, nextOffset ((t.addNew name type kind).scope t.current) k =
      nextOffset (reserve type kind (t.scope t.current)) k := fun k => by
    rw [hself]
    cases k <;> rfl
  refine ⟨hnested, hsize ▸ hw.current_lt, hsize ▸ hlt, fun c => ?_, fun a ha => ?_, fun a ha => ?_,
    fun a ha hshare => ?_, fun a b ha hkind hshare heq => ?_⟩
  -- only the counters of the current scope move
  · by_cases hc : c = t.current
    · rw [hc, hself]
      exact isPlace_reserve type kind (h.counters _).1 (h.counters _).2
    · rw [scope_addNew_of_ne t name type kind hc]
      exact h.counters c
  · rcases hsymbol a with ⟨-, hk, ho, -⟩ | hold
    · rw [ho]
      exact isPlace_nextOffset (hk ▸ ha) (h.counters _).1 (h.counters _).2
    · rw [hold] at ha ⊢
      exact h.place a ha
  · rcases hsymbol a with ⟨-, hk, ho, -⟩ | hold
    · rw [hk] at ha
      rw [ho]
      cases kind <;> simp [SymbolKind.hasPlace, nextOffset] at ha ⊢
    · rw [hold] at ha ⊢
      exact h.noPlace a ha
  · have hshare := hframe hshare (hlt a) hw.current_lt
    rw [hcur, hnext]
    rcases hsymbol a with ⟨-, hk, ho, -⟩ | hold
    · rw [ho, hk]
      exact nextOffset_reserve_lt type (hk ▸ ha) _
    · rw [hold] at ha hshare ⊢
      exact Int.lt_of_le_of_lt (nextOffset_le hl hp _) (h.free a ha hshare)
  · have hshare := hframe hshare (hlt a) (hlt b)
    rcases hsymbol a with ⟨ha', hak, hao, has⟩ | hasym
    · rcases hsymbol b with ⟨hb', -, -, -⟩ | hbsym
      · exact hb'.trans ha'.symm
      · -- the place of an older symbol is not the next one
        rw [hak, hbsym] at hkind
        rw [hao, hbsym] at heq
        rw [has, hbsym] at hshare
        have hfree := h.free b (by rw [hkind, ← hak]; exact ha) hshare.symm
        rw [hkind, heq] at hfree
        exact absurd hfree (Int.lt_irrefl _)
    · rw [hasym] at ha hkind heq hshare
      rcases hsymbol b with ⟨-, hbk, hbo, hbs⟩ | hbsym
      -- the same the other way round
      · rw [hbk] at hkind
        rw [hbo] at heq
        rw [hbs] at hshare
        have hfree := h.free a ha hshare
        rw [← hkind, heq] at hfree
        exact absurd hfree (Int.lt_irrefl _)
      · rw [hbsym] at hkind heq hshare
        exact h.apart a b ha hkind hshare heq

/-- A name that has been declared in the scope before keeps its place; all others get the next one.
-/
theorem add (h : t.Placed F) (hw : t.WellFormed) (name : String) (type : Ty) (kind : SymbolKind) :
    (t.add name type kind).1.Placed F := by
  unfold Table.add
  split
  · exact h.of_unplaced (.modifySymbol rfl)
  · exact h.addNew hw name type kind

theorem addQualified (h : t.Placed F) (hw : t.WellFormed) (name : String) (type : Ty)
    (kind : SymbolKind) (q : Qualifier) : (t.addQualified name type kind q).1.Placed F :=
  (h.add hw name type kind).of_unplaced (.setQualifier _ _ q)

/-- Parameters take their places one after the other. -/
theorem addParams (h : t.Placed F) (hw : t.WellFormed) (params : List (String × Ty × Qualifier)) :
    (t.addParams params).Placed F := by
  induction params generalizing t with
  | nil => exact h
  | cons p others ih => exact ih (h.addQualified hw _ _ _ _) (hw.addQualified _ _ _ _)

/-! ### Entering and leaving a scope -/

/-- A step that declares nothing keeps the places apart.  What has to be shown is that the counters
of the scope that is current now lie behind those of its frame. -/
theorem of_symbols_eq (h : t.Placed F) (hs : t'.symbols = t.symbols) (hn : t'.Nested)
    (hcurlt : t'.current < t'.scopes.size)
    (hsize : t.scopes.size ≤ t'.scopes.size)
    (hparent : ∀ d < t.scopes.size, (t'.scope d).parent = (t.scope d).parent)
    (hcounters : ∀ c, IsPlace (t'.scope c).locals ∧ IsPlace (t'.scope c).params)
    (hfree : ∀ a, (t.symbol a).kind.hasPlace → t'.SharesFrame F (t.symbol a).scope t'.current →
      nextOffset (t'.scope t'.current) (t.symbol a).kind < (t.symbol a).offset) :
    t'.Placed F := by
  have hsymbol : ∀ a, t'.symbol a = t.symbol a := fun a => by rw [symbol, hs, symbol]
  refine ⟨hn, hcurlt, fun a => ?_, hcounters, fun a ha => ?_, fun a ha => ?_, fun a ha hshare => ?_,
    fun a b ha hkind hshare heq => ?_⟩
  · exact hsymbol a ▸ Nat.lt_of_lt_of_le (h.scope_lt a) hsize
  · rw [hsymbol] at ha ⊢
    exact h.place a ha
  · rw [hsymbol] at ha ⊢
    exact h.noPlace a ha
  · rw [hsymbol] at ha hshare ⊢
    exact hfree a ha hshare
  · rw [hsymbol] at ha
    rw [hsymbol, hsymbol] at hkind hshare heq
    have hshare := hshare.congr hn (h.scope_lt a) (h.scope_lt b) fun d hd => (hparent d hd).symm
    exact h.apart a b ha hkind hshare heq

theorem openScope (h : t.Placed F) (hw : t.WellFormed) {s : Scope}
    (hs : s.parent = some t.current) (hl : IsPlace s.locals) (hp : IsPlace s.params)
    (hfree : ¬ F t.scopes.size → ∀ a, (t.symbol a).kind.hasPlace →
      t.SharesFrame F (t.symbol a).scope t.current →
        nextOffset s (t.symbol a).kind < (t.symbol a).offset) : (t.openScope s).Placed F := by
  have hself : (t.openScope s).scope t.scopes.size = s := scope_openScope_self s
  have hscope : ∀ d < t.scopes.size, (t.openScope s).scope d = t.scope d := fun d hd =>
    scope_openScope_of_ne s (Nat.ne_of_lt hd)
  have hparent : ∀ d < t.scopes.size, ((t.openScope s).scope d).parent = (t.scope d).parent :=
    fun d hd => by rw [hscope d hd]
  have hsplit : ∀ c < (t.openScope s).scopes.size, c < t.scopes.size ∨ c = t.scopes.size :=
    fun c hc => Nat.lt_or_eq_of_le (Nat.le_of_lt_succ (Nat.lt_of_lt_of_eq hc (size_openScope t s)))
  have hnested : (t.openScope s).Nested := by
    intro c hc hne
    rcases hsplit c hc with hlt | rfl
    · rw [hparent c hlt]
      exact h.nested c hlt hne
    · rw [hself]
      exact ⟨t.current, hs, hw.current_lt⟩
  refine h.of_symbols_eq rfl hnested ?_ (size_openScope t s ▸ Nat.le_succ _) hparent
    (fun c => ?_) fun a ha hshare => ?_
  · exact size_openScope t s ▸ Nat.lt_succ_self _
  · by_cases hc : c = t.scopes.size
    · rw [hc, hself]
      exact ⟨hl, hp⟩
    · rw [scope_openScope_of_ne s hc]
      exact h.counters c
  · obtain ⟨r, har, hcr⟩ := hshare
    -- the frame of an older symbol is not that of the new scope
    have hlt : r < t.scopes.size := Nat.lt_of_le_of_lt (har.le hnested) (h.scope_lt a)
    show nextOffset ((t.openScope s).scope t.scopes.size) _ < _
    rw [hself]
    cases hcr with
    | own => exact absurd hlt (Nat.lt_irrefl _)
    | around hroot hp hr =>
      have hp : ((t.openScope s).scope t.scopes.size).parent = some _ := hp
      rw [hself, hs] at hp
      cases hp
      refine hfree (fun hF => hroot (.inr hF)) a ha ⟨r, ?_, ?_⟩
      · exact har.congr hnested (h.scope_lt a) fun d hd => (hparent d hd).symm
      · exact hr.congr hnested hw.current_lt fun d hd => (hparent d hd).symm

/-- An inner scope takes over the counters of the scope around it, so its variables go on behind. -/
theorem pushScope (h : t.Placed F) (hw : t.WellFormed) : t.pushScope.Placed F := by
  obtain ⟨hl, hp⟩ := h.counters t.current
  refine h.openScope hw rfl hl hp fun _ a ha hshare => ?_
  have hnext : nextOffset t.nested (t.symbol a).kind =
      nextOffset (t.scope t.current) (t.symbol a).kind := by
    cases (t.symbol a).kind <;> rfl
  exact hnext ▸ h.free a ha hshare

/-- A frame begins anew, so the new scope must not belong to the frame around it. -/
theorem pushFrame (h : t.Placed F) (hw : t.WellFormed) (hF : F t.scopes.size) :
    t.pushFrame.Placed F :=
  h.openScope hw rfl ⟨0, rfl⟩ ⟨0, rfl⟩ fun hnot => absurd hF hnot

/-- Counters of the current scope may be raised. -/
theorem raise (h : t.Placed F) {g : Scope → Scope}
    (hparent : (g (t.scope t.current)).parent = (t.scope t.current).parent)
    (hlocals : IsPlace (g (t.scope t.current)).locals)
    (hparams : IsPlace (g (t.scope t.current)).params)
    (hl : (t.scope t.current).locals ≤ (g (t.scope t.current)).locals)
    (hp : (t.scope t.current).params ≤ (g (t.scope t.current)).params) :
    (t.modifyScope t.current g).Placed F := by
  have hself : (t.modifyScope t.current g).scope t.current = g (t.scope t.current) :=
    scope_modifyScope_self h.current_lt
  have hsize : (t.modifyScope t.current g).scopes.size = t.scopes.size := size_modifyScope ..
  have hparent : ∀ c, ((t.modifyScope t.current g).scope c).parent = (t.scope c).parent :=
    view_modifyScope Scope.parent hparent
  have hnested : (t.modifyScope t.current g).Nested := h.nested.congr hsize hparent
  refine h.of_symbols_eq rfl hnested (hsize ▸ h.current_lt) (Nat.le_of_eq hsize.symm)
    (fun d _ => hparent d) (fun c => ?_) fun a ha hshare => ?_
  · by_cases hc : c = t.current
    · rw [hc, hself]
      exact ⟨hlocals, hparams⟩
    · rw [scope_modifyScope_of_ne hc]
      exact h.counters c
  · show nextOffset ((t.modifyScope t.current g).scope t.current) _ < _
    rw [hself]
    -- larger counters give smaller offsets
    refine Int.lt_of_le_of_lt (nextOffset_le hl hp _) (h.free a ha ?_)
    exact hshare.congr hnested (h.scope_lt a) h.current_lt fun d _ => (hparent d).symm

end Placed

/-- Numbers behind a table with one more scope are behind the table itself. -/
theorem lt_of_openScope_le {s : Scope} {n : Nat} (h : (t.openScope s).scopes.size ≤ n) :
    t.scopes.size < n :=
  Nat.lt_of_lt_of_le (size_openScope t s ▸ Nat.lt_succ_self _) h

theorem lt_openScope {s : Scope} (h : c < t.scopes.size) : c < (t.openScope s).scopes.size :=
  size_openScope t s ▸ Nat.lt_succ_of_lt h

/-- The scope that has been opened, and those that have been opened since. -/
theorem le_of_openScope {s : Scope} {n : ScopeId}
    (h : n = (t.openScope s).current ∨ (t.openScope s).scopes.size ≤ n) : t.scopes.size ≤ n := by
  rcases h with h | h
  · exact Nat.le_of_eq h.symm
  · exact Nat.le_of_lt (lt_of_openScope_le h)

/-- A scope that is left passes on its counters, and no link changes. -/
theorem parent_popScope (t : Table) (c : ScopeId) :
    (t.popScope.scope c).parent = (t.scope c).parent := by
  unfold popScope
  split
  · rfl
  · exact view_modifyScope Scope.parent rfl c

/-! The table `t'` comes after `t` and a scope that has been opened in it. -/

section

variable {s : Scope} (he : (t.openScope s).Extends t')

include he

/-- Scopes from before keep their links. -/
theorem Extends.parent_before (hd : d < t.scopes.size) :
    (t'.scope d).parent = (t.scope d).parent := by
  rw [he.parent d (lt_openScope hd), scope_openScope_of_ne s (Nat.ne_of_lt hd)]

/-- The counters of the scopes from before do not go back. -/
theorem Extends.counters_before (hd : d < t.scopes.size) :
    (t.scope d).locals ≤ (t'.scope d).locals ∧ (t.scope d).params ≤ (t'.scope d).params := by
  have hcounters := he.counters d (lt_openScope hd)
  rwa [scope_openScope_of_ne s (Nat.ne_of_lt hd)] at hcounters

/-- The scope is left again, and the scope around it takes over the larger counters. -/
theorem Extends.scope_leave (hw' : t'.WellFormed) :
    t'.popScope.current = t.current ∧
      t'.popScope.scope t.current =
        { t'.scope t.current with
          locals := max (t'.scope t.current).locals (t'.scope t.scopes.size).locals
          params := max (t'.scope t.current).params (t'.scope t.scopes.size).params } ∧
      ∀ c ≠ t.current, t'.popScope.scope c = t'.scope c := by
  have hi : t'.inner = t.scopes.size :: t.inner := he.inner
  have hcur : t'.popScope.current = t.current := current_popScope hi
  have hself := scope_popScope_current hi hw'
  rw [hcur] at hself
  exact ⟨hcur, hself, fun c hc => scope_popScope_of_ne hi (hcur ▸ hc)⟩

/-- Leaving a scope changes no symbol. -/
theorem Extends.symbols_leave : t'.popScope.symbols = t'.symbols := by
  have hi : t'.inner = t.scopes.size :: t.inner := he.inner
  rw [popScope_eq hi]
  rfl

end

/-- From a scope that has been opened since, the nearest frame is a new one or that of the scope
that was opened first. -/
theorem FrameOf.of_newer {s : Scope} (he : (t.openScope s).Extends t') (h : t'.FrameOf F d r)
    (hd : t.scopes.size ≤ d) (hlt : d < t'.scopes.size) :
    t.scopes.size ≤ r ∨ t'.FrameOf F t.scopes.size r := by
  induction h with
  | own => exact .inl hd
  | @around d p r hroot hp hr ih =>
    -- the links lead down to the scope that was opened first, and not past it
    rcases Nat.eq_or_lt_of_le hd with heq | hlt'
    · rw [heq]
      exact .inr (.around hroot hp hr)
    · obtain ⟨p', hp', hpd, hpc⟩ := he.newParent d (size_openScope t s ▸ hlt') hlt
      obtain rfl : p = p' := Option.some.inj (hp.symm.trans hp')
      exact ih (le_of_openScope hpc) (Nat.lt_trans hpd hlt)

/-- Leaving a scope.  What was declared before it was opened lies in front of the old counters, and
what has been declared since in front of those of the scope that is left. -/
theorem Placed.popScope {s : Scope} (h : t.Placed F) (hw : t.WellFormed) (hw' : t'.WellFormed)
    (he : (t.openScope s).Extends t') (h' : t'.Placed F) : t'.popScope.Placed F := by
  obtain ⟨hcur, hself, hother⟩ := he.scope_leave hw'
  have hcur' : t'.current = t.scopes.size := he.current_eq
  have hparent := parent_popScope t'
  have hnested : t'.popScope.Nested := h'.nested.congr (size_popScope t') hparent
  have hle := lt_of_openScope_le he.size_le
  refine h'.of_symbols_eq he.symbols_leave hnested hw'.popScope.current_lt
    (Nat.le_of_eq (size_popScope t').symm) (fun d _ => hparent d) (fun c => ?_)
    fun a ha hshare => ?_
  · by_cases hc : c = t.current
    · rw [hc, hself]
      exact ⟨(h'.counters _).1.max (h'.counters _).1, (h'.counters _).2.max (h'.counters _).2⟩
    · rw [hother c hc]
      exact h'.counters c
  · rw [hcur] at hshare
    rw [hcur, hself]
    have hcurlt := hw.current_lt
    obtain ⟨r, har, hcr⟩ := hshare.congr hnested (h'.scope_lt a) (Nat.lt_trans hcurlt hle)
      fun d _ => (hparent d).symm
    have hr : r < t.scopes.size := Nat.lt_of_le_of_lt (hcr.le h'.nested) hcurlt
    rcases he.symbols a ha with hsame | hnew
    -- declared before: in front of the counters that the scope around had then
    · obtain ⟨hk, ho, hs⟩ := Symbol.home_eq_iff.1 hsame
      rw [symbol_openScope] at hk ho hs
      have hback : ∀ d < t.scopes.size, (t.scope d).parent = (t'.scope d).parent :=
        fun d hd => (he.parent_before hd).symm
      have hshare : t.SharesFrame F (t.symbol a).scope t.current :=
        ⟨r, hs ▸ har.congr h'.nested (hs ▸ h.scope_lt a) hback, hcr.congr h'.nested hcurlt hback⟩
      obtain ⟨hl, hp⟩ := he.counters_before hcurlt
      rw [hk, ho]
      refine Int.lt_of_le_of_lt (nextOffset_le ?_ ?_ _) (h.free a (hk ▸ ha) hshare)
      · exact Nat.le_trans hl (Nat.le_max_left _ _)
      · exact Nat.le_trans hp (Nat.le_max_left _ _)
    -- declared since: its frame is that of the scope that is left
    · have hchild := (har.of_newer he (le_of_openScope hnew) (h'.scope_lt a)).resolve_left
        (Nat.not_le_of_lt hr)
      refine Int.lt_of_le_of_lt (nextOffset_le ?_ ?_ _)
        (h'.free a ha ⟨r, har, hcur'.symm ▸ hchild⟩)
      · rw [hcur']
        exact Nat.le_max_right _ _
      · rw [hcur']
        exact Nat.le_max_right _ _

/-! ### What is entered and left -/

namespace Extends

theorem refl (t : Table) : t.Extends t := (Unplaced.of_eq rfl rfl rfl).toExtends

/-- A new symbol stands in the current scope, and counters only grow. -/
theorem add (hw : t.WellFormed) (name : String) (type : Ty) (kind : SymbolKind) :
    t.Extends (t.add name type kind).1 := by
  unfold Table.add
  split
  · exact Unplaced.toExtends (.modifySymbol rfl)
  · have hsize := size_addNew t name type kind
    refine ⟨rfl, Nat.le_of_eq hsize.symm, fun d _ => parent_addNew t name type kind d,
      fun d hd hlt => ?_, fun d _ => ?_, fun a _ => ?_⟩
    · exact absurd (hsize ▸ hlt) (Nat.not_lt_of_le hd)
    · by_cases hd : d = t.current
      · rw [hd, scope_addNew_self t name type kind hw]
        exact le_reserve type kind _
      · rw [scope_addNew_of_ne t name type kind hd]
        exact ⟨Nat.le_refl _, Nat.le_refl _⟩
    · rcases symbol_addNew t name type kind a with ⟨-, -, -, hs⟩ | hold
      · exact .inr (.inl hs)
      · exact .inl (congrArg Symbol.home hold)

theorem addQualified (hw : t.WellFormed) (name : String) (type : Ty) (kind : SymbolKind)
    (q : Qualifier) : t.Extends (t.addQualified name type kind q).1 :=
  (add hw name type kind).trans (Unplaced.setQualifier _ _ q).toExtends

/-- All parameters stand in the current scope. -/
theorem addParams (hw : t.WellFormed) (params : List (String × Ty × Qualifier)) :
    t.Extends (t.addParams params) := by
  induction params generalizing t with
  | nil => exact refl t
  | cons p others ih => exact (addQualified hw _ _ _ _).trans (ih (hw.addQualified _ _ _ _))

/-- A scope in the current one is left again. -/
theorem popScope {s : Scope} (hw : t.WellFormed) (hw' : t'.WellFormed)
    (hs : s.parent = some t.current) (he : (t.openScope s).Extends t') :
    t.Extends t'.popScope := by
  have hsize := size_openScope t s
  obtain ⟨-, hself, hother⟩ := he.scope_leave hw'
  have hparent := parent_popScope t'
  refine ⟨?_, ?_, fun d hd => ?_, fun d hd hdlt => ?_, fun d hd => ?_, fun a ha => ?_⟩
  · rw [inner_popScope, he.inner]
    rfl
  · rw [size_popScope]
    exact Nat.le_of_lt (lt_of_openScope_le he.size_le)
  · rw [hparent, he.parent_before hd]
  · rw [hparent]
    rw [size_popScope] at hdlt
    -- the scope that has been opened first, or one of those inside of it
    rcases Nat.eq_or_lt_of_le hd with rfl | hd'
    · refine ⟨t.current, ?_, hw.current_lt, .inl rfl⟩
      rw [he.parent _ (hsize ▸ Nat.lt_succ_self _), scope_openScope_self]
      exact hs
    · obtain ⟨p, hp, hpd, hpc⟩ := he.newParent d (hsize ▸ hd') hdlt
      exact ⟨p, hp, hpd, .inr (le_of_openScope hpc)⟩
  · obtain ⟨hl, hp⟩ := he.counters_before hd
    by_cases hd' : d = t.current
    · rw [hd', hself]
      rw [hd'] at hl hp
      exact ⟨Nat.le_trans hl (Nat.le_max_left _ _), Nat.le_trans hp (Nat.le_max_left _ _)⟩
    · rw [hother d hd']
      exact ⟨hl, hp⟩
  · have hsymbol : t'.popScope.symbol a = t'.symbol a := by rw [symbol, he.symbols_leave, symbol]
    rw [hsymbol] at ha ⊢
    exact (he.symbols a ha).imp_right fun hnew => .inr (le_of_openScope hnew)

end Extends

/-- Parameters take no places of local variables. -/
theorem locals_addParams (t : Table) (params : List (String × Ty × Qualifier)) (c : ScopeId) :
    ((t.addParams params).scope c).locals = (t.scope c).locals := by
  induction params generalizing t with
  | nil => rfl
  | cons p others ih =>
    refine (ih _).trans ?_
    show ((t.add p.1 p.2.1 .param).1.scope c).locals = _
    unfold Table.add
    split
    · rfl
    · exact view_modifyScope Scope.locals rfl c

/-- In a frame that has been entered, the local variables have not got behind the parameters yet. -/
theorem locals_le_params (hw : t.WellFormed) (params : List (String × Ty × Qualifier)) :
    ((t.pushFrame.addParams params).scope t.scopes.size).locals ≤
      ((t.pushFrame.addParams params).scope t.scopes.size).params := by
  have hself : t.pushFrame.scope t.scopes.size =
      { t.nested with locals := frameBase, params := frameBase } := scope_openScope_self _
  have hlt : t.scopes.size < t.pushFrame.scopes.size := size_openScope t _ ▸ Nat.lt_succ_self _
  have hparams := ((Extends.addParams hw.pushFrame params).counters t.scopes.size hlt).2
  rw [hself] at hparams
  rw [locals_addParams, hself]
  exact hparams

theorem Extends.frame (hw : t.WellFormed) (params : List (String × Ty × Qualifier)) :
    t.pushFrame.Extends (t.pushFrame.addParams params).alignLocals := by
  have hcur : (t.pushFrame.addParams params).current = t.scopes.size := current_frame t params
  have hsize : (t.pushFrame.addParams params).alignLocals.scopes.size =
      (t.pushFrame.addParams params).scopes.size := size_modifyScope ..
  refine (addParams hw.pushFrame params).trans
    ⟨rfl, Nat.le_of_eq hsize.symm, fun d _ => ?_, fun d hd hlt => ?_, fun d hd => ?_,
      fun a _ => .inl rfl⟩
  · exact view_modifyScope Scope.parent rfl d
  · exact absurd (hsize ▸ hlt) (Nat.not_lt_of_le hd)
  · by_cases hd' : d = t.scopes.size
    · have hself : (t.pushFrame.addParams params).alignLocals.scope d =
          { (t.pushFrame.addParams params).scope d with
            locals := ((t.pushFrame.addParams params).scope d).params } := by
        rw [alignLocals, hcur, hd']
        exact scope_modifyScope_self (hd' ▸ hd)
      rw [hself, hd']
      exact ⟨locals_le_params hw params, Nat.le_refl _⟩
    · rw [alignLocals, scope_modifyScope_of_ne (hcur ▸ hd')]
      exact ⟨Nat.le_refl _, Nat.le_refl _⟩

/-- In a frame that has been entered, the counter of the local variables is raised to that of the
parameters. -/
theorem Placed.frame (h : t.Placed F) (hw : t.WellFormed) (hF : F t.scopes.size)
    (params : List (String × Ty × Qualifier)) :
    (t.pushFrame.addParams params).alignLocals.Placed F := by
  have hplaced := (h.pushFrame hw hF).addParams hw.pushFrame params
  have hcur : (t.pushFrame.addParams params).current = t.scopes.size := current_frame t params
  obtain ⟨-, hparams⟩ := hplaced.counters (t.pushFrame.addParams params).current
  refine hplaced.raise rfl hparams hparams ?_ (Nat.le_refl _)
  rw [hcur]
  exact locals_le_params hw params

/-! ### All steps -/

/-- The second table extends the first one, and its places are apart if those of the first are. -/
structure Settles (F : ScopeId → Prop) (t t' : Table) : Prop where
  toExtends : t.Extends t'
  placed : t.Placed F → t'.Placed F

namespace Settles

theorem trans (h : Settles F t t₁) (h' : Settles F t₁ t₂) : Settles F t t₂ :=
  ⟨h.toExtends.trans h'.toExtends, fun hp => h'.placed (h.placed hp)⟩

theorem of_unplaced (h : t.Unplaced t') : Settles F t t' :=
  ⟨h.toExtends, fun hp => hp.of_unplaced h⟩

theorem add (hw : t.WellFormed) (name : String) (type : Ty) (kind : SymbolKind) :
    Settles F t (t.add name type kind).1 :=
  ⟨.add hw name type kind, fun hp => hp.add hw name type kind⟩

theorem popScope {s : Scope} {e : Table} (hr : Settles F e t') (hs : s.parent = some t.current)
    (hw : t.WellFormed) (hw' : t'.WellFormed) (hopen : (t.openScope s).Extends e)
    (hplaced : t.Placed F → e.Placed F) : Settles F t t'.popScope := by
  have he := hopen.trans hr.toExtends
  exact ⟨.popScope hw hw' hs he, fun hp => hp.popScope hw hw' he (hr.placed (hplaced hp))⟩

theorem inRegion (hr : Settles F t.enterRegion t') : Settles F t t'.exitRegion := by
  have henter : Settles F t t.enterRegion := of_unplaced (.of_eq rfl rfl rfl)
  have hexit : Settles F t' t'.exitRegion := of_unplaced (.of_eq rfl rfl rfl)
  exact henter.trans (hr.trans hexit)

end Settles

/-- Every step keeps the places apart, if frames are entered only in the given scopes. -/
theorem placed_stableIn (F : ScopeId → Prop) :
    Table.StableIn (Effect.framesIn F) (Settles F) (Settles F) where
  refl t := ⟨.refl t, fun hp => hp⟩
  trans h h' := h.trans h'
  ofExpr h := h
  stmtTrans h h' := h.trans h'
  declare _ hw _ _ q := (Settles.add hw _ _ _).trans (.of_unplaced (.setQualifier _ _ q))
  spawn _ _ _ hb _ _ :=
    .of_unplaced (.of_sameButThreads ((SameButThreads.bind hb).trans (sameButThreads_looksAt ..)))
  function _ hw _ _ modifier declared :=
    (Settles.add hw _ _ _).trans (.of_unplaced (.setFunction _ _ modifier declared))
  space _ _ _ ha := .of_unplaced (.addNamespace ha)
  member _ _ ha := .of_unplaced (.addFunctionToNamespace ha)
  wait _ hv := .of_unplaced (.of_sameButThreads (sameButThreads_syncVariable hv))
  scope _ hw hw' _ _ hr := hr.popScope rfl hw hw' (.refl _) fun hp => hp.pushScope hw
  round _ _ _ hw hw' _ _ hr :=
    hr.popScope rfl hw hw' (.add hw.pushScope _ _ _)
      fun hp => (hp.pushScope hw).add hw.pushScope _ _ _
  -- here alone the scope must be one of the given ones
  frame params hF hw hw' _ _ hr :=
    hr.popScope rfl hw hw' (.frame hw params) fun hp => hp.frame hw hF params
  region := .inRegion
  stmtRegion := .inRegion

/-- At the beginning there is one scope and no symbol, so nothing is to be kept apart. -/
theorem placed_empty (F : ScopeId → Prop) : empty.Placed F := by
  have hsymbol : ∀ a, empty.symbol a = .fresh "" .nil .global 0 := fun a =>
    symbol_of_size_le (Nat.zero_le _)
  have hkind : ∀ a, ¬ (empty.symbol a).kind.hasPlace := fun a => by
    rw [hsymbol]
    exact Bool.false_ne_true
  have hcounters : ∀ c, empty.scope c = .global := fun c => by
    rcases c with - | c
    · rfl
    · rfl
  refine ⟨fun c hc hne => ?_, by decide, fun a => ?_, fun c => ?_, fun a ha => absurd ha (hkind a),
    fun a _ => ?_, fun a ha => absurd ha (hkind a), fun a _ ha => absurd ha (hkind a)⟩
  · exact absurd (Nat.lt_one_iff.1 hc) hne
  · rw [hsymbol]
    exact Nat.zero_lt_one
  · rw [hcounters]
    exact ⟨⟨0, rfl⟩, ⟨0, rfl⟩⟩
  · rw [hsymbol]
    rfl

end Table

/-- The places of a whole module are apart. -/
theorem placed_checkModule (d : Nat) (m : Module) :
    (checkModule d m).1.table.Placed (m.start d).OpensFrame := by
  have hstable := Table.placed_stableIn (m.start d).OpensFrame
  have hinitial : (Checker.initial d).table.Placed (m.start d).OpensFrame :=
    (hstable.function trivial Table.wellFormed_empty _ _ _ _).placed (Table.placed_empty _)
  obtain ⟨-, -, -, hsettles⟩ := hstable.visit (m.start d) (fun e he => Effect.framesIn_of_ne he)
    (fun _ hc => hc) (wellFormed_initial d)
  exact hsettles.placed hinitial

theorem IsPlace.offset {n : Nat} (h : IsPlace n) : -(n : Int) ≤ -48 ∧ (8 : Int) ∣ -(n : Int) := by
  obtain ⟨k, rfl⟩ := h
  simp only [frameBase, frameAlignment]
  omega

/-- Whatever a module does, all its parameters and local variables stand at multiples of 8 bytes
behind the saved registers, all other symbols have no place, and every symbol belongs to one frame:
that of the nearest function or lambda around it, or of the module.  Within a frame, no two
parameters and no two local variables have the same place, even if their scopes have been left. -/
theorem checkModule_places (d : Nat) (m : Module) :
    let t := (checkModule d m).1.table
    (∀ a, (t.symbol a).kind.hasPlace → (t.symbol a).offset ≤ -48 ∧ 8 ∣ (t.symbol a).offset) ∧
    (∀ a, ¬ (t.symbol a).kind.hasPlace → (t.symbol a).offset = 0) ∧
    (∀ a, ∃! r, t.FrameOf (m.start d).OpensFrame (t.symbol a).scope r) ∧
    (∀ a b, a ≠ b → (t.symbol a).kind.hasPlace → (t.symbol a).kind = (t.symbol b).kind →
      t.SharesFrame (m.start d).OpensFrame (t.symbol a).scope (t.symbol b).scope →
        (t.symbol a).offset ≠ (t.symbol b).offset) := by
  intro t
  have h : t.Placed (m.start d).OpensFrame := placed_checkModule d m
  refine ⟨fun a ha => ?_, h.noPlace, fun a => ?_, fun a b hne ha hkind hshare heq => ?_⟩
  · obtain ⟨n, hn, ho⟩ := h.place a ha
    rw [ho]
    exact hn.offset
  · obtain ⟨r, hr⟩ := h.nested.exists_frameOf _ (h.scope_lt a)
    exact ⟨r, hr, fun r' hr' => hr'.unique hr⟩
  · exact hne (h.apart a b ha hkind.symm hshare heq.symm).symm

namespace Sample

/-- `fn f(p: int): void { { var a = 1; } { var b = 2; } }` -/
def siblings : Stmt :=
  .function span ⟨"f", [⟨"p", some .int, .default, span, none⟩], .void, .default, none, none⟩
    [.block span .default
        [.declare span ⟨"a", none, .default, none⟩ (some (.literal (.at span) (.int 1)))],
      .block span .default
        [.declare span ⟨"b", none, .default, none⟩ (some (.literal (.at span) (.int 2)))]]

/-- Whether all functions and lambdas inside of the point begin in the given scopes, as far as `n`
levels show. -/
def opensOnly (scopes : List ScopeId) : Nat → Point → Bool
  | 0, _ => false
  | n + 1, p => p.parts.all fun q =>
      (q.role ≠ .elsewhere || scopes.contains q.state.table.current) && opensOnly scopes n q.toPoint

/-- What the test has run through are all the points where a frame can begin. -/
theorem mem_of_opensOnly {scopes : List ScopeId} {n : Nat} {p : Point} {c : ScopeId}
    (h : opensOnly scopes n p) (hc : p.OpensFrame c) : c ∈ scopes := by
  obtain ⟨r, q, hr, hq, hrole, rfl⟩ := hc
  -- one level less for each step down to the point where the frame begins
  induction hr generalizing n with
  | refl p =>
    cases n with
    | zero => cases h
    | succ n =>
      have hall := List.all_eq_true.1 h q hq
      simpa [hrole] using (Bool.and_eq_true_iff.1 hall).1
  | part hq' _ ih =>
    cases n with
    | zero => cases h
    | succ n =>
      have hall := List.all_eq_true.1 h _ hq'
      exact ih (Bool.and_eq_true_iff.1 hall).2 hq

end Sample

/-- The variables of two blocks that stand one behind the other are in different scopes of one
frame, and both scopes have been left. -/
theorem checkModule_places_siblings :
    let m : Module := ⟨[Sample.siblings], ""⟩
    let t := (checkModule defaultSuggestionDistance m).1.table
    ((t.symbol 3).name, (t.symbol 3).scope) = ("a", 2) ∧
      ((t.symbol 4).name, (t.symbol 4).scope) = ("b", 3) ∧ t.inner = [] ∧
      t.SharesFrame (m.start defaultSuggestionDistance).OpensFrame 2 3 ∧
      (t.symbol 3).offset ≠ (t.symbol 4).offset := by
  intro m t
  have hrun : (((t.symbol 2).scope, (t.symbol 3).scope, (t.symbol 4).scope) = (1, 2, 3) ∧
      (t.symbol 3).name = "a" ∧ (t.symbol 4).name = "b" ∧ t.inner = [] ∧
      (t.symbol 3).kind = .local_ ∧ (t.symbol 4).kind = .local_ ∧
      (t.scope 2).parent = some 1 ∧ (t.scope 3).parent = some 1) := by decide +kernel
  obtain ⟨hscopes, ha, hb, hinner, hak, hbk, hp₂, hp₃⟩ := hrun
  obtain ⟨hpscope, hascope, hbscope⟩ : (t.symbol 2).scope = 1 ∧ (t.symbol 3).scope = 2 ∧
      (t.symbol 4).scope = 3 := by simpa using hscopes
  obtain ⟨-, -, hframe, hapart⟩ := checkModule_places defaultSuggestionDistance m
  -- the two blocks have no frame of their own
  have honly : Sample.opensOnly [1] 8 (m.start defaultSuggestionDistance) := by decide +kernel
  have hnot : ∀ c, c ≠ 0 → c ≠ 1 →
      ¬ (c = Table.globalId ∨ (m.start defaultSuggestionDistance).OpensFrame c) := by
    rintro c h₀ h₁ (rfl | hc)
    · exact h₀ rfl
    · exact h₁ (List.mem_singleton.1 (Sample.mem_of_opensOnly honly hc))
  obtain ⟨r, hr, -⟩ := hframe 2
  have hr : t.FrameOf (m.start defaultSuggestionDistance).OpensFrame 1 r := hpscope ▸ hr
  have hshare : t.SharesFrame (m.start defaultSuggestionDistance).OpensFrame 2 3 :=
    ⟨r, .around (hnot 2 (by decide) (by decide)) hp₂ hr,
      .around (hnot 3 (by decide) (by decide)) hp₃ hr⟩
  refine ⟨by rw [ha, hascope], by rw [hb, hbscope], hinner, hshare, ?_⟩
  refine hapart 3 4 (by decide) ?_ (hak.trans hbk.symm) ?_
  · show (t.symbol 3).kind.hasPlace
    rw [hak]
    rfl
  · show t.SharesFrame _ (t.symbol 3).scope (t.symbol 4).scope
    rw [hascope, hbscope]
    exact hshare

end ThreadRegions
