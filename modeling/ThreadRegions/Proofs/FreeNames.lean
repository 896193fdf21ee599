import ThreadRegions.Proofs.Accept
import ThreadRegions.Proofs.Bindings

/-!
# What a lambda captures

A lambda captures what its body uses from outside.  The checker finds this out along the way: at
each name it compares how deep the scope of the symbol is with how deep each of the lambdas around
is.  Here the result is compared with the tree, in which the declarations around a lambda and the
names in its body can be seen.

## Main Definitions

* `Enclosing.Matches`: a lambda around a place of the tree is known to the checker
* `Naming.Fits`: the tree and the checker agree on a place
* `Naming.Moves`: they go on together

## Main Results

* `Naming.Fits.use`: they agree on which lambdas a name has to be captured by
* `resolves_of_gives`: in a visit without an error, they stay together to its end
* `checkModule_captures`: the captures of each lambda of an accepted program

## Design Notes

The checker compares numbers, and the tree knows the scopes themselves.  The two are brought
together by counting: the scopes around a lambda are the outer ones of those around any place in its
body, and so a scope further out is one of them exactly if there are fewer scopes around it.
-/

namespace ThreadRegions

open CheckM

/-! ### Lambdas around a place -/

/-- The lambda is known to the checker, with what it has captured so far. -/
structure Enclosing.Matches (e : Enclosing) (f : LambdaFrame) : Prop where
  depth : f.depth = e.around.length + 1
  nodup : (capturedSymbols f.captures).Nodup
  mem : ∀ a, a ∈ capturedSymbols f.captures ↔ Declares e.around a ∧ a ∈ e.uses
  /-- The names in the lambdas further in are names in the lambda. -/
  nested : ∀ captures ∈ e.nested, ∀ a ∈ capturedSymbols captures, a ∈ e.uses

/-- The captures of a lambda are those that its body needs. -/
structure Closure.Sound (c : Closure) : Prop where
  nodup : (capturedSymbols c.captures).Nodup
  mem : ∀ a, a ∈ capturedSymbols c.captures ↔ Declares c.around a ∧ a ∈ c.uses
  nested : ∀ captures ∈ c.nested, ∀ a ∈ capturedSymbols captures, Declares c.around a →
    a ∈ capturedSymbols c.captures

namespace Enclosing.Matches

variable {e : Enclosing} {f : LambdaFrame}

theorem start {d : Nat} {around : List (List Binding)} (hd : d = around.length + 1) :
    Matches ⟨around, [], []⟩ ⟨d, []⟩ :=
  ⟨hd, .nil, fun _ => ⟨nofun, fun h => nomatch h.2⟩, nofun⟩

/-- What is known of a lambda while the checker is in it is what is said of it afterwards. -/
theorem sound (h : e.Matches f) : Closure.Sound ⟨e, f.captures⟩ where
  nodup := h.nodup
  mem := h.mem
  nested captures hc a ha hd := (h.mem a).2 ⟨hd, h.nested captures hc a ha⟩

/-- A name is used whose scope has been compared with the lambda. -/
theorem use (h : e.Matches f) {d : Nat} {x : Capture}
    (hd : d < f.depth ↔ Declares e.around x.symbol) :
    Matches { e with uses := e.uses ++ [x.symbol] } (f.capture d x) := by
  have hknown : (f.captures.any fun known => known.symbol = x.symbol) = true ↔
      x.symbol ∈ capturedSymbols f.captures := by
    simp [capturedSymbols]
  have hnested : ∀ captures ∈ e.nested, ∀ a ∈ capturedSymbols captures,
      a ∈ e.uses ++ [x.symbol] :=
    fun captures hc a ha => List.mem_append_left _ (h.nested captures hc a ha)
  unfold LambdaFrame.capture
  -- either the symbol is captured now, or it has been captured before or does not come from outside
  split
  · next hnew =>
    obtain ⟨hlt, hnew⟩ := hnew
    rw [hknown] at hnew
    refine ⟨h.depth, ?_, fun a => ?_, hnested⟩
    · show (capturedSymbols (f.captures ++ [x])).Nodup
      rw [capturedSymbols, List.map_append, List.map_singleton]
      refine List.nodup_append.2 ⟨h.nodup, List.pairwise_singleton _ _, fun a ha b hb heq => ?_⟩
      rw [List.mem_singleton.1 hb] at heq
      exact hnew (heq ▸ ha)
    · show a ∈ capturedSymbols (f.captures ++ [x]) ↔ Declares e.around a ∧ a ∈ e.uses ++ [x.symbol]
      rw [capturedSymbols, List.map_append, List.map_singleton, List.mem_append, List.mem_append,
        List.mem_singleton, and_or_left]
      refine or_congr (h.mem a) ⟨?_, And.right⟩
      rintro rfl
      exact ⟨hd.1 hlt, rfl⟩
  · next hold =>
    refine ⟨h.depth, h.nodup, fun a => ?_, hnested⟩
    show a ∈ capturedSymbols f.captures ↔ Declares e.around a ∧ a ∈ e.uses ++ [x.symbol]
    rw [List.mem_append, List.mem_singleton, and_or_left, ← h.mem a]
    refine ⟨.inl, ?_⟩
    rintro (ha | ⟨hdecl, rfl⟩)
    · exact ha
    · -- the symbol comes from outside, so it has been captured before
      by_contra hnew
      exact hold ⟨hd.2 hdecl, mt hknown.1 hnew⟩

/-- A lambda further in ends, the names in which are names in this one. -/
theorem enclose (h : e.Matches f) {captures : List Capture}
    (hc : ∀ a ∈ capturedSymbols captures, a ∈ e.uses) :
    Matches { e with nested := e.nested ++ [captures] } f := by
  refine ⟨h.depth, h.nodup, h.mem, fun captures' hc' => ?_⟩
  rcases List.mem_append.1 hc' with hc' | hc'
  · exact h.nested captures' hc'
  · rw [List.mem_singleton.1 hc']
    exact hc

end Enclosing.Matches

namespace Naming

/-- The lambdas around a place are known to the checker, and those before it have been found to be
right. -/
structure Follows (l : Naming) (frames : List LambdaFrame) : Prop where
  /-- The scope of the parameters of a lambda is inside of those around the lambda. -/
  within : ∀ e ∈ l.lambdas, e.around <:+ l.inner.tail
  frames : List.Forall₂ Enclosing.Matches l.lambdas frames
  /-- A name in a lambda is a name in all lambdas around it. -/
  uses : l.lambdas.Pairwise fun e e' => e.uses ⊆ e'.uses
  closures : ∀ c ∈ l.closures, c.Sound

/-- The tree and the checker agree on a place. -/
structure Fits (l : Naming) (s : Checker) : Prop where
  scopes : s.table.OpenBinds l.inner
  lambdas : l.Follows s.frames

/-- From one place to another one that is in the same scopes and lambdas, at which the tree and the
checker agree. -/
structure Moves (l l' : Naming) (s' : Checker) : Prop where
  fits : l'.Fits s'
  inner : l'.inner.tail = l.inner.tail
  around : l'.lambdas.map Enclosing.around = l.lambdas.map Enclosing.around

variable {l l₁ l₂ : Naming} {s s₁ s₂ : Checker}

theorem Moves.trans (h : l.Moves l₁ s₁) (h' : l₁.Moves l₂ s₂) : l.Moves l₂ s₂ :=
  ⟨h'.fits, h'.inner.trans h.inner, h'.around.trans h.around⟩

/-- A step that the tree does not know of. -/
theorem Fits.stay (h : l.Fits s) (ht : s₁.table.OpenBinds l.inner) (hf : s₁.frames = s.frames) :
    l.Moves l s₁ :=
  ⟨⟨ht, hf ▸ h.lambdas⟩, rfl, rfl⟩

theorem Fits.refl (h : l.Fits s) : l.Moves l s := h.stay h.scopes rfl

/-- Lambdas in the same scopes as others are within what those are within. -/
theorem within_of_around {lambdas lambdas' : List Enclosing} {scopes : List (List Binding)}
    (heq : lambdas'.map Enclosing.around = lambdas.map Enclosing.around)
    (h : ∀ e ∈ lambdas, e.around <:+ scopes) : ∀ e ∈ lambdas', e.around <:+ scopes := by
  have hmap : ∀ around ∈ lambdas.map Enclosing.around, around <:+ scopes := List.forall_mem_map.2 h
  rw [← heq] at hmap
  exact fun e he => hmap e.around (List.mem_map_of_mem he)

/-! ### Names -/

/-- Only one scope has a symbol. -/
theorem not_declares_of_binds {t : Table} (hw : t.WellFormed) {scopes : List (List Binding)}
    {ids : List ScopeId} (h : List.Forall₂ t.Binds scopes ids) {a : SymbolId} {c : ScopeId}
    (ha : a ∈ (t.scope c).symbols) (hc : c ∉ ids) : ¬ Declares scopes a := by
  induction h with
  | nil => rintro ⟨ds, hds, -⟩; cases hds
  | @cons ds d rest outer hds _ ih =>
    rintro ⟨ds', hds', b, hb, hsymbol⟩
    rcases List.mem_cons.1 hds' with rfl | hds'
    · have hd := (hw.linked d a (hds.mem_symbols hb hsymbol)).2
      rw [(hw.linked c a ha).2] at hd
      exact hc (hd ▸ List.mem_cons_self)
    · exact ih (fun hmem => hc (List.mem_cons_of_mem d hmem)) ⟨ds', hds', b, hb, hsymbol⟩

/-- The scope of a name is one of those around a lambda exactly if there are fewer scopes around it
than around the parameters of the lambda. -/
theorem declares_iff_lt {t : Table} (hw : t.WellFormed) {scopes : List (List Binding)}
    {name : String} {a : SymbolId} {c : ScopeId} {outer : List ScopeId}
    (h : t.Locates scopes t.inner name a c outer) {around : List (List Binding)}
    (hs : around <:+ scopes) : outer.length < around.length ↔ Declares around a := by
  obtain ⟨ds, rest, hrest, hds, hbinds, b, hb, hsymbol⟩ := h.tree
  rw [← hbinds.length_eq]
  constructor
  · intro hlt
    have hsuffix : ds :: rest <:+ around := List.suffix_of_suffix_length_le hrest hs hlt
    exact ⟨ds, hsuffix.subset List.mem_cons_self, b, hb, hsymbol⟩
  · rintro ⟨ds', hds', b', hb', hsymbol'⟩
    by_contra hle
    -- the scopes around the lambda are all around the one that has the symbol
    have hout : around <:+ rest := List.suffix_of_suffix_length_le hs
      ((List.suffix_cons ds rest).trans hrest) (Nat.le_of_not_lt hle)
    have hsorted : (c :: outer).Pairwise (· > ·) := by
      refine (hw.sorted.sublist ?_)
      exact (h.suffix.sublist).trans (List.sublist_append_left _ _)
    have hc : c ∉ outer := fun hmem =>
      Nat.lt_irrefl c ((List.pairwise_cons.1 hsorted).1 c hmem)
    exact not_declares_of_binds hw hbinds h.mem hc ⟨ds', hout.subset hds', b', hb', hsymbol'⟩

/-- A name that is declared in none of the scopes is used by no lambda. -/
theorem use_of_none {name : String} (h : lookupBinding l.inner name = none) : l.use name = l := by
  rw [use, h]
  simp

/-- A name that the table does not find is captured by no lambda. -/
theorem Fits.use_eq_of_none (h : l.Fits s) {name : String} (hn : s.table.lookup name = none) :
    l.use name = l := by
  rw [Table.lookup_eq_or, Option.or_eq_none_iff] at hn
  exact use_of_none (Table.lookupBinding_eq_none h.scopes.inner hn.1)

/-- The name of a namespace is captured by no lambda. -/
theorem Fits.use_eq_of_namespace (h : l.Fits s) {name : String} {id : SymbolId}
    (hid : s.table.lookup name = some id) (hs : (s.table.symbol id).isNamespace = true) :
    l.use name = l := by
  refine use_of_none ?_
  cases hin : s.table.lookupFrom s.table.inner name with
  | none => exact Table.lookupBinding_eq_none h.scopes.inner hin
  | some a =>
    obtain ⟨c, outer, hloc⟩ := Table.locates_of_lookupFrom h.scopes.inner hin
    rw [Table.lookup_eq_or, hin] at hid
    cases hid
    exact absurd (hloc.plain.symm.trans hs) Bool.false_ne_true

/-- A name is used, and the lambdas capture it that have to. -/
theorem Fits.use (h : l.Fits s) (hw : s.table.WellFormed) {name : String} {id : SymbolId}
    (hid : s.table.lookup name = some id) : l.Moves (l.use name) (s.captured id) := by
  rw [Table.lookup_eq_or] at hid
  cases hin : s.table.lookupFrom s.table.inner name with
  | none =>
    -- a global symbol
    rw [hin] at hid
    have hglobal := (hw.linked _ id (Table.findIn_eq_some hid).1).2
    rw [use_of_none (Table.lookupBinding_eq_none h.scopes.inner hin), Checker.captured,
      if_pos hglobal]
    exact h.refl
  | some a =>
    obtain ⟨c, outer, hloc⟩ := Table.locates_of_lookupFrom h.scopes.inner hin
    rw [hin] at hid
    cases hid
    have hc : c ∈ s.table.inner := hloc.suffix.subset List.mem_cons_self
    have hscope : (s.table.symbol id).scope = c := (hw.linked c id hloc.mem).2
    have hdepth : (s.table.scope c).depth = outer.length + 1 := by
      rw [h.scopes.depth c (outer ++ [Table.globalId]), List.length_append, List.length_singleton]
      exact List.suffix_append_self_iff.2 hloc.suffix
    have huse : l.use name =
        { l with lambdas := l.lambdas.map fun e => { e with uses := e.uses ++ [id] } } := by
      rw [Naming.use, hloc.lookup]
      rfl
    rw [huse, Checker.captured, if_neg (by rw [hscope]; exact hw.ne_globalId hc)]
    have haround : (l.lambdas.map fun e => { e with uses := e.uses ++ [id] }).map
        Enclosing.around = l.lambdas.map Enclosing.around := List.map_map
    refine ⟨⟨h.scopes, within_of_around haround h.lambdas.within, ?_, ?_, h.lambdas.closures⟩, rfl,
      haround⟩
    · rw [List.forall₂_map_left_iff, List.forall₂_map_right_iff, hscope, hdepth]
      -- each lambda by itself: whether it captures the name depends on the scopes around it
      refine (Lexical.forall₂_imp_of_mem h.lambdas.frames.flip fun f e he hmatch => ?_).flip
      refine Enclosing.Matches.use (x := ⟨_, _, id⟩) hmatch ?_
      rw [hmatch.depth, Nat.succ_lt_succ_iff]
      exact declares_iff_lt hw hloc ((h.lambdas.within e he).trans (List.tail_suffix _))
    · rw [List.pairwise_map]
      exact h.lambdas.uses.imp fun hsub => List.append_subset.2
        ⟨fun x hx => List.mem_append_left _ (hsub hx), List.subset_append_right _ _⟩

/-! ### Scopes -/

theorem Fits.declare (h : l.Fits s) {name : String} {symbol : Option SymbolId}
    (ht : s₁.table.OpenBinds (declareBinding l.inner ⟨name, symbol⟩)) (hf : s₁.frames = s.frames) :
    l.Moves (l.declare name symbol) s₁ := by
  have htail : (l.declare name symbol).inner.tail = l.inner.tail := by
    unfold Naming.declare declareBinding
    cases l.inner <;> rfl
  refine ⟨⟨ht, ?_, hf ▸ h.lambdas.frames, h.lambdas.uses, h.lambdas.closures⟩, htail, rfl⟩
  intro e he
  rw [htail]
  exact h.lambdas.within e he

theorem Fits.openScope (h : l.Fits s) {params : List Param}
    (ht : s₁.table.OpenBinds ((params.map Param.binding).reverse :: l.inner))
    (hf : s₁.frames = s.frames) : (l.openScope params).Fits s₁ := by
  refine ⟨ht, fun e he => ?_, hf ▸ h.lambdas.frames, h.lambdas.uses, h.lambdas.closures⟩
  exact (h.lambdas.within e he).trans (List.tail_suffix _)

/-- A scope is left, in which the checker has come to the state `s₁`. -/
theorem Fits.closeScope (h : l.Fits s) {params : List Param}
    (hm : (l.openScope params).Moves l₁ s₁) (ht : s₂.table.OpenBinds l₁.inner.tail)
    (hf : s₂.frames = s₁.frames) : l.Moves l₁.closeScope s₂ := by
  have hinner : l₁.closeScope.inner = l.inner := hm.inner
  have hlambdas := hm.fits.lambdas
  refine ⟨⟨ht, ?_, hf ▸ hlambdas.frames, hlambdas.uses, hlambdas.closures⟩,
    by rw [hinner], hm.around⟩
  -- the lambdas are those that were around before the scope was entered
  rw [hinner]
  exact within_of_around hm.around h.lambdas.within

/-! ### Lambdas -/

theorem Fits.pushLambda (h : l.Fits s) {params : List Param}
    (ht : s₁.table.OpenBinds ((params.map Param.binding).reverse :: l.inner))
    (hf : s₁.frames = ⟨(s.table.scope s.table.current).depth + 1, []⟩ :: s.frames) :
    (l.pushLambda.openScope params).Fits s₁ := by
  have hdepth : (s.table.scope s.table.current).depth = l.inner.length := by
    rw [h.scopes.depth s.table.current s.table.open_.tail
      (s.table.open_eq_cons ▸ List.suffix_rfl), h.scopes.inner.length_eq]
    simp [Table.open_]
  refine ⟨ht, fun e he => ?_, ?_, ?_, h.lambdas.closures⟩
  · rcases List.mem_cons.1 he with rfl | he
    · exact List.suffix_rfl
    · exact (h.lambdas.within e he).trans (List.tail_suffix _)
  · rw [hf, hdepth]
    exact .cons (.start rfl) h.lambdas.frames
  · exact List.pairwise_cons.2 ⟨fun e _ => List.nil_subset _, h.lambdas.uses⟩

theorem Fits.popLambda (h : l.Fits s) {params : List Param} {f : LambdaFrame}
    (hm : (l.pushLambda.openScope params).Moves l₁ s₁) (ht : s₂.table.OpenBinds l₁.inner.tail)
    (hf : s₁.frames = f :: s₂.frames) : l.Moves (l₁.closeScope.popLambda f.captures) s₂ := by
  have hinner : l₁.inner.tail = l.inner := hm.inner
  have haround : l₁.lambdas.map Enclosing.around = l.inner :: l.lambdas.map Enclosing.around :=
    hm.around
  have hlambdas := hm.fits.lambdas
  -- the lambda that is left is the innermost one
  obtain ⟨e, outer, he, -, houter⟩ := List.map_eq_cons_iff.1 haround
  have hframes := hlambdas.frames
  have huses := hlambdas.uses
  rw [he, hf, List.forall₂_cons] at hframes
  rw [he, List.pairwise_cons] at huses
  have hpop : l₁.closeScope.popLambda f.captures =
      { inner := l₁.inner.tail
        lambdas := outer.map fun e' => { e' with nested := e'.nested ++ [f.captures] }
        closures := l₁.closures ++ [⟨e, f.captures⟩] } := by
    show Naming.popLambda ⟨l₁.inner.tail, l₁.lambdas, l₁.closures⟩ f.captures = _
    rw [he]
    rfl
  have hsame : (outer.map fun e' => { e' with nested := e'.nested ++ [f.captures] }).map
      Enclosing.around = l.lambdas.map Enclosing.around := by
    rw [List.map_map]
    exact houter
  rw [hpop]
  refine ⟨⟨ht, ?_, ?_, ?_, ?_⟩, by rw [hinner], hsame⟩
  · rw [hinner]
    exact within_of_around hsame h.lambdas.within
  · rw [List.forall₂_map_left_iff]
    refine (Lexical.forall₂_imp_of_mem hframes.2.flip fun f' e' he' hmatch => ?_).flip
    -- what the lambda has captured it has used, and so have those around it
    exact Enclosing.Matches.enclose hmatch fun a ha => huses.1 e' he' ((hframes.1.mem a).1 ha).2
  · rw [List.pairwise_map]
    exact huses.2
  · intro c hc
    rcases List.mem_append.1 hc with hc | hc
    · exact hlambdas.closures c hc
    · rw [List.mem_singleton.1 hc]
      exact hframes.1.sound

end Naming

/-! ### Going through the rules -/

/-- Goes on to the end of what a visit has answered. -/
def Reply.traverse : Reply → Naming → Naming
  | .expr e _, l => e.traverse l
  | .exprs es _, l => traverseExprs es l
  | .body b, l => b.traverse l
  | .stmt st, l => st.traverse l
  | .stmts sts, l => traverseStmts sts l
  | .waited, l => l

/-- The tree and the checker stay together in a visit. -/
def Resolves (s : Checker) (r : Reply) (s' : Checker) : Prop :=
  ∀ l : Naming, l.Fits s → l.Moves (r.traverse l) s'

/-- What is known about the parts of a visit. -/
def PartResolved (s : Checker) (v : Visit) (r : Reply) (s' : Checker) : Prop :=
  s.table.WellFormed ∧ Gives s v r s' ∧ Resolves s r s'

namespace PartResolved

variable {s s₁ s₂ : Checker} {v v₁ : Visit} {r r₁ : Reply} {l : Naming}

theorem wellFormed (h : PartResolved s v r s₁) : s₁.table.WellFormed := h.2.1.wellFormed h.1

theorem moves (h : PartResolved s v r s₁) (hl : l.Fits s) : l.Moves (r.traverse l) s₁ := h.2.2 l hl

theorem seq (h : PartResolved s v r s₁) (h' : PartResolved s₁ v₁ r₁ s₂) (hl : l.Fits s) :
    l.Moves (r₁.traverse (r.traverse l)) s₂ :=
  (h.moves hl).trans (h'.moves (h.moves hl).fits)

end PartResolved

namespace Table.OpenBinds

variable {s : Checker} {scopes : List (List Binding)}

theorem enterRegionIf (h : s.table.OpenBinds scopes) (enabled : Bool) :
    ((enterRegionIf enabled).after s).table.OpenBinds scopes := by
  cases enabled with
  | false => exact h
  | true => exact ⟨h.inner.imp fun _ _ hb => ⟨hb.found, hb.only⟩, h.depth⟩

theorem exitRegionIf (h : s.table.OpenBinds scopes) (enabled : Bool) :
    ((exitRegionIf enabled).after s).table.OpenBinds scopes := by
  cases enabled with
  | false => exact h
  | true => exact ⟨h.inner.imp fun _ _ hb => ⟨hb.found, hb.only⟩, h.depth⟩

theorem onPopScope (h : s.table.OpenBinds scopes) (hw : s.table.WellFormed) :
    (s.onLedger Ledger.popScope).table.OpenBinds scopes.tail := by
  rw [Checker.table_onLedger, Ledger.table_popScope]
  exact h.popScope hw

theorem enterModule (h : s.table.OpenBinds scopes) (hw : s.table.WellFormed) (module space : String)
    (statements : List Stmt) :
    ((enterModule module space statements).after ((addSpace space).after s)).table.OpenBinds
      ([] :: scopes) := by
  have hspace : ((addSpace space).after s).table.WellFormed ∧
      ((addSpace space).after s).table.OpenBinds scopes := by
    rw [addSpace, after_askLedger, Checker.table_onLedger, Ledger.table_addNamespace]
    cases ha : s.table.addNamespace space with
    | none => exact ⟨hw, h⟩
    | some r => exact ⟨hw.addNamespace ha, h.addNamespace hw ha⟩
  obtain ⟨hw₁, h₁⟩ := keeps_registerFunctions (P := fun t => t.WellFormed ∧ t.OpenBinds scopes)
    (fun ha h => ⟨h.1.addFunctionToNamespace ha, h.2.addFunctionToNamespace h.1 ha⟩) statements
    hspace
  exact h₁.openScope hw₁ rfl rfl

end Table.OpenBinds

/-- The body of a loop is visited, maybe in a region of its own. -/
theorem PartResolved.round {l : Naming} {s s' : Checker} {enabled : Bool} {v : Visit} {r : Reply}
    (h : PartResolved ((enterRegionIf enabled).after s) v r s') (hl : l.Fits s) :
    l.Moves (r.traverse l) s' :=
  h.moves (hl.stay (hl.scopes.enterRegionIf enabled) ((Stays.enterRegionIf enabled).frames s)).fits

/-! ### Threads -/

theorem Naming.Fits.syncOne {l : Naming} {s s' : Checker} {hint : Option Ty} {n m : Node}
    {name : String} {r : Reply} (hl : l.Fits s) (hw : s.table.WellFormed) (hn : n.type = none)
    (hg : Gives s (.expr hint (.sync n (.var m name) false)) r s') : l.Moves (l.use name) s' := by
  obtain ⟨e, t, -, h⟩ := hg.expr
  rw [checkExpr] at h
  replace h : Succeeds (CheckM.syncOne n (.var m name)) s e t s' := h.unlessKnown hn
  have hafter := h.2
  have hname : (Expr.var m name).name? = some name := rfl
  unfold CheckM.syncOne at h
  rcases Succeeds.resolve h with ⟨-, h⟩ | ⟨id, hid, -⟩
  · cases h.1
  · rw [after_syncOne hname hid] at hafter
    have hw₁ : (s.captured id).table.WellFormed := by rwa [toLedger_captured]
    have huse := hl.use hw hid
    rw [← hafter]
    refine huse.trans (huse.fits.stay ?_ ((Stays.syncPending id name).frames _))
    exact huse.fits.scopes.of_sameButThreads hw₁ (sameButThreads_syncPending _ id name)

/-- Finding the variables of several threads uses their names, one after the other. -/
theorem Naming.Fits.resolveHandles {l : Naming} {s : Checker} {start : Position}
    {handles handles' : List Expr} {ids : List SymbolId} (hl : l.Fits s) (hw : s.table.WellFormed)
    (hids : (resolveHandles start handles).answer s = .ok ids)
    (hvars : List.Forall₂
      (fun e e' => ∃ k name t, e = .var k name ∧ e' = (Expr.var k name).withType t)
      handles handles') :
    l.Moves (traverseExprs handles' l) ((resolveHandles start handles).after s) := by
  induction hvars generalizing l s ids with
  | nil => exact hl.refl
  | cons hvar _ ih =>
    obtain ⟨k, name, t, rfl, rfl⟩ := hvar
    obtain ⟨id, rest, -, ⟨_, _, heq, hid, -⟩, hrest, hafter⟩ := resolveHandles_cons hids
    cases heq
    have hw₁ : (s.captured id).table.WellFormed := by rwa [toLedger_captured]
    have huse := hl.use hw hid
    rw [hafter]
    exact huse.trans (ih huse.fits hw₁ hrest)

/-- Waiting for several threads uses the names of their variables. -/
theorem Naming.Fits.syncMany {l : Naming} {s s' : Checker} {hint : Option Ty} {n m : Node}
    {handles handles' : List Expr} {r : Reply} (hl : l.Fits s) (hw : s.table.WellFormed)
    (hn : n.type = none) (hg : Gives s (.expr hint (.sync n (.array m handles) true)) r s')
    (hvars : List.Forall₂
      (fun e e' => ∃ k name t, e = .var k name ∧ e' = (Expr.var k name).withType t)
      handles handles') : l.Moves (traverseExprs handles' l) s' := by
  obtain ⟨e, t, -, h⟩ := hg.expr
  rw [checkExpr] at h
  replace h : Succeeds (CheckM.syncMany n (.array m handles)) s e t s' := h.unlessKnown hn
  obtain ⟨m', handles₁, ids, heq, hids, -, hafter, -⟩ := h.syncMany
  cases heq
  have hnames := hl.resolveHandles hw hids hvars
  rw [← hafter]
  refine hnames.trans (hnames.fits.stay ?_ ((Stays.syncHandles _).frames _))
  refine hnames.fits.scopes.of_sameButThreads ?_ (sameButThreads_syncHandles _ _)
  rwa [table_resolveHandles]

/-! ### Parts that may be missing -/

theorem MaybeExpr.moves {l : Naming} {s s' : Checker} {e e' : Option Expr} {ps : List Point}
    (h : MaybeExpr PartResolved s e e' s' ps) (hl : l.Fits s) (hw : s.table.WellFormed) :
    l.Moves (traverseExpr? e' l) s' ∧ s'.table.WellFormed := by
  cases h with
  | none => exact ⟨hl.refl, hw⟩
  | some h => exact ⟨h.moves hl, h.wellFormed⟩

theorem MaybeStmt.moves {l : Naming} {s s' : Checker} {ret : Ty} {st st' : Option Stmt}
    {ps : List Point} (h : MaybeStmt PartResolved s ret st st' s' ps) (hl : l.Fits s)
    (hw : s.table.WellFormed) : l.Moves (traverseStmt? st' l) s' ∧ s'.table.WellFormed := by
  cases h with
  | none => exact ⟨hl.refl, hw⟩
  | some h => exact ⟨h.moves hl, h.wellFormed⟩

/-! ### Scopes and lambdas that are entered and left -/

namespace Naming.Fits

variable {l l₁ : Naming} {s s₁ : Checker}

theorem leaveBlock (h : l.Fits s) {params : List Param} (hw : s₁.table.WellFormed)
    (hm : (l.openScope params).Moves l₁ s₁) (modifier : Modifier) :
    l.Moves l₁.closeScope ((leaveBlock modifier).after s₁) :=
  h.closeScope hm ((hm.fits.scopes.onPopScope hw).exitRegionIf _)
    (((Stays.onLedger _).bind fun _ => .exitRegionIf _).frames s₁)

theorem leaveRound (h : l.Fits s) (hw : s₁.table.WellFormed) (hm : (l.openScope []).Moves l₁ s₁)
    (shared : Bool) : l.Moves l₁.closeScope ((leaveRound shared).after s₁) :=
  h.closeScope hm ((hm.fits.scopes.exitRegionIf _).onPopScope (hw.exitRegionIf _))
    (((Stays.exitRegionIf _).bind fun _ => .onLedger _).frames s₁)

theorem enterFunction (h : l.Fits s) (hw : s.table.WellFormed) {head : FunctionHead}
    {params : List Param}
    (hp : ((enterFunction head).after s).table.HasParams head.params params) :
    (l.openScope params).Fits ((enterFunction head).after s) := by
  refine h.openScope ?_ ((Stays.enterFunction head).frames s)
  rw [table_enterFunction] at hp ⊢
  refine (h.scopes.enterRegionIf _).frame (hw.enterRegionIf _) ?_ hp
  rw [List.map_map]
  rfl

theorem enterLambda (h : l.Fits s) (hw : s.table.WellFormed) {head : LambdaHead} {types : List Ty}
    (hlength : types.length = head.params.length) {params : List Param} (start : Position)
    (hp : ((enterLambda head types).after
      ((lambdaParamTypes start head.params).after s)).table.HasParams head.params params) :
    (l.pushLambda.openScope params).Fits ((enterLambda head types).after
      ((lambdaParamTypes start head.params).after s)) := by
  have hframes := (Stays.lambdaParamTypes start head.params).frames s
  have htable := table_lambdaParamTypes s start head.params
  -- giving types to parameters changes neither the table nor the lambdas
  generalize (lambdaParamTypes start head.params).after s = s₀ at *
  refine h.pushLambda ?_ ?_
  · rw [table_enterLambda] at hp ⊢
    have hscopes : s₀.table.OpenBinds l.inner := htable ▸ h.scopes
    have hw₀ : s₀.table.WellFormed := htable ▸ hw
    refine (hscopes.enterRegionIf _).frame (hw₀.enterRegionIf _) ?_ hp
    rw [List.map_map]
    show (head.params.zip types).map (Param.name ∘ Prod.fst) = _
    rw [← List.map_map, List.map_fst_zip (Nat.le_of_eq hlength.symm)]
  · have hstays : Stays (do
        CheckM.enterRegionIf (head.modifier = .isolated)
        onLedger Ledger.pushFrame
        let _ ← declareParams (head.params.zip types)
        onLedger Ledger.alignLocals) :=
      (Stays.enterRegionIf _).bind fun _ => (Stays.onLedger _).bind fun _ =>
        (Stays.declareParams _).bind fun _ => .onLedger _
    rw [← hframes, ← htable]
    exact hstays.frames (CheckM.pushLambda.after s₀)

/-- A lambda is left, and its captures are noted down. -/
theorem leaveLambda (h : l.Fits s) (hw : s₁.table.WellFormed) {params : List Param}
    (hm : (l.pushLambda.openScope params).Moves l₁ s₁) (head : LambdaHead) :
    l.Moves (l₁.closeScope.popLambda ((leaveLambda head).answer s₁))
      ((leaveLambda head).after s₁) := by
  -- the innermost lambda is known to the checker
  obtain ⟨f, frames, hf⟩ : ∃ f frames, s₁.frames = f :: frames := by
    have hlength := hm.fits.lambdas.frames.length_eq
    have haround := congrArg List.length hm.around
    rw [List.length_map, hlength] at haround
    exact List.exists_cons_of_length_eq_add_one haround
  have hkeeps : ((exitRegionIf (head.modifier = .isolated)).after
      (s₁.onLedger Ledger.popScope)).frames = f :: frames :=
    ((Stays.exitRegionIf _).frames _).trans hf
  have hanswer : (ThreadRegions.leaveLambda head).answer s₁ = f.captures := by
    simp [ThreadRegions.leaveLambda, CheckM.popLambda, hkeeps]
  have hafter : ((ThreadRegions.leaveLambda head).after s₁).frames = frames := by
    simp [ThreadRegions.leaveLambda, CheckM.popLambda, hkeeps, (Stays.note _ _).frames]
  rw [hanswer]
  refine h.popLambda hm ?_ (hf.trans (congrArg _ hafter.symm))
  rw [table_leaveLambda]
  exact (hm.fits.scopes.onPopScope hw).exitRegionIf _

end Naming.Fits

/-- By each rule, the tree and the checker stay together if they do in the parts. -/
theorem resolves_of_rule {s s' : Checker} {v : Visit} {r : Reply} {ps : List Point} (hf : v.Fresh)
    (hw : s.table.WellFormed) (hg : Gives s v r s') (h : Rule PartResolved s v r s' ps) :
    Resolves s r s' := by
  intro l hl
  cases h with
  | literal => exact hl.refl
  | var hid _ _ => exact hl.use hw hid
  | binary h₁ h₂ _ => exact h₁.seq h₂ hl
  | unary h₁ _ => exact h₁.moves hl
  | assign hid _ h₁ _ _ =>
    -- writing to a variable uses its name
    have huse := hl.use hw hid
    exact huse.trans (h₁.moves huse.fits)
  | indexAssign _ h₁ _ h₂ _ h₃ _ =>
    have hfirst := h₁.seq h₂ hl
    exact hfirst.trans (h₃.moves hfirst.fits)
  | @len _ _ m name args args' t _ hlen h₁ _ =>
    -- the name of the builtin function is declared nowhere
    have hnone : l.use name = l := by
      simp only [Table.callsLen, Expr.name?, Bool.and_eq_true, decide_eq_true_eq,
        Option.some.injEq, Option.isNone_iff_eq_none] at hlen
      exact hl.use_eq_of_none (hlen.1 ▸ hlen.2)
    show l.Moves (traverseExprs args' (l.use name)) s'
    rw [hnone]
    exact h₁.moves hl
  | call _ h₁ _ h₂ => exact h₁.seq h₂ hl
  | array h₁ => exact h₁.moves hl
  | access h₁ _ h₂ _ => exact h₁.seq h₂ hl
  | range h₁ _ h₂ _ => exact h₁.seq h₂ hl
  | increment _ h₁ _ => exact h₁.moves hl
  | decrement _ h₁ _ => exact h₁.moves hl
  | spaceMember hspace _ =>
    obtain ⟨m, name, rfl, hid, hs⟩ := Table.namespaceOf?_eq_some hspace
    show l.Moves (l.use name) s
    rw [hl.use_eq_of_namespace hid hs]
    exact hl.refl
  | valueMember _ h₁ _ => exact h₁.moves hl
  | @lambda _ n head _ _ types params _ _ _ s₁ _ hs₀ hparams hlength h₁ =>
    subst hs₀
    have henter := hl.enterLambda hw hlength n.span.start hparams
    exact hl.leaveLambda h₁.wellFormed (h₁.moves henter) _
  | spawn h₁ _ h₂ =>
    have hcallee := h₁.moves hl
    have hargs := h₂.moves ⟨hcallee.fits.scopes, hcallee.fits.lambdas⟩
    exact (hcallee.trans hargs).trans (hargs.fits.stay hargs.fits.scopes rfl)
  | sync _ _ => exact hl.syncOne hw hf.1 hg
  | syncAll _ _ hvars => exact hl.syncMany hw hf.1 hg hvars
  | noArgs => exact hl.refl
  | arg h₁ _ h₂ => exact h₁.seq h₂ hl
  | noElements => exact hl.refl
  | element h₁ _ _ h₂ => exact h₁.seq h₂ hl
  | exprBody h₁ _ => exact h₁.moves hl
  | blockBody h₁ => exact h₁.moves hl
  | expression h₁ => exact h₁.moves hl
  | @declare _ _ head t _ hsame =>
    have hadd := hl.scopes.addQualified hw head.name t s.table.declarationKind_ne head.qualifier
    refine hl.declare (hadd.of_sameButThreads (hw.addQualified _ _ _ _) hsame) ?_
    rw [← hg.after]
    show ((checkStmt _ (.declare _ head none)).after s).frames = s.frames
    rw [checkStmt]
    exact (Stays.finishDeclare _ _ _).frames s
  | @declareInit ret _ head init init' _ b t s₁ _ h₁ hsame =>
    have hinit := h₁.moves hl
    have hadd := hinit.fits.scopes.addQualified h₁.wellFormed head.name t
      s₁.table.declarationKind_ne head.qualifier
    show l.Moves (((init'.withType b).traverse l).declare head.name _) s'
    rw [Expr.traverse_withType]
    refine hinit.trans (hinit.fits.declare
      (hadd.of_sameButThreads (h₁.wellFormed.addQualified _ _ _ _) hsame) ?_)
    obtain ⟨_, _, heq, hans, hafter⟩ := h₁.2.1.expr
    cases heq
    rw [← hg.after]
    show ((checkStmt ret (.declare _ head (some init))).after s).frames = s₁.frames
    rw [checkStmt, after_bind, hans, hafter]
    exact (Stays.finishDeclare _ _ _).frames s₁
  | @function _ span head _ _ _ _ _ _ hs₀ hs₁ hparams h₁ =>
    subst hs₀ hs₁
    -- the function is declared outside of its own scope, so that it can call itself
    have hreport : l.Moves l ((reportHead span head).after s) :=
      hl.stay (by rw [table_reportHead]; exact hl.scopes) ((Stays.reportHead span head).frames s)
    have hw₀ : ((reportHead span head).after s).table.WellFormed := by rwa [table_reportHead]
    have hdeclare := hreport.fits.declare
      (hreport.fits.scopes.addFunction hw₀ head.name head.type
        (effectiveModifier head.modifier head.ret) head.modifier)
      ((Stays.declareFunction head).frames _)
    have henter := hdeclare.fits.enterFunction (hw₀.addFunction _ _ _ _) hparams
    exact hdeclare.trans (hdeclare.fits.leaveBlock h₁.wellFormed (h₁.moves henter) head.modifier)
  | ret h₁ => exact (h₁.moves hl hw).1
  | @block _ _ modifier _ _ _ h₁ =>
    have henter : (l.openScope []).Fits ((enterBlock modifier).after s) :=
      hl.openScope ((hl.scopes.enterRegionIf _).openScope (hw.enterRegionIf _) rfl rfl)
        (((Stays.enterRegionIf _).bind fun _ => .onLedger _).frames s)
    exact hl.leaveBlock h₁.wellFormed (h₁.moves henter) modifier
  | cond h₁ _ h₂ h₃ =>
    have hfirst := h₁.seq h₂ hl
    exact hfirst.trans (h₃.moves hfirst.fits h₂.wellFormed).1
  | whileLoop h₁ _ h₂ _ =>
    have hcondition := h₁.moves hl
    have hround := h₂.round hcondition.fits
    exact hcondition.trans (hround.trans
      (hround.fits.stay (hround.fits.scopes.exitRegionIf _) ((Stays.exitRegionIf _).frames _)))
  | forLoop h₁ h₂ h₃ h₄ _ =>
    have hopen : (l.openScope []).Fits (s.onLedger Ledger.pushScope) :=
      hl.openScope (hl.scopes.openScope hw rfl rfl) rfl
    obtain ⟨m₁, hw₁⟩ := h₁.moves hopen hw.pushScope
    obtain ⟨m₂, hw₂⟩ := h₂.moves m₁.fits hw₁
    obtain ⟨m₃, -⟩ := h₃.moves m₂.fits hw₂
    have hrounds := ((m₁.trans m₂).trans m₃).trans (h₄.round m₃.fits)
    exact hl.leaveRound h₄.wellFormed hrounds _
  | @forEach _ _ name _ _ _ shared iterable' _ _ element s₁ s₂ h₁ _ h₂ _ =>
    have hiterable := h₁.moves hl
    have hscopes : s₁.table.pushScope.OpenBinds ([] :: (iterable'.traverse l).inner) :=
      hiterable.fits.scopes.openScope h₁.wellFormed rfl rfl
    have hopen : ((iterable'.traverse l).openScope []).Fits (s₁.onLedger Ledger.pushScope) :=
      hiterable.fits.openScope hscopes rfl
    -- the variable of the loop is declared in a scope of its own
    let round := (s₁.onLedger Ledger.pushScope).onLedger fun l => (l.add name element .param).1
    have hadd : round.table.OpenBinds _ :=
      hscopes.add h₁.wellFormed.pushScope name element (by decide)
    have hdeclare := hopen.declare hadd rfl
    have hrounds := hdeclare.trans (h₂.round hdeclare.fits)
    exact hiterable.trans (hiterable.fits.leaveRound h₂.wellFormed hrounds shared)
  | leave => exact hl.refl
  | next => exact hl.refl
  | importMerged => exact hl.stay hl.scopes rfl
  | @importSpace _ _ module space statements _ _ _ _ _ h₁ =>
    have hframes := (Stays.registerFunctions space statements).frames ((addSpace space).after s)
    have henter : (l.openScope []).Fits
        ((enterModule module space statements).after ((addSpace space).after s)) :=
      hl.openScope (hl.scopes.enterModule hw module space statements) hframes
    have hinside := h₁.moves henter
    exact hl.closeScope hinside (hinside.fits.scopes.onPopScope h₁.wellFormed) rfl
  | noStmts => exact hl.refl
  | stmt h₁ h₂ => exact h₁.seq h₂ hl
  | wait =>
    exact hl.stay (hl.scopes.of_sameButThreads hw (sameButThreads_syncPending _ _ _))
      ((Stays.syncPending _ _).frames s)

/-- In a visit without an error, the tree and the checker stay together. -/
theorem resolves_of_gives {s s' : Checker} {v : Visit} {r : Reply} (h : Gives s v r s')
    (hf : v.Fresh) (hw : s.table.WellFormed) : Resolves s r s' :=
  h.induct (motive := fun s _ r s' => Resolves s r s')
    (fun hf hw hg hr => resolves_of_rule hf hw hg hr) hf hw

/-- At the start no scope but the global one is open, and no lambda is around. -/
theorem Naming.fits_start (d : Nat) (m : Module) : Naming.initial.Fits (m.start d).state :=
  ⟨Table.openBinds_empty.addFunction Table.wellFormed_empty "print" _ .default .default,
    nofun, .nil, .nil, nofun⟩

/-- In an accepted program each lambda has the captures that its body needs.  No symbol is captured
twice.  A symbol is captured exactly if it is declared in a scope around the lambda, other than the
global one, and a name in the body of the lambda stands for it.  So a lambda captures all symbols
from outside of it that the lambdas in its body capture. -/
theorem checkModule_captures (d : Nat) (m : Module) (hm : m.IsProgram)
    (h : (checkModule d m).1.accepted) :
    ∀ c ∈ closuresIn (checkModule d m).2.statements,
      (capturedSymbols c.captures).Nodup ∧
      (∀ a, a ∈ capturedSymbols c.captures ↔ Declares c.around a ∧ a ∈ c.uses) ∧
      ∀ captures ∈ c.nested, ∀ a ∈ capturedSymbols captures,
        Declares c.around a → a ∈ capturedSymbols c.captures := by
  intro c hc
  have hresolves := resolves_of_gives (gives_of_accepted h) hm.fresh (wellFormed_initial d)
  have hmoves := hresolves .initial (Naming.fits_start d m)
  obtain ⟨hnodup, hmem, hnested⟩ := hmoves.fits.lambdas.closures c hc
  exact ⟨hnodup, hmem, hnested⟩

/-- A program with a lambda in the body of a lambda.  The inner one uses a variable of each of the
two scopes around it, and the outer one also writes to a parameter of the function around. -/
def Sample.nestedLambdas? : Option Module :=
  Module.ofSource? []
    ("var g = 1; fn make(a: int): int \x7b var b = a; " ++
      "var outer = fn (x: int): int \x7b var c = x + g; " ++
      "var inner = fn (y: int): int => y + c + b; a = a + 1; return inner(x); \x7d; " ++
      "return outer(b); \x7d")
    "main.sn"

/-- The captures of each lambda, what the names in its body stand for, and what the lambdas in its
body capture. -/
def Sample.captured (m : Module) : List (List SymbolId × List SymbolId × List (List SymbolId)) :=
  (closuresIn (checkModule defaultSuggestionDistance m).2.statements).map fun c =>
    (capturedSymbols c.captures, c.uses, c.nested.map capturedSymbols)

theorem Sample.any_nestedLambdas? :
    Sample.nestedLambdas?.any fun m =>
      (checkModule defaultSuggestionDistance m).1.accepted &&
        Sample.captured m =
          [([6, 4], [7, 6, 4], []), ([4, 3], [5, 7, 6, 4, 3, 3, 8, 5], [[6, 4]])] := by
  decide +kernel

def Sample.nestedLambdas : Module :=
  Sample.nestedLambdas?.get ((Option.any_eq_true_iff_get _ _).1 Sample.any_nestedLambdas?).fst

theorem Sample.isProgram_nestedLambdas : Sample.nestedLambdas.IsProgram :=
  Module.isProgram_of_source (Option.some_get _).symm

/-- The inner lambda captures `c` and `b`, and the outer one `b` and `a`. -/
theorem Sample.accepted_nestedLambdas :
    (checkModule defaultSuggestionDistance Sample.nestedLambdas).1.accepted ∧
      Sample.captured Sample.nestedLambdas =
        [([6, 4], [7, 6, 4], []), ([4, 3], [5, 7, 6, 4, 3, 3, 8, 5], [[6, 4]])] := by
  obtain ⟨haccepted, hcaptured⟩ :=
    Bool.and_eq_true_iff.1 ((Option.any_eq_true_iff_get _ _).1 Sample.any_nestedLambdas?).snd
  exact ⟨haccepted, of_decide_eq_true hcaptured⟩

theorem checkModule_captures_nested :
    Sample.nestedLambdas.IsProgram ∧
      (checkModule defaultSuggestionDistance Sample.nestedLambdas).1.accepted ∧
      Sample.captured Sample.nestedLambdas =
        [([6, 4], [7, 6, 4], []), ([4, 3], [5, 7, 6, 4, 3, 3, 8, 5], [[6, 4]])] ∧
      ∀ c ∈ closuresIn
          (checkModule defaultSuggestionDistance Sample.nestedLambdas).2.statements,
        (capturedSymbols c.captures).Nodup ∧
        (∀ a, a ∈ capturedSymbols c.captures ↔ Declares c.around a ∧ a ∈ c.uses) ∧
        ∀ captures ∈ c.nested, ∀ a ∈ capturedSymbols captures,
          Declares c.around a → a ∈ capturedSymbols c.captures :=
  ⟨Sample.isProgram_nestedLambdas, Sample.accepted_nestedLambdas.1, Sample.accepted_nestedLambdas.2,
    checkModule_captures _ _ Sample.isProgram_nestedLambdas Sample.accepted_nestedLambdas.1⟩

end ThreadRegions
