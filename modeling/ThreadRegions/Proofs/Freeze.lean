import Mathlib.Data.Finset.Card
import Mathlib.Data.Finset.Range
import ThreadRegions.Proofs.Reach

/-!
# Frozen variables and pending handles

A variable is frozen once for each pending handle whose thread looks at it.  The number of times is
kept at the variable and the list of variables at the handle, and neither is computed from the
other: starting a thread adds to both, and waiting for it takes away from both.  Here the two are
shown to agree along every run.

## Main Definitions

* `Table.captors`: the pending handles whose threads look at a symbol
* `Table.Balanced`: every symbol is frozen as often as it has captors

## Main Results

* `balanced_invariant`: each step keeps tables balanced
* `freezeCount_eq_card_captors`: the tables of all runs are balanced, so waiting for a thread never
  lets go of a symbol that is not held
-/

namespace ThreadRegions

/-- The part of a symbol in the threads of the program. -/
def Symbol.threads (s : Symbol) : ThreadState × Nat × List SymbolId :=
  (s.state, s.freezeCount, s.frozenArgs)

namespace Table

/-- The pending handles whose threads look at a symbol. -/
def captors (t : Table) (a : SymbolId) : Finset SymbolId :=
  (Finset.range t.symbols.size).filter fun h =>
    (t.symbol h).isPending ∧ a ∈ (t.symbol h).frozenArgs

/-- Numbers beyond the table need not be ruled out: they stand for no pending handle. -/
theorem mem_captors {t : Table} {a h : SymbolId} :
    h ∈ t.captors a ↔ (t.symbol h).isPending ∧ a ∈ (t.symbol h).frozenArgs := by
  rw [captors, Finset.mem_filter, Finset.mem_range]
  refine ⟨fun hh => hh.2, fun hh => ⟨?_, hh⟩⟩
  -- a number without a symbol is not pending
  by_contra hlt
  rw [symbol_of_size_le (Nat.le_of_not_lt hlt)] at hh
  exact absurd hh.1 (by decide)

/-- A handle that is not pending captures nothing. -/
theorem notMem_captors {t : Table} {a h : SymbolId} (hp : (t.symbol h).state ≠ .pending) :
    h ∉ t.captors a := by
  intro hmem
  exact hp (by simpa [Symbol.isPending] using (mem_captors.1 hmem).1)

/-- Every symbol is frozen as often as it has captors, and a thread looks at a symbol once. -/
structure Balanced (t : Table) : Prop where
  nodup : ∀ h, (t.symbol h).frozenArgs.Nodup
  lt : ∀ h, ∀ a ∈ (t.symbol h).frozenArgs, a < t.symbols.size
  count : ∀ a, (t.symbol a).freezeCount = (t.captors a).card

/-! ### Steps that have nothing to do with threads -/

/-- The second table has the symbols of the first, and no new symbol takes part in a thread. -/
structure SameThreads (t t' : Table) : Prop where
  size : t.symbols.size ≤ t'.symbols.size
  threads : ∀ a, (t'.symbol a).threads = (t.symbol a).threads

namespace SameThreads

variable {t t₁ t₂ : Table}

theorem trans (h : t.SameThreads t₁) (h' : t₁.SameThreads t₂) : t.SameThreads t₂ :=
  ⟨Nat.le_trans h.size h'.size, fun a => (h'.threads a).trans (h.threads a)⟩

/-- Scopes and regions have nothing to do with threads. -/
theorem of_symbols_eq (h : t₁.symbols = t.symbols) : t.SameThreads t₁ :=
  ⟨Nat.le_of_eq (by rw [h]), fun a => by rw [symbol, h]; rfl⟩

/-- Any change to a symbol that leaves its part in threads alone. -/
theorem modifySymbol {id : SymbolId} {f : Symbol → Symbol}
    (hf : (f (t.symbol id)).threads = (t.symbol id).threads) :
    t.SameThreads (t.modifySymbol id f) :=
  ⟨Nat.le_of_eq (size_modifySymbol ..).symm, view_modifySymbol Symbol.threads hf⟩

theorem setQualifier (t : Table) (id : SymbolId) (q : Qualifier) :
    t.SameThreads (t.setQualifier id q) :=
  modifySymbol rfl

theorem setFunction (t : Table) (id : SymbolId) (modifier declared : Modifier) :
    t.SameThreads (t.setFunction id modifier declared) :=
  modifySymbol rfl

/-- A new symbol takes part in no thread, like a number without a symbol. -/
theorem pushSymbol {s : Symbol} (hs : s.threads = (.normal, 0, [])) :
    t.SameThreads (t.pushSymbol s) := by
  refine ⟨(size_pushSymbol ..).symm ▸ Nat.le_succ _, fun a => ?_⟩
  -- before, the number stood for no symbol, which is read as one without threads
  by_cases ha : a = t.symbols.size
  · rw [ha, symbol_pushSymbol_self, hs, symbol_of_size_le (Nat.le_refl _)]
    rfl
  · rw [symbol_pushSymbol_of_ne s ha]

/-- A name that has been declared in the scope before keeps its threads, and only its type changes.
-/
theorem add (name : String) (type : Ty) (kind : SymbolKind) :
    t.SameThreads (t.add name type kind).1 := by
  unfold Table.add
  split
  · exact modifySymbol rfl
  · exact (pushSymbol rfl).trans (of_symbols_eq rfl)

theorem addQualified (name : String) (type : Ty) (kind : SymbolKind) (q : Qualifier) :
    t.SameThreads (t.addQualified name type kind q).1 :=
  (add name type kind).trans (setQualifier _ _ q)

theorem addFunction (name : String) (type : Ty) (modifier declared : Modifier) :
    t.SameThreads (t.addFunction name type modifier declared).1 :=
  (add name type _).trans (setFunction _ _ modifier declared)

theorem addParams (params : List (String × Ty × Qualifier)) :
    t.SameThreads (t.addParams params) := by
  induction params generalizing t with
  | nil => exact of_symbols_eq rfl
  | cons p others ih => exact (addQualified p.1 p.2.1 .param p.2.2).trans ih

theorem addNamespace {name : String} {id : SymbolId}
    (h : t.addNamespace name = some (t₁, id)) : t.SameThreads t₁ := by
  obtain ⟨-, -, rfl⟩ := addNamespace_eq_some h
  exact (pushSymbol rfl).trans (of_symbols_eq rfl)

theorem addFunctionToNamespace {space name : String} {type : Ty} {modifier declared : Modifier}
    {id : SymbolId}
    (h : t.addFunctionToNamespace space name type modifier declared = some (t₁, id)) :
    t.SameThreads t₁ := by
  obtain ⟨⟨t₂, a⟩, hadd, hb⟩ := Option.map_eq_some_iff.1 h
  cases hb
  obtain ⟨b, -, hb⟩ := Option.map_eq_some_iff.1 hadd
  split at hb
  · cases hb
    exact (modifySymbol rfl).trans (modifySymbol rfl)
  · cases hb
    exact ((pushSymbol rfl).trans (modifySymbol rfl)).trans (modifySymbol rfl)

theorem pushScope : t.SameThreads t.pushScope := of_symbols_eq rfl

theorem pushFrame : t.SameThreads t.pushFrame := of_symbols_eq rfl

theorem alignLocals : t.SameThreads t.alignLocals := of_symbols_eq rfl

theorem enterRegion : t.SameThreads t.enterRegion := of_symbols_eq rfl

theorem exitRegion : t.SameThreads t.exitRegion := of_symbols_eq rfl

theorem popScope : t.SameThreads t.popScope := by
  unfold Table.popScope
  split
  · exact of_symbols_eq rfl
  · exact of_symbols_eq rfl

/-- Captors are computed from what takes part in threads. -/
theorem captors_eq (h : t.SameThreads t₁) (a : SymbolId) : t₁.captors a = t.captors a := by
  ext id
  have hid := h.threads id
  simp only [Symbol.threads, Prod.mk.injEq] at hid
  rw [mem_captors, mem_captors, Symbol.isPending, Symbol.isPending, hid.1, hid.2.2]

/-- Tables stay balanced across steps that have nothing to do with threads. -/
theorem balanced (h : t.SameThreads t₁) (hb : t.Balanced) : t₁.Balanced := by
  have hargs : ∀ id, (t₁.symbol id).frozenArgs = (t.symbol id).frozenArgs := fun id => by
    have hid := h.threads id
    simp only [Symbol.threads, Prod.mk.injEq] at hid
    exact hid.2.2
  refine ⟨fun id => ?_, fun id a ha => ?_, fun a => ?_⟩
  · rw [hargs]
    exact hb.nodup id
  · rw [hargs] at ha
    exact Nat.lt_of_lt_of_le (hb.lt id a ha) h.size
  · have ha := h.threads a
    simp only [Symbol.threads, Prod.mk.injEq] at ha
    rw [ha.2.1, h.captors_eq]
    exact hb.count a

end SameThreads

/-! ### Freezing and letting go -/

/-- Each symbol is frozen as often as it is in the list. -/
theorem symbol_foldl_freeze {t : Table} {ids : List SymbolId} (h : ∀ a ∈ ids, a < t.symbols.size)
    (a : SymbolId) :
    (ids.foldl freeze t).symbol a =
      { t.symbol a with freezeCount := (t.symbol a).freezeCount + ids.count a } := by
  induction ids generalizing t with
  | nil => rfl
  | cons id others ih =>
    obtain ⟨hid, hothers⟩ := List.forall_mem_cons.1 h
    rw [List.foldl_cons, ih (by simpa [freeze] using hothers)]
    -- the first of them counts once, and the others are left to the induction
    by_cases ha : a = id
    · subst ha
      rw [freeze, symbol_modifySymbol_self hid, List.count_cons_self]
      simp [Symbol.freeze, Nat.add_assoc, Nat.add_comm]
    · rw [freeze, symbol_modifySymbol_of_ne ha, List.count_cons_of_ne (Ne.symm ha)]

/-- Letting go takes one away, and does nothing at zero. -/
theorem symbol_release (t : Table) (id a : SymbolId) :
    (t.release id).symbol a =
      { t.symbol a with
        freezeCount := (t.symbol a).freezeCount - if a = id then 1 else 0 } := by
  unfold release transition Symbol.unfreeze
  by_cases h0 : (t.symbol id).freezeCount = 0
  · -- there is nothing to let go of
    simp only [h0, if_true, Except.map]
    split
    · next ha =>
      subst ha
      have hsame : (t.symbol a).freezeCount - 1 = (t.symbol a).freezeCount := by rw [h0]
      rw [hsame]
    · rfl
  · simp only [h0, if_false, Except.map]
    -- a number without a symbol is not frozen
    have hid : id < t.symbols.size := by
      by_contra hlt
      rw [symbol_of_size_le (Nat.le_of_not_lt hlt)] at h0
      exact h0 rfl
    split
    · next ha => rw [ha, symbol_modifySymbol_self hid]
    · next ha => rw [symbol_modifySymbol_of_ne ha]; rfl

/-- Each symbol is let go of as often as it is in the list. -/
theorem symbol_foldl_release (t : Table) (ids : List SymbolId) (a : SymbolId) :
    (ids.foldl release t).symbol a =
      { t.symbol a with freezeCount := (t.symbol a).freezeCount - ids.count a } := by
  induction ids generalizing t with
  | nil => rfl
  | cons id others ih =>
    rw [List.foldl_cons, ih, symbol_release, List.count_cons]
    simp only [Nat.sub_sub, beq_iff_eq, eq_comm (a := a) (b := id)]
    rw [Nat.add_comm]

/-- What has just been declared is in the table. -/
theorem JustDeclared.lt {t : Table} {id : SymbolId} (h : t.JustDeclared id) (hw : t.WellFormed) :
    id < t.symbols.size := by
  obtain ⟨before, name, type, kind, q, h⟩ := h
  simp only [Table.addQualified, Prod.mk.injEq] at h
  obtain ⟨rfl, rfl⟩ := h
  unfold Table.add at hw ⊢
  split at hw
  · next id hid => exact (hw.linked _ id (findIn_eq_some hid).1).1
  · simp [Table.setQualifier, Table.addNew]

/-! ### Starting a thread -/

section Spawn

variable {t bound : Table} {id : SymbolId} {frozen : List SymbolId}
  (hid : id < t.symbols.size)
  (hb : t.transition id (fun s => s.rebind.bind Symbol.markPending) = .ok bound)
  (hlt : ∀ a ∈ frozen, a < t.symbols.size)

include hid hb hlt

/-- The handle of a thread that has just been started. -/
theorem symbol_looksAt_self :
    (t.symbol id).state ≠ .pending ∧ ((bound.looksAt id frozen).symbol id).state = .pending ∧
      ((bound.looksAt id frozen).symbol id).frozenArgs = frozen ∧
      ((bound.looksAt id frozen).symbol id).freezeCount =
        (t.symbol id).freezeCount + frozen.count id := by
  have hsize := (SameButThreads.bind hb).size
  obtain ⟨s, hs, rfl⟩ := transition_eq_ok hb
  obtain ⟨hnp, hp, hf, -⟩ := Symbol.rebind_markPending_eq_ok hs
  have hself : ((t.modifySymbol id fun _ => s).looksAt id frozen).symbol id =
      { s with freezeCount := s.freezeCount + frozen.count id, frozenArgs := frozen } := by
    rw [looksAt, setFrozenArgs, symbol_modifySymbol_self, symbol_foldl_freeze (by simpa using hlt),
      symbol_modifySymbol_self hid]
    rw [(SameButThreads.foldl_freeze frozen).size, hsize]
    exact hid
  rw [hself]
  exact ⟨hnp, hp, rfl, congrArg (· + _) hf⟩

omit hid in
theorem symbol_looksAt_of_ne {a : SymbolId} (ha : a ≠ id) :
    (bound.looksAt id frozen).symbol a =
      { t.symbol a with freezeCount := (t.symbol a).freezeCount + frozen.count a } := by
  obtain ⟨s, hs, rfl⟩ := transition_eq_ok hb
  rw [looksAt, setFrozenArgs, symbol_modifySymbol_of_ne ha,
    symbol_foldl_freeze (by simpa using hlt), symbol_modifySymbol_of_ne ha]

/-- The handle itself may be among the symbols that the thread looks at, so the two cases are one.
-/
theorem freezeCount_looksAt (a : SymbolId) :
    ((bound.looksAt id frozen).symbol a).freezeCount =
      (t.symbol a).freezeCount + frozen.count a := by
  by_cases ha : a = id
  · subst ha
    exact (symbol_looksAt_self hid hb hlt).2.2.2
  · rw [symbol_looksAt_of_ne hb hlt ha]

/-- The new handle captures what its thread looks at, and the other handles what they did before. -/
theorem captors_looksAt (a : SymbolId) :
    (bound.looksAt id frozen).captors a =
      if a ∈ frozen then insert id (t.captors a) else t.captors a := by
  obtain ⟨hnp, hp, hargs, -⟩ := symbol_looksAt_self hid hb hlt
  have hold : id ∉ t.captors a := notMem_captors hnp
  have hmem : ∀ h, h ∈ (bound.looksAt id frozen).captors a ↔
      (h = id ∧ a ∈ frozen) ∨ h ∈ t.captors a := by
    intro h
    rw [mem_captors]
    by_cases hh : h = id
    · subst hh
      rw [Symbol.isPending, hp, hargs]
      simp [hold]
    · rw [symbol_looksAt_of_ne hb hlt hh, mem_captors]
      simp [hh, Symbol.isPending]
  ext h
  rw [hmem]
  split
  · next ha => simp [ha]
  · next ha => simp [ha]

/-- Starting a thread adds one captor to each symbol that it looks at, and freezes it once more. -/
theorem Balanced.spawn (h : t.Balanced) (hn : frozen.Nodup) :
    (bound.looksAt id frozen).Balanced := by
  have hsize : (bound.looksAt id frozen).symbols.size = t.symbols.size :=
    ((SameButThreads.bind hb).trans (bound.sameButThreads_looksAt id frozen)).size
  obtain ⟨hnp, -, hargs, -⟩ := symbol_looksAt_self hid hb hlt
  refine ⟨fun h' => ?_, fun h' a ha => ?_, fun a => ?_⟩
  · by_cases hh : h' = id
    · rw [hh, hargs]
      exact hn
    · rw [symbol_looksAt_of_ne hb hlt hh]
      exact h.nodup h'
  · rw [hsize]
    by_cases hh : h' = id
    · rw [hh, hargs] at ha
      exact hlt a ha
    · rw [symbol_looksAt_of_ne hb hlt hh] at ha
      exact h.lt h' a ha
  · rw [freezeCount_looksAt hid hb hlt, captors_looksAt hid hb hlt, h.count a]
    have hold : id ∉ t.captors a := notMem_captors hnp
    -- one captor more on the left, and one more in the list on the right
    by_cases ha : a ∈ frozen
    · rw [if_pos ha, List.count_eq_one_of_mem hn ha, Finset.card_insert_of_notMem hold]
    · rw [if_neg ha, List.count_eq_zero_of_not_mem ha, Nat.add_zero]

end Spawn

/-! ### Waiting for a thread -/

section Wait

variable {t marked : Table} {id : SymbolId}
  (hm : t.transition id Symbol.markSynchronized = .ok marked)

include hm

/-- A handle that is waited for was pending, and only its state is changed at first. -/
theorem symbol_marked :
    (t.symbol id).isPending ∧
      ∀ a, marked.symbol a =
        if a = id then { t.symbol a with state := .synchronized } else t.symbol a := by
  obtain ⟨s, hs, rfl⟩ := transition_eq_ok hm
  obtain ⟨hp, rfl⟩ := Symbol.markSynchronized_eq_ok hs
  have hid : id < t.symbols.size := by
    by_contra hlt
    rw [symbol_of_size_le (Nat.le_of_not_lt hlt)] at hp
    cases hp
  refine ⟨by simp [Symbol.isPending, hp], fun a => ?_⟩
  split
  · next ha => rw [ha, symbol_modifySymbol_self hid]
  · next ha => rw [symbol_modifySymbol_of_ne ha]

/-- The list of a handle is kept when it is waited for, and not looked at any more. -/
theorem frozenArgs_marked (a : SymbolId) :
    (marked.symbol a).frozenArgs = (t.symbol a).frozenArgs := by
  rw [(symbol_marked hm).2]
  split <;> rfl

theorem freezeCount_marked (a : SymbolId) :
    (marked.symbol a).freezeCount = (t.symbol a).freezeCount := by
  rw [(symbol_marked hm).2]
  split <;> rfl

/-- A handle that has been waited for captures nothing. -/
theorem captors_released (ids : List SymbolId) (a : SymbolId) :
    (ids.foldl release marked).captors a = (t.captors a).erase id := by
  ext h
  rw [mem_captors, Finset.mem_erase, mem_captors, symbol_foldl_release]
  simp only [Symbol.isPending, (symbol_marked hm).2]
  -- the handle is not pending any more, and the others are what they were
  by_cases hh : h = id
  · simp [hh]
  · simp [hh]

/-- Waiting for a thread takes one captor away from each symbol that it looked at, and lets go of it
once. -/
theorem Balanced.release (h : t.Balanced) :
    ((marked.symbol id).frozenArgs.foldl Table.release marked).Balanced := by
  have hpending := (symbol_marked hm).1
  have hsame := (SameButThreads.markSynchronized hm).trans
    (.foldl_release (marked.symbol id).frozenArgs)
  refine ⟨fun h' => ?_, fun h' a ha => ?_, fun a => ?_⟩
  · rw [symbol_foldl_release, frozenArgs_marked hm]
    exact h.nodup h'
  · rw [symbol_foldl_release, frozenArgs_marked hm] at ha
    rw [hsame.size]
    exact h.lt h' a ha
  · rw [captors_released hm, symbol_foldl_release, frozenArgs_marked hm, freezeCount_marked hm,
      h.count a]
    -- the handle was a captor of the symbol exactly if the symbol is in its list
    by_cases ha : a ∈ (t.symbol id).frozenArgs
    · rw [List.count_eq_one_of_mem (h.nodup id) ha,
        Finset.card_erase_of_mem (mem_captors.2 ⟨hpending, ha⟩)]
    · rw [List.count_eq_zero_of_not_mem ha, Finset.erase_eq_of_notMem, Nat.sub_zero]
      exact fun hmem => ha (mem_captors.1 hmem).2

/-- While a handle lets go of what its thread looked at, each symbol is still held when its turn
comes. -/
theorem Balanced.unfreeze_ok (h : t.Balanced) {before after : List SymbolId} {a : SymbolId}
    (hargs : (marked.symbol id).frozenArgs = before ++ a :: after) :
    ∃ s, ((before.foldl Table.release marked).symbol a).unfreeze = .ok s := by
  rw [frozenArgs_marked hm] at hargs
  have hn := h.nodup id
  rw [hargs] at hn
  -- no symbol comes twice in the list, so its turn has not come before
  have hbefore : a ∉ before := fun ha =>
    (List.nodup_append.1 hn).2.2 a ha a List.mem_cons_self rfl
  have hcaptor : id ∈ t.captors a := mem_captors.2 ⟨(symbol_marked hm).1, by simp [hargs]⟩
  have hpos : ((before.foldl Table.release marked).symbol a).freezeCount ≠ 0 := by
    rw [symbol_foldl_release, freezeCount_marked hm, List.count_eq_zero_of_not_mem hbefore,
      h.count a]
    exact Finset.card_ne_zero_of_mem hcaptor
  exact ⟨_, by rw [Symbol.unfreeze, if_neg hpos]⟩

end Wait

/-! ### All runs -/

/-- Each step keeps tables balanced. -/
theorem balanced_invariant : Table.Invariant fun _ t => t.Balanced where
  declare _ h name type q := (SameThreads.addQualified name type _ q).balanced h
  spawn {_ t bound id frozen} hw h hd hb hn hv := by
    refine h.spawn (hd.lt hw) hb (fun a ha => ?_) hn
    obtain ⟨name, hl⟩ := hv a ha
    rw [(SameButThreads.bind hb).lookup_eq] at hl
    exact hw.lookup_lt hl
  function _ h name type modifier declared :=
    (SameThreads.addFunction name type modifier declared).balanced h
  space _ h _ ha := (SameThreads.addNamespace ha).balanced h
  member _ h ha := (SameThreads.addFunctionToNamespace ha).balanced h
  wait _ h hv := by
    obtain ⟨-, marked, hm, rfl⟩ := syncVariable_eq_ok hv
    exact h.release hm
  pushScope _ h := SameThreads.pushScope.balanced h
  round name type _ h := (SameThreads.pushScope.trans (.add name type .param)).balanced h
  frame params _ h :=
    ((SameThreads.pushFrame.trans (.addParams params)).trans .alignLocals).balanced h
  popScope _ _ _ h := SameThreads.popScope.balanced h
  popFrame _ _ h := SameThreads.popScope.balanced h
  enterRegion h := SameThreads.enterRegion.balanced h
  exitRegion h := SameThreads.exitRegion.balanced h

/-- Without symbols there is nothing to count. -/
theorem balanced_empty : empty.Balanced := by
  have hs : ∀ a, empty.symbol a = .fresh "" .nil .global 0 := fun a =>
    symbol_of_size_le (by simp [empty])
  refine ⟨fun h => ?_, fun h a ha => ?_, fun a => ?_⟩
  · rw [hs]
    exact .nil
  · rw [hs] at ha
    cases ha
  · rw [hs]
    rfl

/-- A new checker has declared one function, which takes part in no thread. -/
theorem balanced_initial (d : Nat) : (Checker.initial d).table.Balanced :=
  (SameThreads.addFunction _ _ _ _).balanced balanced_empty

end Table

/-- In every state of every run, a symbol is frozen as often as there are pending handles whose
threads look at it, and a thread looks at a symbol once.  So a symbol is frozen exactly while a
pending handle captures it, and waiting for a thread never lets go of a symbol that is not held. -/
theorem freezeCount_eq_card_captors {roots : List ScopeId} {s : Checker} (h : Reachable roots s) :
    (∀ a, (s.table.symbol a).freezeCount = (s.table.captors a).card) ∧
    (∀ id, (s.table.symbol id).frozenArgs.Nodup) ∧
    (∀ a, (s.table.symbol a).isFrozen ↔
      ∃ id, (s.table.symbol id).isPending ∧ a ∈ (s.table.symbol id).frozenArgs) ∧
    (∀ id marked, s.table.transition id Symbol.markSynchronized = .ok marked →
      ∀ before a after, (marked.symbol id).frozenArgs = before ++ a :: after →
        ((before.foldl Table.release marked).symbol a).unfreeze ≠ .error .notFrozen) := by
  have hb : s.table.Balanced := (Table.balanced_invariant.reachable Table.balanced_initial h).holds
  refine ⟨hb.count, hb.nodup, fun a => ?_, fun id marked hm before a after hargs => ?_⟩
  · rw [Symbol.isFrozen, decide_eq_true_eq, hb.count a, Finset.card_pos]
    exact exists_congr fun id => Table.mem_captors
  · obtain ⟨symbol, hok⟩ := hb.unfreeze_ok hm hargs
    rw [hok]
    exact nofun

/-- Two threads look at one array, which is frozen twice. -/
theorem freezeCount_eq_card_captors_shared :
    Reachable [] (Sample.after [Sample.sum, Sample.data, Sample.start "a", Sample.start "b"]) ∧
      ((Sample.after [Sample.sum, Sample.data, Sample.start "a", Sample.start "b"]).table.captors
        3).card = 2 := by
  have h := Sample.reachable_after [Sample.sum, Sample.data, Sample.start "a", Sample.start "b"]
  refine ⟨h, ?_⟩
  rw [← (freezeCount_eq_card_captors h).1 3]
  decide +kernel

end ThreadRegions
