import ThreadRegions.Proofs.AcceptExpr
import ThreadRegions.Proofs.Freeze

/-!
# Waiting for several threads at once

The expression `[a, b]!` waits for the threads of all its variables.  It goes through the list
twice.  The first pass finds the symbol of each variable and asks that it stand for a thread, and
the second pass waits for those threads that may still run.  The second pass looks up the variables
once more, by name, and a variable that is listed twice is met for the second time when its thread
has been waited for already.

So the effect of the whole is that of one step on the set of the listed handles: each of them has
been waited for, and a symbol is let go of once for each of them that was pending and held it.

## Main Definitions

* `ThreadState.ended`: the state of a handle whose thread has ended
* `Table.WaitsFor`: what waiting for some handles makes of a table

## Main Results

* `Table.WaitsFor.append`: waiting for some handles and then for others
* `waitsFor_syncHandles`: what the second pass does
* `checkExpr_syncMany`: either nothing happens to the table, or all handles have been waited for
-/

namespace ThreadRegions

open CheckM

/-- The state of a handle once its thread has ended.  A variable that stands for no thread stays
one. -/
def ThreadState.ended : ThreadState → ThreadState
  | pending => synchronized
  | other => other

theorem ThreadState.ended_of_ne_normal {state : ThreadState} (h : state ≠ normal) :
    state.ended = synchronized := by
  cases state with
  | normal => exact absurd rfl h
  | pending => rfl
  | synchronized => rfl

namespace Table

/-- The second table is the first one, once the threads of the given handles have ended: a symbol is
held by as many handles fewer as there were pending ones among them that held it. -/
structure WaitsFor (t t' : Table) (ids : List SymbolId) : Prop where
  scopes : t'.scopes = t.scopes
  inner : t'.inner = t.inner
  region : t'.region = t.region
  size : t'.symbols.size = t.symbols.size
  symbol : ∀ a, t'.symbol a =
    { t.symbol a with
      state := if a ∈ ids then (t.symbol a).state.ended else (t.symbol a).state
      freezeCount := (t.symbol a).freezeCount - ((t.captors a).filter (· ∈ ids)).card }

namespace WaitsFor

variable {t t₁ t₂ : Table} {ids others : List SymbolId}

theorem nil (t : Table) : t.WaitsFor t [] where
  scopes := rfl
  inner := rfl
  region := rfl
  size := rfl
  symbol a := by simp

/-- The handles that have been waited for are not pending any more. -/
theorem isPending (h : t.WaitsFor t₁ ids) (a : SymbolId) :
    (t₁.symbol a).isPending ↔ (t.symbol a).isPending ∧ a ∉ ids := by
  rw [h.symbol a]
  by_cases ha : a ∈ ids
  · cases hs : (t.symbol a).state <;> simp [Symbol.isPending, ha, hs, ThreadState.ended]
  · simp [Symbol.isPending, ha]

/-- The handles that have been waited for capture nothing any more. -/
theorem captors_eq (h : t.WaitsFor t₁ ids) (a : SymbolId) :
    t₁.captors a = (t.captors a).filter (· ∉ ids) := by
  ext id
  have hargs : (t₁.symbol id).frozenArgs = (t.symbol id).frozenArgs := by rw [h.symbol id]
  rw [Finset.mem_filter, mem_captors, mem_captors, h.isPending, hargs]
  exact and_right_comm

/-- Waiting for some handles and then for others is waiting for all of them.  A handle among the
others that has been waited for already does not count again. -/
theorem append (h : t.WaitsFor t₁ ids) (h' : t₁.WaitsFor t₂ others) :
    t.WaitsFor t₂ (ids ++ others) where
  scopes := h'.scopes.trans h.scopes
  inner := h'.inner.trans h.inner
  region := h'.region.trans h.region
  size := h'.size.trans h.size
  symbol a := by
    have hcount :
        ((t.captors a).filter (· ∈ ids)).card + ((t₁.captors a).filter (· ∈ others)).card =
          ((t.captors a).filter (· ∈ ids ++ others)).card := by
      -- the handles that count the second time are among the others and not among the first
      rw [h.captors_eq, Finset.filter_filter, ← Finset.card_union_of_disjoint, ← Finset.filter_or]
      · congr 1
        apply Finset.filter_congr
        intro id _
        rw [List.mem_append]
        tauto
      · rw [Finset.disjoint_filter]
        intro id _ hid hother
        exact hother.1 hid
    have hstate : (if a ∈ ids ++ others then (t.symbol a).state.ended else (t.symbol a).state) =
        (t₂.symbol a).state := by
      rw [h'.symbol a, h.symbol a]
      by_cases ha : a ∈ ids <;> by_cases hother : a ∈ others <;>
        cases (t.symbol a).state <;> simp [ha, hother, ThreadState.ended]
    rw [← hcount, ← Nat.sub_sub, hstate, h'.symbol a, h.symbol a]

end WaitsFor

/-- A handle that does not hold a symbol makes no difference to it. -/
theorem filter_captors_eq_empty {t : Table} {a id : SymbolId} (h : id ∉ t.captors a) :
    (t.captors a).filter (· ∈ [id]) = ∅ := by
  apply Finset.filter_false_of_mem
  intro held hheld heq
  rw [List.mem_singleton] at heq
  exact h (heq ▸ hheld)

/-- Waiting for the thread of a pending handle.  A thread looks at a symbol at most once, so it
holds the symbol at most once. -/
theorem waitsFor_syncVariable {t t' : Table} {name : String} {id : SymbolId} (hb : t.Balanced)
    (hv : t.syncVariable name = .ok (t', id)) : t.WaitsFor t' [id] := by
  have hsame := sameButThreads_syncVariable hv
  obtain ⟨-, marked, hm, rfl⟩ := syncVariable_eq_ok hv
  obtain ⟨hpending, hsymbol⟩ := symbol_marked hm
  refine ⟨hsame.scopes, hsame.inner, hsame.region, hsame.size, fun a => ?_⟩
  have hcount : (t.symbol id).frozenArgs.count a = ((t.captors a).filter (· ∈ [id])).card := by
    -- the handle holds the symbol once or not at all
    by_cases ha : a ∈ (t.symbol id).frozenArgs
    · have hfilter : (t.captors a).filter (· ∈ [id]) = {id} := by
        ext h
        rw [Finset.mem_filter, Finset.mem_singleton, List.mem_singleton]
        refine ⟨fun hh => hh.2, fun hh => ⟨?_, hh⟩⟩
        rw [hh]
        exact mem_captors.2 ⟨hpending, ha⟩
      rw [List.count_eq_one_of_mem (hb.nodup id) ha, hfilter, Finset.card_singleton]
    · have hfilter := filter_captors_eq_empty fun hh => ha (mem_captors.1 hh).2
      rw [List.count_eq_zero_of_not_mem ha, hfilter, Finset.card_empty]
  rw [symbol_foldl_release, frozenArgs_marked hm, hcount, hsymbol]
  by_cases ha : a = id
  · subst ha
    have hended : (t.symbol a).state.ended = .synchronized :=
      ThreadState.ended_of_ne_normal (by simp [of_decide_eq_true hpending])
    simp [hended]
  · simp [ha]

end Table

/-! ### The second pass -/

/-- Waiting for the thread of one handle, unless it has been waited for. -/
theorem waitsFor_syncPending {s : Checker} {id : SymbolId} {name : String}
    (hb : s.table.Balanced) (hl : s.table.lookup name = some id) :
    s.table.WaitsFor ((syncPending id name).after s).table [id] ∧
      ((syncPending id name).after s).table.Balanced := by
  by_cases hp : (s.table.symbol id).isPending
  · obtain ⟨t', hv⟩ := Table.syncVariable_of_pending hl hp
    rw [table_syncPending_of_pending s hp, hv]
    refine ⟨Table.waitsFor_syncVariable hb hv, ?_⟩
    obtain ⟨-, marked, hm, rfl⟩ := Table.syncVariable_eq_ok hv
    exact hb.release hm
  · rw [table_syncPending_of_not_pending s hp]
    refine ⟨⟨rfl, rfl, rfl, rfl, fun a => ?_⟩, hb⟩
    have hfilter : (s.table.captors a).filter (· ∈ [id]) = ∅ :=
      Table.filter_captors_eq_empty fun hh => hp (Table.mem_captors.1 hh).1
    have hstate : (if a ∈ [id] then (s.table.symbol a).state.ended else (s.table.symbol a).state) =
        (s.table.symbol a).state := by
      split
      · next ha =>
        rw [List.mem_singleton.1 ha]
        cases hs : (s.table.symbol id).state with
        | pending => exact absurd (decide_eq_true hs) hp
        | normal => rfl
        | synchronized => rfl
      · rfl
    rw [hfilter, hstate]
    rfl

/-- Waiting for the threads of several handles, one after the other.  What a name stands for does
not change on the way, so each handle is found again. -/
theorem waitsFor_syncHandles (handles : List (Expr × SymbolId)) {s : Checker}
    (hb : s.table.Balanced)
    (hl : ∀ x ∈ handles, s.table.lookup (x.1.name?.getD "") = some x.2) :
    s.table.WaitsFor ((syncHandles handles).after s).table (handles.map Prod.snd) := by
  induction handles generalizing s with
  | nil => exact .nil _
  | cons first others ih =>
    obtain ⟨handle, id⟩ := first
    obtain ⟨hfirst, hothers⟩ := List.forall_mem_cons.1 hl
    obtain ⟨hwaits, hbalanced⟩ := waitsFor_syncPending hb hfirst
    refine hwaits.append (ih hbalanced fun x hx => ?_)
    rw [(sameButThreads_syncPending s id _).lookup_eq]
    exact hothers x hx

/-- A handle has been bound to a thread. -/
theorem Table.state_ne_normal {t : Table} {handles : List Expr} {ids : List SymbolId}
    (h : List.Forall₂ t.IsHandle handles ids) : ∀ id ∈ ids, (t.symbol id).state ≠ .normal := by
  induction h with
  | nil => nofun
  | cons hfirst _ ih =>
    obtain ⟨n, name, -, -, hne⟩ := hfirst
    exact List.forall_mem_cons.2 ⟨hne, ih⟩

/-! ### Both passes -/

section

variable {s : Checker} (node m : Node) {handles : List Expr}

theorem syncMany_of_error {d : Diagnostic}
    (h : (resolveHandles node.span.start handles).answer s = .error d) :
    ((syncMany node (.array m handles)).answer s).type = .error d ∧
      ((syncMany node (.array m handles)).after s).table = s.table := by
  have hstart : (Expr.sync node (.array m handles) true).start = node.span.start := rfl
  simp only [syncMany, hstart, answer_bind, after_bind, h]
  exact ⟨rfl, table_resolveHandles _ _ _⟩

theorem syncMany_of_ok {ids : List SymbolId} (hb : s.table.Balanced)
    (h : (resolveHandles node.span.start handles).answer s = .ok ids) :
    ((syncMany node (.array m handles)).answer s).type = .ok .void ∧
      s.table.WaitsFor ((syncMany node (.array m handles)).after s).table ids := by
  have hstart : (Expr.sync node (.array m handles) true).start = node.span.start := rfl
  have htable := table_resolveHandles node.span.start handles s
  have hlookup := lookup_of_resolveHandles h
  rw [← htable] at hb hlookup
  have hwaits := waitsFor_syncHandles (handles.zip ids) hb hlookup
  have hlength := (resolveHandles_eq_ok_iff.1 h).length_eq
  rw [htable, List.map_snd_zip (Nat.le_of_eq hlength.symm)] at hwaits
  simp only [syncMany, hstart, answer_bind, after_bind, h]
  exact ⟨rfl, hwaits⟩

end

/-- Waiting for several threads at once succeeds exactly if every listed expression is a variable
that stands for a thread.  If it does not, the table stays as it is.  If it does, it has no value,
all listed handles have been waited for, and every symbol is held by exactly as many handles fewer
as there were pending ones among those listed that held it, each of them counted once.  Nothing else
is different in the table. -/
theorem checkExpr_syncMany {roots : List ScopeId} {s : Checker} (h : Reachable roots s)
    (hint : Option Ty) (span : Span) (m : Node) (handles : List Expr) :
    let check := checkExpr hint (.sync (.at span) (.array m handles) true)
    let t' := (check.after s).table
    ((∃ type, (check.answer s).type = .ok type) ↔
      ∃ ids, List.Forall₂ s.table.IsHandle handles ids) ∧
    (∀ d, (check.answer s).type = .error d → t' = s.table) ∧
    ∀ type, (check.answer s).type = .ok type → type = .void ∧
      ∃ ids, List.Forall₂ s.table.IsHandle handles ids ∧
        (∀ id ∈ ids, (t'.symbol id).state = .synchronized) ∧
        (∀ a, (t'.symbol a).freezeCount + ((s.table.captors a).filter (· ∈ ids)).card =
          (s.table.symbol a).freezeCount) ∧
        s.table.WaitsFor t' ids := by
  have hb : s.table.Balanced := (Table.balanced_invariant.reachable Table.balanced_initial h).holds
  have hcheck : checkExpr hint (.sync (.at span) (.array m handles) true) =
      syncMany (.at span) (.array m handles) := by
    rw [checkExpr]
    rfl
  rw [hcheck]
  intro check t'
  cases hids : (resolveHandles span.start handles).answer s with
  | error d =>
    obtain ⟨hans, htable⟩ := syncMany_of_error (.at span) m hids
    refine ⟨⟨?_, ?_⟩, fun _ _ => htable, ?_⟩
    · rintro ⟨type, hok⟩
      cases hok.symm.trans hans
    · rintro ⟨ids, hhandles⟩
      cases hids.symm.trans (resolveHandles_eq_ok_iff.2 hhandles)
    · intro type hok
      cases hok.symm.trans hans
  | ok ids =>
    obtain ⟨hans, hwaits⟩ := syncMany_of_ok (.at span) m hb hids
    have hhandles := resolveHandles_eq_ok_iff.1 hids
    refine ⟨⟨fun _ => ⟨ids, hhandles⟩, fun _ => ⟨.void, hans⟩⟩, ?_, ?_⟩
    · intro d herror
      cases herror.symm.trans hans
    · intro type hok
      cases hok.symm.trans hans
      refine ⟨rfl, ids, hhandles, ?_, ?_, hwaits⟩
      · intro id hid
        rw [hwaits.symbol id, if_pos hid]
        exact ThreadState.ended_of_ne_normal (Table.state_ne_normal hhandles id hid)
      · intro a
        -- no symbol is held by more handles than it is frozen for
        have hle :
            ((s.table.captors a).filter (· ∈ ids)).card ≤ (s.table.symbol a).freezeCount := by
          rw [hb.count a]
          exact Finset.card_filter_le _ _
        rw [hwaits.symbol a]
        exact Nat.sub_add_cancel hle

namespace Sample

/-- The checker when three threads look at one array. -/
def threeThreads : Checker := after [sum, data, start "a", start "b", start "c"]

theorem isHandle_a : threeThreads.table.IsHandle (var "a") 4 :=
  ⟨.at span, "a", rfl, by decide +kernel, by decide +kernel⟩

theorem isHandle_b : threeThreads.table.IsHandle (var "b") 5 :=
  ⟨.at span, "b", rfl, by decide +kernel, by decide +kernel⟩

end Sample

/-- Two of three threads that look at one array are waited for, one of them twice.  The array is
then held by the third one only. -/
theorem checkExpr_syncMany_repeated :
    let check := checkExpr none (.sync (.at Sample.span)
      (.array (.at Sample.span) [Sample.var "a", Sample.var "b", Sample.var "a"]) true)
    Reachable [] Sample.threeThreads ∧ (Sample.threeThreads.table.symbol 3).freezeCount = 3 ∧
      (check.answer Sample.threeThreads).type = .ok .void ∧
      ((check.after Sample.threeThreads).table.symbol 3).freezeCount = 1 ∧
      ∃ ids, List.Forall₂ Sample.threeThreads.table.IsHandle
          [Sample.var "a", Sample.var "b", Sample.var "a"] ids ∧
        Sample.threeThreads.table.WaitsFor (check.after Sample.threeThreads).table ids := by
  have hs : Reachable [] Sample.threeThreads := Sample.reachable_after _
  obtain ⟨hsucceeds, -, hok⟩ := checkExpr_syncMany hs none Sample.span (.at Sample.span)
    [Sample.var "a", Sample.var "b", Sample.var "a"]
  have hhandles := List.Forall₂.cons Sample.isHandle_a
    (.cons Sample.isHandle_b (.cons Sample.isHandle_a .nil))
  obtain ⟨type, htype⟩ := hsucceeds.2 ⟨_, hhandles⟩
  obtain ⟨rfl, ids, hids, -, -, hwaits⟩ := hok type htype
  exact ⟨hs, by decide +kernel, htype, by decide +kernel, ids, hids, hwaits⟩

end ThreadRegions
