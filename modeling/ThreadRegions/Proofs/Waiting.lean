import ThreadRegions.Proofs.Freeze

/-!
# What ends a pending thread

A handle stays pending until it is waited for.  The walk goes through a program once, from top to
bottom, and a wait counts wherever the walk gets to it: in a branch, in the body of a loop, and in
the body of a function or a lambda.

## Main Definitions

* `Point.HasWait`: a handle is waited for inside of a point

## Main Results

* `hasWait_of_not_pending`: a handle that was pending and is not any more has been waited for
* `not_pending_of_inside`: wherever a handle is waited for, it is not pending afterwards
-/

namespace ThreadRegions

open CheckM

/-! ### Waits inside of points -/

/-- The thread of the handle is waited for somewhere inside of the point. -/
def Point.HasWait (p : Point) (id : SymbolId) : Prop :=
  ∃ r name, p.Inside r ∧ r.visit = .wait id name

theorem Point.HasWait.of_part {p : Point} {q : Part} {id : SymbolId} (hq : q ∈ p.parts)
    (h : q.toPoint.HasWait id) : p.HasWait id := by
  obtain ⟨r, name, hr, hv⟩ := h
  exact ⟨r, name, .part hq hr, hv⟩

/-! ### Staying pending -/

namespace Table

/-- A handle that is pending stays so. -/
def StaysPending (id : SymbolId) (t t' : Table) : Prop :=
  (t.symbol id).isPending → (t'.symbol id).isPending

theorem SameThreads.staysPending {t t' : Table} (h : t.SameThreads t') (id : SymbolId) :
    StaysPending id t t' := by
  intro hp
  have hid := congrArg Prod.fst (h.threads id)
  rw [Symbol.isPending] at hp ⊢
  rwa [show (t'.symbol id).state = (t.symbol id).state from hid]

theorem staysPending_spawn {t bound : Table} {other : SymbolId} {frozen : List SymbolId}
    (hother : other < t.symbols.size)
    (hb : t.transition other (fun s => s.rebind.bind Symbol.markPending) = .ok bound)
    (hlt : ∀ a ∈ frozen, a < t.symbols.size) (id : SymbolId) :
    StaysPending id t (bound.looksAt other frozen) := by
  intro hp
  by_cases hid : id = other
  · subst hid
    have hnot := (symbol_looksAt_self hother hb hlt).1
    exact absurd (by simpa [Symbol.isPending] using hp) hnot
  · rw [symbol_looksAt_of_ne hb hlt hid]
    exact hp

/-- Waiting for another thread leaves a handle alone. -/
theorem staysPending_wait {t t' : Table} {name : String} {id other : SymbolId}
    (hv : t.syncVariable name = .ok (t', other)) (hne : id ≠ other) : StaysPending id t t' := by
  obtain ⟨-, marked, hm, rfl⟩ := syncVariable_eq_ok hv
  intro hp
  rw [symbol_foldl_release, (symbol_marked hm).2, if_neg hne]
  exact hp

/-- Waiting for the thread of a handle. -/
theorem not_isPending_syncVariable {t t' : Table} {name : String} {id : SymbolId}
    (hv : t.syncVariable name = .ok (t', id)) : ¬ (t'.symbol id).isPending := by
  obtain ⟨-, marked, hm, rfl⟩ := syncVariable_eq_ok hv
  rw [symbol_foldl_release, (symbol_marked hm).2, if_pos rfl]
  exact Bool.false_ne_true

/-- No step but waiting ends a thread. -/
theorem quiet_staysPending (id : SymbolId) : Table.Quiet (StaysPending id) (StaysPending id) where
  refl _ hp := hp
  trans h₁ h₂ hp := h₂ (h₁ hp)
  ofExpr h := h
  stmtTrans h₁ h₂ hp := h₂ (h₁ hp)
  declare _ _ name type q := (SameThreads.addQualified name type _ q).staysPending id
  spawn {t bound other frozen} _ hw hd hb _ hv := by
    refine staysPending_spawn (hd.lt hw) hb (fun a ha => ?_) id
    obtain ⟨name, hl⟩ := hv a ha
    rw [(SameButThreads.bind hb).lookup_eq] at hl
    exact hw.lookup_lt hl
  function _ _ name type modifier declared :=
    (SameThreads.addFunction name type modifier declared).staysPending id
  space _ _ _ ha := (SameThreads.addNamespace ha).staysPending id
  member _ _ ha := (SameThreads.addFunctionToNamespace ha).staysPending id
  scope _ _ _ _ _ hr hp :=
    SameThreads.popScope.staysPending id (hr (SameThreads.pushScope.staysPending id hp))
  round name type _ _ _ _ _ hr hp := by
    refine SameThreads.popScope.staysPending id (hr ?_)
    exact (SameThreads.pushScope.trans (.add name type .param)).staysPending id hp
  frame params _ _ _ _ _ hr hp := by
    refine SameThreads.popScope.staysPending id (hr ?_)
    exact ((SameThreads.pushFrame.trans (.addParams params)).trans .alignLocals).staysPending id hp
  region hr hp :=
    SameThreads.exitRegion.staysPending id (hr (SameThreads.enterRegion.staysPending id hp))
  stmtRegion hr hp :=
    SameThreads.exitRegion.staysPending id (hr (SameThreads.enterRegion.staysPending id hp))

end Table

/-! ### Waiting -/

/-- A handle that is waited for is not pending afterwards. -/
theorem not_isPending_syncPending {s : Checker} {id : SymbolId} {name : String}
    (hl : s.table.lookup name = some id) :
    ¬ (((syncPending id name).after s).table.symbol id).isPending := by
  by_cases hp : (s.table.symbol id).isPending
  · obtain ⟨t', hv⟩ := Table.syncVariable_of_pending hl hp
    rw [table_syncPending_of_pending s hp, hv]
    exact Table.not_isPending_syncVariable hv
  · rwa [table_syncPending_of_not_pending s hp]

/-- A handle that is not waited for inside of a point stays pending. -/
theorem staysPending_of_not_hasWait {id : SymbolId} {p : Point} (hfound : p.visit.Found p.state)
    (hwait : ¬ p.HasWait id) :
    p.Holds (fun s s' => Table.Evolves (Table.StaysPending id) s.table s'.table)
      (fun s s' => Table.Evolves (Table.StaysPending id) s.table s'.table) := by
  -- parts walk over smaller trees
  induction hn : p.visit.size using Nat.strongRecOn generalizing p with
  | ind n ih =>
    refine (Table.quiet_staysPending id).toStable.point (fun q hq => ?_) fun other name hv => ?_
    · refine ih _ (hn ▸ (mem_parts hq).size_lt) (mem_parts hq).found (fun h => ?_) rfl
      exact hwait (h.of_part hq)
    · have hne : id ≠ other := by
        rintro rfl
        exact hwait ⟨p, name, .refl p, hv⟩
      obtain ⟨s, v⟩ := p
      cases hv
      have hl : s.table.lookup name = some other := hfound
      refine (sameButThreads_syncPending s other name).evolves fun _ => ?_
      show Table.StaysPending id s.table ((syncPending other name).after s).table
      rcases table_syncPending s other name with ht | ⟨t', a, hv, ht⟩
      · rw [ht]
        exact fun hp => hp
      -- the name of another handle does not stand for this one
      · obtain rfl := Option.some.inj (hl.symm.trans (Table.syncVariable_eq_ok hv).1)
        rw [ht]
        exact Table.staysPending_wait hv hne

/-- A handle that was pending before a statement and is not any more has been waited for inside of
the statement. -/
theorem hasWait_of_not_pending {s : Checker} (hw : s.table.WellFormed) {ret : Ty} {st : Stmt}
    {id : SymbolId} (hp : (s.table.symbol id).isPending)
    (hafter : ¬ (((checkStmt ret st).after s).table.symbol id).isPending) :
    (Point.mk s (.stmt ret st)).HasWait id := by
  by_contra hwait
  obtain ⟨-, -, -, hstays⟩ := staysPending_of_not_hasWait (p := ⟨s, .stmt ret st⟩) trivial hwait hw
  exact hafter (hstays hp)

/-- Wherever a handle is waited for inside of a statement, it is not pending afterwards. -/
theorem not_pending_of_inside {s : Checker} {ret : Ty} {st : Stmt} {r : Point} {id : SymbolId}
    {name : String} (hr : (Point.mk s (.stmt ret st)).Inside r) (hv : r.visit = .wait id name) :
    ¬ (r.after.table.symbol id).isPending := by
  have hfound := hr.found trivial
  obtain ⟨s', v⟩ := r
  cases hv
  exact not_isPending_syncPending hfound

end ThreadRegions
