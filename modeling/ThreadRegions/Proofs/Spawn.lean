import ThreadRegions.Proofs.WellFormed

/-!
# Starting a thread

What binding a variable to a thread does to the checker, and which symbols the thread looks at.

## Main Results

* `mem_sharedArgs`, `nodup_sharedArgs`: the symbols that a thread looks at, each of them once
* `recordSpawn_error`, `recordSpawn_ok`: the two ways in which a thread is bound to a variable
* `table_recordSpawn`: what happens to the table
-/

namespace ThreadRegions

/-! ### The symbols that a thread looks at -/

/-- A symbol that is known already is not added again. -/
theorem nodup_sharedArgs (t : Table) (quals : Option (List Qualifier)) (args : List Expr)
    {index : Nat} {known : List SymbolId} (h : known.Nodup) :
    (sharedArgs t quals index known args).Nodup := by
  induction args generalizing index known with
  | nil => exact h
  | cons arg others ih =>
    unfold sharedArgs
    split
    · next id _ =>
      refine ih ?_
      split
      · exact h
      · next hid =>
        refine List.nodup_append.2 ⟨h, by simp, fun a ha b hb => ?_⟩
        rintro rfl
        exact hid (List.contains_iff_mem.2 (List.mem_singleton.1 hb ▸ ha))
    · exact ih h

/-- A thread looks at a symbol if one of its arguments stands for it. -/
theorem mem_sharedArgs {t : Table} {quals : Option (List Qualifier)} {args : List Expr}
    {index : Nat} {known : List SymbolId} {a : SymbolId} :
    a ∈ sharedArgs t quals index known args ↔
      a ∈ known ∨ ∃ i arg, args[i]? = some arg ∧
        sharedArg? t (Ty.qualifierAt quals (index + i)) arg = some a := by
  induction args generalizing index known with
  | nil => simp [sharedArgs]
  | cons arg others ih =>
    -- the first argument has number `index`, and argument `i` of the others number `index + 1 + i`
    have hsplit : (∃ i arg', (arg :: others)[i]? = some arg' ∧
        sharedArg? t (Ty.qualifierAt quals (index + i)) arg' = some a) ↔
          sharedArg? t (Ty.qualifierAt quals index) arg = some a ∨
            ∃ i arg', others[i]? = some arg' ∧
              sharedArg? t (Ty.qualifierAt quals (index + 1 + i)) arg' = some a := by
      constructor
      · rintro ⟨i, arg', hi, ha⟩
        cases i with
        | zero =>
          cases hi
          exact .inl ha
        | succ i => exact .inr ⟨i, arg', hi, by rwa [Nat.add_right_comm, Nat.add_assoc]⟩
      · rintro (ha | ⟨i, arg', hi, ha⟩)
        · exact ⟨0, arg, rfl, ha⟩
        · exact ⟨i + 1, arg', hi, by rwa [Nat.add_right_comm, Nat.add_assoc] at ha⟩
    rw [hsplit, sharedArgs]
    split
    · next id hid =>
      have hk : a ∈ (if known.contains id then known else known ++ [id]) ↔ a ∈ known ∨ id = a := by
        by_cases hc : id ∈ known
        · simp only [List.contains_iff_mem, hc, if_true]
          exact ⟨.inl, fun h => h.elim (·) fun h => h ▸ hc⟩
        · simp [hc, eq_comm]
      rw [ih, hk, hid, Option.some.injEq, or_assoc]
    · next hnone => rw [ih, hnone]; simp

/-- The symbol that an argument stands for is the one that its name is found as. -/
theorem sharedArg?_eq_some {t : Table} {q : Qualifier} {arg : Expr} {a : SymbolId} :
    sharedArg? t q arg = some a ↔ ∃ name, arg.name? = some name ∧ t.lookup name = some a ∧
      (q = .asRef ∨ (t.symbol a).type.isHeap) := by
  simp only [sharedArg?, Option.filter_eq_some_iff, Option.bind_eq_some_iff, Bool.or_eq_true,
    decide_eq_true_eq]
  constructor
  · rintro ⟨⟨name, hn, hl⟩, hq⟩
    exact ⟨name, hn, hl, hq⟩
  · rintro ⟨name, hn, hl, hq⟩
    exact ⟨⟨name, hn, hl⟩, hq⟩

/-! ### Binding a variable to a thread -/

/-- The symbols that a call as a thread freezes, for a table in place of the one of the checker. -/
def Checker.frozenByIn (s : Checker) (t : Table) (callee : Expr) (args : List Expr) :
    List SymbolId :=
  (s.onLedger fun l => { l with table := t }).frozenBy callee args

theorem Checker.nodup_frozenByIn (s : Checker) (t : Table) (callee : Expr) (args : List Expr) :
    (s.frozenByIn t callee args).Nodup := by
  simp only [frozenByIn, frozenBy]
  split
  · exact .nil
  · exact nodup_sharedArgs _ _ _ .nil

/-- Only what a name stands for is frozen. -/
theorem Checker.lookup_of_mem_frozenByIn {s : Checker} {t : Table} {callee : Expr}
    {args : List Expr} {a : SymbolId} (ha : a ∈ s.frozenByIn t callee args) :
    ∃ name, t.lookup name = some a := by
  simp only [frozenByIn, frozenBy] at ha
  split at ha
  · cases ha
  · rcases mem_sharedArgs.1 ha with ha | ⟨i, arg, -, ha⟩
    · cases ha
    · obtain ⟨name, -, hl, -⟩ := sharedArg?_eq_some.1 ha
      exact ⟨name, hl⟩

namespace CheckM

variable {s : Checker} {id : SymbolId} {position : Position}

/-- A variable that stands for a thread which may still run is not bound again. -/
theorem recordSpawn_error {n m : Node} {callee : Expr} {args : List Expr} {mode : Option Modifier}
    {e : ThreadError}
    (h : s.table.transition id (fun s => s.rebind.bind Symbol.markPending) = .error e) :
    ((recordSpawn id (.spawn n (.call m callee args) mode) position).after s).table = s.table ∧
      (recordSpawn id (.spawn n (.call m callee args) mode) position).answer s =
        some ⟨.pendingHandleReassign (s.table.symbol id).name, position⟩ := by
  simp [recordSpawn, h]

/-- Otherwise the variable is marked, and what the thread looks at is frozen. -/
theorem recordSpawn_ok {n m : Node} {callee : Expr} {args : List Expr} {mode : Option Modifier}
    {bound : Table}
    (h : s.table.transition id (fun s => s.rebind.bind Symbol.markPending) = .ok bound) :
    ((recordSpawn id (.spawn n (.call m callee args) mode) position).after s).table =
        bound.looksAt id (s.frozenByIn bound callee args) ∧
      (recordSpawn id (.spawn n (.call m callee args) mode) position).answer s = none := by
  simp only [recordSpawn, after_bind, answer_bind, answer_table, after_table, h]
  exact ⟨rfl, rfl⟩

theorem recordSpawn_of_not_spawn {e : Expr}
    (h : ∀ n m callee args mode, e ≠ .spawn n (.call m callee args) mode) :
    (recordSpawn id e position).after s = s := by
  unfold recordSpawn
  split
  · exact absurd rfl (h _ _ _ _ _)
  · rfl

/-- Binding a variable to a thread leaves the table alone, or marks the variable and freezes symbols
that can be seen. -/
theorem table_recordSpawn (s : Checker) (id : SymbolId) (e : Expr) (position : Position) :
    ((recordSpawn id e position).after s).table = s.table ∨
      ∃ bound frozen,
        s.table.transition id (fun s => s.rebind.bind Symbol.markPending) = .ok bound ∧
        frozen.Nodup ∧ (∀ a ∈ frozen, ∃ name, bound.lookup name = some a) ∧
        ((recordSpawn id e position).after s).table = bound.looksAt id frozen := by
  by_cases h : ∃ n m callee args mode, e = .spawn n (.call m callee args) mode
  · obtain ⟨n, m, callee, args, mode, rfl⟩ := h
    cases hb : s.table.transition id (fun s => s.rebind.bind Symbol.markPending) with
    | error e => exact .inl (recordSpawn_error hb).1
    | ok bound =>
      exact .inr ⟨bound, s.frozenByIn bound callee args, rfl, s.nodup_frozenByIn bound callee args,
        fun a ha => Checker.lookup_of_mem_frozenByIn ha, (recordSpawn_ok hb).1⟩
  · refine .inl (congrArg (fun s : Checker => s.table) (recordSpawn_of_not_spawn ?_))
    intro n m callee args mode he
    exact h ⟨n, m, callee, args, mode, he⟩

end CheckM

end ThreadRegions
