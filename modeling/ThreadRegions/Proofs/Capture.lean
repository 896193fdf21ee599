import ThreadRegions.Proofs.Freeze
import ThreadRegions.Proofs.Names
import ThreadRegions.Proofs.Report
import ThreadRegions.Proofs.Shape

/-!
# What a started thread captures

A declaration `var x = &f(a, b)` checks the call first, then declares `x`, and only then looks up
the arguments once more, by name, to freeze them.  An argument that is not called `x` is found again
as what it was.  An argument that is called `x` is found as the variable that has just been
declared, and whatever it stood for before is not frozen.

## Main Definitions

* `Table.seen`: what a name stands for once another name has been declared

## Main Results

* `lookup_addQualified`: what names stand for after a declaration
* `frozenArgs_declare_spawn`: exactly which symbols a declaration freezes
* `declare_spawn_misses_argument`: an array that a thread looks at and that is not frozen
-/

namespace ThreadRegions

open CheckM

namespace Table

/-! ### Names after a declaration -/

/-- What a name stands for, once `x` has been declared as the symbol `id`. -/
def seen (t : Table) (x : String) (id : SymbolId) (name : String) : Option SymbolId :=
  if name = x then some id else t.lookup name

/-- A declaration gives its name a meaning and leaves the other names alone. -/
theorem lookup_addQualified {t : Table} (hw : t.WellFormed) (x : String) (type : Ty)
    (kind : SymbolKind) (q : Qualifier) (name : String) :
    (t.addQualified x type kind q).1.lookup name =
      t.seen x (t.addQualified x type kind q).2 name := by
  have hopen : (t.addQualified x type kind q).1.open_ = t.current :: t.open_.tail := by
    rw [← open_eq_cons]
    exact open_eq_of_inner_eq (inner_addQualified ..)
  have hcurrent := findIn_addQualified_current hw x type kind q name
  have hrest : (t.addQualified x type kind q).1.lookupFrom t.open_.tail name =
      t.lookupFrom t.open_.tail name :=
    Untouched.lookupFrom_eq (fun c hc =>
      .addQualified hw (hw.ne_current_of_mem_tail hc) x type kind q) name
  rw [lookup_eq_lookupFrom, hopen, seen, lookup_eq_lookupFrom, t.open_eq_cons]
  unfold lookupFrom at hrest ⊢
  rw [List.findSome?_cons, List.findSome?_cons, hcurrent, List.tail_cons, hrest]
  by_cases hx : name = x
  · simp only [hx, if_true]
  · simp only [hx, if_false]

/-- A declaration gives its symbol a type and leaves the other types alone. -/
theorem type_addQualified {t : Table} (hw : t.WellFormed) (x : String) (type : Ty)
    (kind : SymbolKind) (q : Qualifier) (a : SymbolId) :
    ((t.addQualified x type kind q).1.symbol a).type =
      if a = (t.addQualified x type kind q).2 then type else (t.symbol a).type := by
  have hq : ((t.addQualified x type kind q).1.symbol a).type =
      ((t.add x type kind).1.symbol a).type :=
    view_modifySymbol Symbol.type rfl a
  rw [hq]
  unfold addQualified add
  split
  · next id hid =>
    by_cases ha : a = id
    · rw [if_pos ha, ha]
      exact congrArg Symbol.type (symbol_modifySymbol_self (hw.lookupCurrent_lt hid))
    · rw [if_neg ha]
      exact congrArg Symbol.type (symbol_modifySymbol_of_ne ha)
  · by_cases ha : a = t.symbols.size
    · rw [if_pos ha, ha]
      exact congrArg Symbol.type (symbol_pushSymbol_self _)
    · rw [if_neg ha]
      exact congrArg Symbol.type (symbol_pushSymbol_of_ne _ ha)

/-- A declaration freezes nothing. -/
theorem freezeCount_addQualified (t : Table) (x : String) (type : Ty) (kind : SymbolKind)
    (q : Qualifier) (a : SymbolId) :
    ((t.addQualified x type kind q).1.symbol a).freezeCount = (t.symbol a).freezeCount := by
  have h := (SameThreads.addQualified (t := t) x type kind q).threads a
  simp only [Symbol.threads, Prod.mk.injEq] at h
  exact h.2.1

end Table

/-! ### A declaration that starts a thread -/

/-- An initial value that starts a thread stays one. -/
theorem VariableHead.refine_spawn (head : VariableHead) (n : Node) (call : Expr)
    (mode : Option Modifier) :
    ∃ n', head.refine (some (.spawn n call mode)) = some (.spawn n' call mode) := by
  unfold VariableHead.refine
  split
  · next element _ =>
    simp only [Option.map_some, Option.some.injEq, Expr.refineArray]
    split
    · exact ⟨_, rfl⟩
    · split
      · exact ⟨_, rfl⟩
      · exact ⟨n, rfl⟩
    · exact ⟨n, rfl⟩
  · exact ⟨n, rfl⟩

/-- Apart from the table, only the builtin functions matter. -/
theorem Checker.frozenByIn_congr {s s' : Checker} (h : s'.builtins = s.builtins) (t : Table)
    (callee : Expr) (args : List Expr) :
    s'.frozenByIn t callee args = s.frozenByIn t callee args := by
  have hcalls : (s'.onLedger fun l => { l with table := t }).callsBuiltin callee =
      (s.onLedger fun l => { l with table := t }).callsBuiltin callee := by
    simp only [Checker.callsBuiltin, Checker.table_onLedger]
    show Option.any (fun id => s'.builtins.contains id) _ =
      Option.any (fun id => s.builtins.contains id) _
    rw [h]
  unfold frozenByIn frozenBy
  rw [hcalls]
  rfl

/-- A later state with the same errors has nothing reported in between. -/
theorem Checker.Reports.not_report {s s₁ : Checker} (h : s.Reports s₁) (d : Diagnostic) :
    ((CheckM.report d).after s₁).errors ≠ s.errors := by
  intro he
  have hlen : s.errors.length ≤ s₁.errors.length := h.errors.length_le
  have hlen' : ((CheckM.report d).after s₁).errors.length = s₁.errors.length + 1 :=
    List.length_append
  rw [he] at hlen'
  omega

/-- A thread is started and nothing is wrong: the variable is declared, marked, and the symbols that
its thread looks at are frozen. -/
theorem finishDeclare_spawn {s : Checker} {span : Span} {head : VariableHead} {n m : Node}
    {callee : Expr} {args : List Expr} {mode : Option Modifier}
    (he : ((finishDeclare span head (some (.spawn n (.call m callee args) mode))).after s).errors =
      s.errors) :
    ∃ type bound,
      (s.table.addQualified head.name type s.table.declarationKind head.qualifier).1.transition
        (s.table.addQualified head.name type s.table.declarationKind head.qualifier).2
          (fun s => s.rebind.bind Symbol.markPending) = .ok bound ∧
      ((finishDeclare span head (some (.spawn n (.call m callee args) mode))).after s).table =
        bound.looksAt
          (s.table.addQualified head.name type s.table.declarationKind head.qualifier).2
          (s.frozenByIn bound callee args) := by
  have hst := Checker.Reports.stable.toSteps
  unfold finishDeclare at he ⊢
  simp only [after_ite] at he ⊢
  -- a variable without a type is reported, so the declaration has one
  split at he
  · exact absurd he ((Checker.Reports.refl s).not_report _)
  · next hvoid =>
    simp only [hvoid, Bool.false_eq_true, if_false]
    obtain ⟨n', hrefine⟩ := head.refine_spawn n (.call m callee args) mode
    simp only [hrefine, after_bind, after_pure] at he ⊢
    generalize hinit : some (Expr.spawn n' (.call m callee args) mode) = init at he ⊢
    generalize htype : (inferType span head init).answer s = type at he ⊢
    -- up to here the variable has been declared, and possibly errors have been reported
    have hdeclared := declareTyped_eq ((inferType span head init).after s) span head type
    rw [table_inferType, Prod.mk.injEq] at hdeclared
    have hlater := ((hst.inferType (s := s) span head init).trans
      (hst.declareTyped span head type)).trans (hst.reportMismatch span type init)
    have htable := table_reportMismatch
      ((declareTyped span head type).after ((inferType span head init).after s)) span type init
    rw [hdeclared.1] at htable
    rw [hdeclared.2] at he ⊢
    generalize (reportMismatch span type init).after
      ((declareTyped span head type).after ((inferType span head init).after s)) = declared
      at he hlater htable ⊢
    subst hinit
    refine ⟨type, ?_⟩
    rw [← htable]
    simp only [recordInit, after_bind] at he ⊢
    cases hb : declared.table.transition
        (s.table.addQualified head.name type s.table.declarationKind head.qualifier).2
        (fun s => s.rebind.bind Symbol.markPending) with
    | error e =>
      rw [(recordSpawn_error hb).2] at he
      exact absurd he ((hlater.trans (.recordSpawn _ _ _)).not_report _)
    | ok bound =>
      refine ⟨bound, rfl, ?_⟩
      rw [table_reportAny, (recordSpawn_ok hb).1, Checker.frozenByIn_congr hlater.builtins]

/-- A thread that is started with the given arguments looks at the symbol: it is what a bare
variable among them stands for, and is passed by reference or lives in a region. -/
def LooksAt (resolve : String → Option SymbolId) (type : SymbolId → Ty)
    (quals : Option (List Qualifier)) (args : List Expr) (a : SymbolId) : Prop :=
  ∃ i name, args[i]?.bind Expr.name? = some name ∧ resolve name = some a ∧
    (Ty.qualifierAt quals i = .asRef ∨ (type a).isHeap)

/-- What a thread freezes: the symbols that it looks at, unless the function is a builtin one. -/
theorem mem_frozenByIn {s : Checker} {t : Table} {callee : Expr} {args : List Expr}
    {a : SymbolId} :
    a ∈ s.frozenByIn t callee args ↔
      ¬ ((callee.name?.bind t.lookup).any fun id => s.builtins.contains id) ∧
        LooksAt t.lookup (fun a => (t.symbol a).type) callee.calleeQualifiers args a := by
  have hcalls : (s.onLedger fun l => { l with table := t }).callsBuiltin callee =
      (callee.name?.bind t.lookup).any fun id => s.builtins.contains id := rfl
  unfold Checker.frozenByIn Checker.frozenBy
  rw [hcalls]
  split
  · next hb => exact ⟨nofun, fun h => absurd hb h.1⟩
  · next hb =>
    rw [mem_sharedArgs]
    simp only [List.not_mem_nil, false_or, Nat.zero_add, sharedArg?_eq_some, hb, not_false_eq_true,
      true_and, Bool.false_eq_true]
    constructor
    · rintro ⟨i, arg, harg, name, hn, hl, hq⟩
      exact ⟨i, name, by rw [harg]; exact hn, hl, hq⟩
    · rintro ⟨i, name, hn, hl, hq⟩
      obtain ⟨arg, harg, hn⟩ := Option.bind_eq_some_iff.1 hn
      exact ⟨i, arg, harg, name, hn, hl, hq⟩

/-- Of the arguments, only their names matter. -/
theorem LooksAt.congr_names {resolve : String → Option SymbolId} {type : SymbolId → Ty}
    {quals : Option (List Qualifier)} {args args' : List Expr}
    (h : args'.map Expr.name? = args.map Expr.name?) {a : SymbolId} :
    LooksAt resolve type quals args' a ↔ LooksAt resolve type quals args a := by
  have hget : ∀ i : Nat, args'[i]?.bind Expr.name? = args[i]?.bind Expr.name? := by
    intro i
    have hi := congrArg (fun names : List (Option String) => names[i]?.bind fun name => name) h
    simp only [List.getElem?_map, Option.bind_map] at hi
    exact hi
  unfold LooksAt
  simp only [hget]

section Spawned

variable {t declared bound : Table} {name : String} {type : Ty} {kind : SymbolKind} {q : Qualifier}
  {x : SymbolId} {frozen : List SymbolId} (hw : t.WellFormed)
  (hd : t.addQualified name type kind q = (declared, x))
  (hb : declared.transition x (fun s => s.rebind.bind Symbol.markPending) = .ok bound)

include hw hd hb

/-- What names stand for when the handle has been declared and marked. -/
theorem Table.lookup_bound : bound.lookup = t.seen name x := by
  funext other
  have hl := lookup_addQualified hw name type kind q other
  rw [hd] at hl
  rw [(SameButThreads.bind hb).lookup_eq]
  exact hl

omit hw hd in
/-- Starting a thread changes no type. -/
theorem Table.type_spawned (a : SymbolId) :
    ((bound.looksAt x frozen).symbol a).type = (declared.symbol a).type :=
  ((SameButThreads.bind hb).trans (bound.sameButThreads_looksAt x frozen)).field Symbol.type
    (fun _ => rfl) a

/-- The handle is the only symbol whose type may have changed. -/
theorem Table.type_spawned_of_ne {a : SymbolId} (ha : a ≠ x) :
    ((bound.looksAt x frozen).symbol a).type = (t.symbol a).type := by
  have ht := type_addQualified hw name type kind q a
  rw [hd, if_neg ha] at ht
  rw [type_spawned hb]
  exact ht

/-- The handle is pending and remembers what its thread looks at, and each of these symbols is
frozen once more. -/
theorem Table.symbol_spawned (hn : frozen.Nodup)
    (hv : ∀ a ∈ frozen, ∃ name, bound.lookup name = some a) :
    ((bound.looksAt x frozen).symbol x).isPending ∧
      ((bound.looksAt x frozen).symbol x).frozenArgs = frozen ∧
      ∀ a, ((bound.looksAt x frozen).symbol a).freezeCount =
        (t.symbol a).freezeCount + if a ∈ frozen then 1 else 0 := by
  have hwd : declared.WellFormed := by
    have hwd := hw.addQualified name type kind q
    rwa [hd] at hwd
  have hx : x < declared.symbols.size := JustDeclared.lt ⟨t, name, type, kind, q, hd⟩ hwd
  have hlt : ∀ a ∈ frozen, a < declared.symbols.size := by
    intro a ha
    obtain ⟨other, hl⟩ := hv a ha
    rw [(SameButThreads.bind hb).lookup_eq] at hl
    exact hwd.lookup_lt hl
  obtain ⟨-, hpending, hargs, -⟩ := symbol_looksAt_self hx hb hlt
  refine ⟨by simp [Symbol.isPending, hpending], hargs, fun a => ?_⟩
  have hold := t.freezeCount_addQualified name type kind q a
  rw [hd] at hold
  rw [freezeCount_looksAt hx hb hlt, hold]
  split
  · next ha => rw [List.count_eq_one_of_mem hn ha]
  · next ha => rw [List.count_eq_zero_of_not_mem ha]

omit hb in
/-- The symbol of another name is not the handle. -/
theorem Table.ne_of_lookup {other : String} {a : SymbolId} (hl : t.lookup other = some a)
    (hne : other ≠ name) : a ≠ x := by
  obtain ⟨-, -, -, hname⟩ := lookup_eq_some hl
  have hx : (t.add name type kind).2 = x := congrArg Prod.snd hd
  rw [← hx]
  unfold add
  split
  · next id hid =>
    rintro rfl
    exact hne (hname.symm.trans (findIn_eq_some hid).2)
  · exact Nat.ne_of_lt (hw.lookup_lt hl)

/-- Arguments with other names than the handle are found as what they were. -/
theorem looksAt_seen_iff {quals : Option (List Qualifier)} {args : List Expr}
    (hargs : ∀ arg ∈ args, arg.name? ≠ some name) (a : SymbolId) :
    LooksAt (t.seen name x) (fun a => ((bound.looksAt x frozen).symbol a).type) quals args a ↔
      LooksAt t.lookup (fun a => (t.symbol a).type) quals args a := by
  refine exists_congr fun i => exists_congr fun other => and_congr_right fun hi => ?_
  have hne : other ≠ name := by
    rintro rfl
    obtain ⟨arg, harg, hn⟩ := Option.bind_eq_some_iff.1 hi
    exact hargs arg (List.mem_of_getElem? harg) hn
  rw [Table.seen, if_neg hne]
  refine and_congr_right fun hl => ?_
  dsimp only
  rw [Table.type_spawned_of_ne hw hd hb (Table.ne_of_lookup hw hd hl hne)]

end Spawned

/-- A declaration that starts a thread and reports nothing checks the call without an error, and
then declares the variable without one. -/
theorem declare_spawn_of_no_error {s : Checker} {ret : Ty} {span : Span} {head : VariableHead}
    {init : Expr}
    (he : ((checkStmt ret (.declare span head (some init))).after s).errors = s.errors) :
    (∃ t, ((checkExpr head.type init).answer s).type = .ok t) ∧
      (checkStmt ret (.declare span head (some init))).after s =
        (finishDeclare span head (some ((checkExpr head.type init).answer s).expr)).after
          ((checkExpr head.type init).after s) ∧
      ((finishDeclare span head (some ((checkExpr head.type init).answer s).expr)).after
        ((checkExpr head.type init).after s)).errors =
          ((checkExpr head.type init).after s).errors := by
  have hrep : s.Reports ((checkExpr head.type init).after s) :=
    reports_visit s (.expr head.type init)
  rw [checkStmt, after_bind] at he ⊢
  cases ho : ((checkExpr head.type init).answer s).type with
  | error d =>
    simp only [ho] at he
    exact absurd he (hrep.not_report d)
  | ok t =>
    simp only [ho] at he ⊢
    refine ⟨⟨t, rfl⟩, trivial, ?_⟩
    have hfinish := Checker.Reports.stable.finishDeclare
      (s := (checkExpr head.type init).after s) span head
      (some ((checkExpr head.type init).answer s).expr)
    -- errors are only added, so there are none in between either
    have hlen := hfinish.errors.length_le
    have hlen' := hrep.errors.length_le
    rw [he] at hlen
    rw [he]
    exact hrep.errors.eq_of_length (Nat.le_antisymm hlen' hlen)

/-- A declaration `var x = &f(...)` that is checked without an error binds `x` to the thread and
freezes once each symbol that the thread looks at.  These are the symbols that the names of the
arguments stand for once `x` has been declared: where no argument is called `x`, what they stood for
when the call was checked; an argument called `x` is found as the handle itself.  A builtin function
freezes nothing. -/
theorem frozenArgs_declare_spawn {roots : List ScopeId} {s : Checker} (h : Reachable roots s)
    (ret : Ty) (span : Span) (head : VariableHead) (n m : Node) (callee : Expr) (args : List Expr)
    (mode : Option Modifier)
    (he : ((checkStmt ret (.declare span head
      (some (.spawn n (.call m callee args) mode)))).after s).errors = s.errors) :
    let checked := (checkExpr head.type (.spawn n (.call m callee args) mode)).after s
    let s' :=
      (checkStmt ret (.declare span head (some (.spawn n (.call m callee args) mode)))).after s
    ∃ x quals,
      -- checking the call changes neither what names stand for nor the types of what they stand for
      (∀ name a, s.table.lookup name = some a → checked.table.lookup name = some a ∧
        (checked.table.symbol a).type = (s.table.symbol a).type) ∧
      -- the qualifiers are those of the function that is called
      (n.type = none → callee.type? = none → ∃ params result variadic,
        ((checkExpr none callee).answer s).type = .ok (.fn params quals result variadic)) ∧
      s'.table.lookup head.name = some x ∧ (s'.table.symbol x).isPending ∧
      (s'.table.symbol x).frozenArgs.Nodup ∧
      (∀ a, (s'.table.symbol a).freezeCount =
        (checked.table.symbol a).freezeCount +
          if a ∈ (s'.table.symbol x).frozenArgs then 1 else 0) ∧
      (∀ a, a ∈ (s'.table.symbol x).frozenArgs ↔
        ¬ ((callee.name?.bind (checked.table.seen head.name x)).any fun id =>
          s.builtins.contains id) ∧
        LooksAt (checked.table.seen head.name x) (fun a => (s'.table.symbol a).type) quals args a) ∧
      ((∀ arg ∈ args, arg.name? ≠ some head.name) → ∀ a,
        LooksAt (checked.table.seen head.name x) (fun a => (s'.table.symbol a).type) quals args a ↔
          LooksAt checked.table.lookup (fun a => (checked.table.symbol a).type) quals args a) := by
  intro checked s'
  have hw : checked.table.WellFormed := (h.visit (.expr head.type _)).wellFormed
  have hbuiltins : checked.builtins = s.builtins := (reports_visit s (.expr head.type _)).builtins
  -- the call is checked first, and the callee and the arguments keep their names
  obtain ⟨⟨t, ht⟩, hs', he'⟩ := declare_spawn_of_no_error he
  obtain ⟨n', m', callee', args', mode', hshape, hcallee, hargs, hquals⟩ := checkExpr_spawn ht
  rw [hshape] at hs' he'
  obtain ⟨type, bound, hb, htable⟩ := finishDeclare_spawn he'
  generalize hd : checked.table.addQualified head.name type checked.table.declarationKind
    head.qualifier = declaration at hb htable
  obtain ⟨declared, x⟩ := declaration
  have htable : s'.table = bound.looksAt x (checked.frozenByIn bound callee' args') :=
    (congrArg (fun s : Checker => s.table) hs').trans htable
  have hlookup := Table.lookup_bound hw hd hb
  obtain ⟨hpending, hfrozen, hcount⟩ := Table.symbol_spawned hw hd hb
    (checked.nodup_frozenByIn bound callee' args') fun _ => Checker.lookup_of_mem_frozenByIn
  refine ⟨x, callee'.calleeQualifiers, fun name a => lookup_checkExpr h.wellFormed _ _, hquals, ?_⟩
  rw [htable, hfrozen]
  refine ⟨?_, hpending, checked.nodup_frozenByIn bound callee' args', hcount, fun a => ?_,
    fun hother a => looksAt_seen_iff hw hd hb hother a⟩
  · rw [(bound.sameButThreads_looksAt x _).lookup_eq, hlookup, Table.seen, if_pos rfl]
  -- freezing changes no type, so the types at the end can be asked for
  · have htype : (fun a => (bound.symbol a).type) = fun a =>
        ((bound.looksAt x (checked.frozenByIn bound callee' args')).symbol a).type := by
      funext a
      exact ((bound.sameButThreads_looksAt x _).field Symbol.type (fun _ => rfl) a).symm
    rw [mem_frozenByIn, hbuiltins, hcallee, hlookup, htype, LooksAt.congr_names hargs]

/-- A thread looks at an array, which is frozen. -/
theorem frozenArgs_declare_spawn_array :
    let s := Sample.after [Sample.sum, Sample.data]
    let s' := (checkStmt .void (Sample.start "h")).after s
    s'.errors = s.errors ∧ ∃ x, s'.table.lookup "h" = some x ∧ (s'.table.symbol x).isPending ∧
      (s'.table.symbol x).frozenArgs = [3] ∧ (s'.table.symbol 3).freezeCount = 1 := by
  dsimp only
  have he : ((checkStmt .void (Sample.start "h")).after
      (Sample.after [Sample.sum, Sample.data])).errors =
        (Sample.after [Sample.sum, Sample.data]).errors := by decide +kernel
  have hmain := frozenArgs_declare_spawn
    (Sample.reachable_after [Sample.sum, Sample.data]) .void Sample.span ⟨"h", none, .default, none⟩
    (.at Sample.span) (.at Sample.span) (Sample.var "sum") [Sample.var "data"] none he
  dsimp only at hmain
  obtain ⟨x, -, -, -, hx, hpending, -, hcount, -⟩ := hmain
  have hx4 : x = 4 := Option.some.inj (hx.symm.trans (by decide +kernel))
  rw [hx4] at hx hpending hcount
  refine ⟨he, 4, hx, hpending, by decide +kernel, (hcount 3).trans (by decide +kernel)⟩

/-- In a block, a handle takes the name of the array that its thread looks at.  The array that the
argument stood for is not frozen. -/
theorem declare_spawn_misses_argument :
    let s := (enterBlock .default).after (Sample.after [Sample.sum, Sample.data])
    let s' := (checkStmt .void (Sample.start "data")).after s
    Reachable [] s ∧ s'.errors = s.errors ∧ s.table.lookup "data" = some 3 ∧
      (s.table.symbol 3).type = .array .int ∧ s'.table.lookup "data" = some 4 ∧
      (s'.table.symbol 4).isPending ∧ (s'.table.symbol 4).frozenArgs = [] ∧
      (s'.table.symbol 3).freezeCount = (s.table.symbol 3).freezeCount := by
  intro s s'
  have hreach : Reachable [] s := Reachable.inside
    (v := .stmt .void (.block Sample.span .default [Sample.start "data"]))
    (Sample.reachable_after [Sample.sum, Sample.data]) List.mem_cons_self
  have hs : s.errors = [] := List.isEmpty_iff.1 (by decide +kernel)
  have hs' : s'.errors = [] := List.isEmpty_iff.1 (by decide +kernel)
  refine ⟨hreach, hs'.trans hs.symm, ?_⟩
  decide +kernel

end ThreadRegions
