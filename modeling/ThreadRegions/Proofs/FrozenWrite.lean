import ThreadRegions.Proofs.Reach

/-!
# Writing to a frozen variable

While a thread looks at a variable, the variable must not change.  There are four kinds of
expressions that write: assignments, assignments to an element, counting up or down, and calls of a
method that changes an array.  Each has a rule of its own that finds the variable it writes to.

## Main Definitions

* `Expr.written?`: the variable that an expression writes to, through any number of indices
* `Expr.frozenCause`: how such a write is reported
* `Expr.changesElement`: a method changes an element of an array in place

## Main Results

* `checkExpr_frozen_write`: a write to a frozen variable is an error, and the table stays as it is
* `frozen_element_changed`: a method that changes an element of a frozen variable is let through

## Design Notes

Elements are found behind any number of indices, except by the rule on methods: it looks for a bare
variable in front of the method.  So `v[i] = x` is refused for a frozen `v` and `v[i].push(x)` is
not.
-/

namespace ThreadRegions

open CheckM

/-! ### What an expression writes to -/

/-- The variable that an expression writes to. -/
def Expr.written? : Expr → Option String
  | .assign _ name _ => some name
  | .indexAssign _ target _ _ => target.root?
  | .increment _ operand | .decrement _ operand => operand.root?
  | .call _ (.member _ object method) _ =>
    if mutatingMembers.contains method then object.root? else none
  | _ => none

/-- The error of writing to the frozen variable `name`. -/
def Expr.frozenCause (name : String) : Expr → Cause
  | .call _ (.member _ _ method) _ => .frozenMethodCall method name
  | _ => .frozenMutation name

/-- Whether the expression calls a method that changes something other than a bare variable. -/
def Expr.changesElement : Expr → Bool
  | .call _ (.member _ object method) _ => mutatingMembers.contains method && object.name?.isNone
  | _ => false

/-- Without an index, the variable in front of a method is the one that it changes. -/
theorem Expr.mutation?_eq_some {n m : Node} {object : Expr} {method v : String} {args : List Expr}
    (hw : (Expr.call n (.member m object method) args).written? = some v)
    (hc : ¬ (Expr.call n (.member m object method) args).changesElement) :
    (Expr.member m object method).mutation? = some (v, method) := by
  simp only [written?] at hw
  split at hw
  · next hmutating =>
    cases object with
    | var k x =>
      obtain rfl : x = v := Option.some.inj hw
      simp only [mutation?, hmutating, if_true]
    | access k inner index =>
      rw [changesElement, hmutating] at hc
      exact absurd rfl hc
    | _ => cases hw
  · cases hw

/-! ### The four rules -/

/-- The check ends with an error at the beginning of the expression, which stays as it is, and so
does the table. -/
structure Refuses (check : CheckM Outcome) (s : Checker) (e : Expr) (cause : Cause) : Prop where
  answer : check.answer s = ⟨e, .error ⟨cause, e.start⟩⟩
  table : (check.after s).table = s.table

section

variable {s : Checker} {v : String}

theorem Refuses.unlessKnown {check : CheckM Outcome} {e : Expr} {cause : Cause}
    (he : e.type? = none) (h : Refuses check s e cause) :
    Refuses (unlessKnown e check) s e cause := by
  rw [ThreadRegions.unlessKnown, he]
  exact h

/-- What an assignment to a variable looks at before its value. -/
theorem refuses_assign {n : Node} {value : Expr} (hint : Option Ty)
    (he : (Expr.assign n v value).type? = none) (hf : s.table.isFrozen v) :
    Refuses (checkExpr hint (.assign n v value)) s (.assign n v value) (.frozenMutation v) := by
  rw [checkExpr]
  refine .unlessKnown he ?_
  cases hl : s.table.lookup v with
  | none => simp [Table.isFrozen, hl] at hf
  | some id =>
    have hm : mutationError? s.table v = some (.frozenMutation v) := by
      rw [mutationError?, if_pos hf]
    constructor
    · simp [after_resolve_some hl, hm, Outcome.fail]
    · simp [after_resolve_some hl, hm, Outcome.fail]

/-- What is looked at before the parts of an expression that writes to `target`. -/
theorem refuses_target {target e : Expr} {check : CheckM Outcome} (hr : target.root? = some v)
    (hf : s.table.isFrozen v) :
    Refuses (do
      match frozenError? (← table) target with
      | some cause => Outcome.fail e cause
      | none => check) s e (.frozenMutation v) := by
  have hc : frozenError? s.table target = some (.frozenMutation v) := by
    simp only [frozenError?, hr, if_pos hf]
  constructor
  · rw [answer_bind, answer_table, after_table, hc]
    rfl
  · rw [after_bind, answer_table, after_table, hc]
    rfl

/-- What is looked at before the method of a call.  The function that gives a length is no
method. -/
theorem refuses_call {n : Node} {callee : Expr} {method : String} {args : List Expr}
    {check : CheckM Outcome} {checkArgs : String → List Ty → CheckM ListOutcome}
    (hm : callee.mutation? = some (v, method)) (hf : s.table.isFrozen v) :
    Refuses (checkCall n callee args check checkArgs) s (.call n callee args)
      (.frozenMethodCall method v) := by
  have hlen : ¬ s.table.callsLen callee := by
    cases callee with
    | var k x => cases hm
    | _ => simp [Table.callsLen, Expr.name?]
  have hfilter : (callee.mutation?.filter fun x => s.table.isFrozen x.1) = some (v, method) := by
    rw [hm, Option.filter_some, if_pos hf]
  unfold checkCall
  constructor
  · rw [answer_bind, answer_table, after_table]
    simp only [if_neg hlen, hfilter]
    rfl
  · rw [after_bind, answer_table, after_table]
    simp only [if_neg hlen, hfilter]
    rfl

end

/-- Writing to a frozen variable, at any depth, is an error that names the variable, and nothing is
done to the table.  A method has to be called on the variable itself. -/
theorem checkExpr_frozen_write {s : Checker} (hint : Option Ty) {e : Expr} {v : String}
    {a : SymbolId} (he : e.type? = none) (hw : e.written? = some v)
    (hl : s.table.lookup v = some a) (hf : 0 < (s.table.symbol a).freezeCount)
    (hc : ¬ e.changesElement) :
    (checkExpr hint e).answer s = ⟨e, .error ⟨e.frozenCause v, e.start⟩⟩ ∧
      ((checkExpr hint e).after s).table = s.table := by
  have hfrozen : s.table.isFrozen v := by simpa [Table.isFrozen, hl, Symbol.isFrozen] using hf
  suffices hrefuses : Refuses (checkExpr hint e) s e (e.frozenCause v) from
    ⟨hrefuses.answer, hrefuses.table⟩
  cases e with
  | assign n name value =>
    obtain rfl : name = v := Option.some.inj hw
    exact refuses_assign hint he hfrozen
  | indexAssign n array index value =>
    rw [checkExpr]
    exact .unlessKnown he (refuses_target hw hfrozen)
  | increment n operand =>
    rw [checkExpr]
    exact .unlessKnown he (refuses_target hw hfrozen)
  | decrement n operand =>
    rw [checkExpr]
    exact .unlessKnown he (refuses_target hw hfrozen)
  | call n callee args =>
    cases callee with
    | member m object method =>
      rw [checkExpr]
      exact .unlessKnown he (refuses_call (Expr.mutation?_eq_some hw hc) hfrozen)
    | _ => cases hw
  | _ => cases hw

namespace Sample

/-- `fn total(rows: int[][]): int { return 0; }` -/
def total : Stmt :=
  .function span
    ⟨"total", [⟨"rows", some (.array (.array .int)), .default, span, none⟩], .int, .default, none,
      none⟩
    [.ret span (some (.literal (.at span) (.int 0)))]

/-- `var rows: int[][] = {{1}};` -/
def rows : Stmt :=
  .declare span ⟨"rows", some (.array (.array .int)), .default, none⟩
    (some (.array (.at span) [.array (.at span) [.literal (.at span) (.int 1)]]))

/-- `var h = &total(rows);` -/
def startTotal : Stmt :=
  .declare span ⟨"h", none, .default, none⟩
    (some (.spawn (.at span) (.call (.at span) (var "total") [var "rows"]) none))

/-- `rows[0]` -/
def row : Expr := .access (.at span) (var "rows") (.literal (.at span) (.int 0))

/-- `rows[0][0]++` -/
def countRow : Expr := .increment (.at span) (.access (.at span) row (.literal (.at span) (.int 0)))

/-- `rows[0].push(2)` -/
def pushRow : Expr :=
  .call (.at span) (.member (.at span) row "push") [.literal (.at span) (.int 2)]

end Sample

/-- While a thread looks at an array of arrays, an element of an element cannot be counted up. -/
theorem checkExpr_frozen_write_nested :
    let s := Sample.after [Sample.total, Sample.rows, Sample.startTotal]
    Sample.countRow.written? = some "rows" ∧ s.table.lookup "rows" = some 3 ∧
      0 < (s.table.symbol 3).freezeCount ∧ ∃ d, (checkExpr none Sample.countRow).answer s =
        ⟨Sample.countRow, .error d⟩ ∧ d.cause = .frozenMutation "rows" := by
  have hl : (Sample.after [Sample.total, Sample.rows, Sample.startTotal]).table.lookup "rows" =
      some 3 := by decide +kernel
  have hf : 0 < ((Sample.after [Sample.total, Sample.rows, Sample.startTotal]).table.symbol
      3).freezeCount := by decide +kernel
  have hrefused := checkExpr_frozen_write (e := Sample.countRow) none (by decide) (by decide) hl hf
    (by decide)
  exact ⟨by decide, hl, hf, _, hrefused.1, rfl⟩

/-- While a thread looks at an array of arrays, one of its elements is changed by a method, and no
error is found. -/
theorem frozen_element_changed :
    let s := Sample.after [Sample.total, Sample.rows, Sample.startTotal]
    Reachable [] s ∧ Sample.pushRow.type? = none ∧ Sample.pushRow.written? = some "rows" ∧
      s.table.lookup "rows" = some 3 ∧ 0 < (s.table.symbol 3).freezeCount ∧
      ∃ t, ((checkExpr none Sample.pushRow).answer s).type = .ok t := by
  refine ⟨Sample.reachable_after _, by decide, by decide, by decide +kernel, by decide +kernel, ?_⟩
  have hok : ((checkExpr none Sample.pushRow).answer
      (Sample.after [Sample.total, Sample.rows, Sample.startTotal])).type.toOption =
        some .void := by
    decide +kernel
  cases ht : ((checkExpr none Sample.pushRow).answer
      (Sample.after [Sample.total, Sample.rows, Sample.startTotal])).type with
  | ok t => exact ⟨t, rfl⟩
  | error d =>
    rw [ht] at hok
    cases hok

end ThreadRegions
