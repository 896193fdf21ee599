import ThreadRegions.Proofs.Action

/-!
# The shape of a checked tree

Checking fills in annotations and leaves the shape of the tree alone.  What the rules on threads
look at, after an initial value has been checked, is the names of a called function and of its
arguments, and these are the ones that are written in the program.

## Main Definitions

* `Annotates`: the outcome keeps its outline and carries its type

## Main Results

* `name?_checkExpr`, `isSpawn_checkExpr`: a checked expression is a bare variable, or starts a
  thread, exactly if it did so before
* `names_checkArgs`: the same for arguments
* `checkExpr_spawn`: what a thread that is started looks like when it has been checked
-/

namespace ThreadRegions

open CheckM

@[simp] theorem Expr.name?_withType (t : Ty) (e : Expr) : (e.withType t).name? = e.name? := by
  cases e <;> rfl

@[simp] theorem Expr.isSpawn_withType (t : Ty) (e : Expr) : (e.withType t).isSpawn = e.isSpawn := by
  cases e <;> rfl

/-- What an outcome keeps of an expression: the name of a bare variable, and whether a thread is
started. -/
def Expr.outline (e : Expr) : Option String × Bool := (e.name?, e.isSpawn)

@[simp] theorem Expr.outline_withType (t : Ty) (e : Expr) : (e.withType t).outline = e.outline := by
  simp [outline]

/-! ### Outcomes with their annotations -/

/-- The checked expression has the given outline, and carries its type if it has one. -/
def Annotates (shape : Option String × Bool) (m : CheckM Outcome) : Prop :=
  ∀ s, (m.answer s).expr.outline = shape ∧
    ∀ t, (m.answer s).type = .ok t → (m.answer s).expr.type? = some t

namespace Annotates

variable {shape : Option String × Bool}

/-- What happened before has nothing to do with it. -/
theorem bind {α : Type} {m : CheckM α} {f : α → CheckM Outcome} (h : ∀ a, Annotates shape (f a)) :
    Annotates shape (m >>= f) :=
  fun s => h _ (m.after s)

theorem ite {c : Prop} [Decidable c] {m m' : CheckM Outcome} (h : Annotates shape m)
    (h' : Annotates shape m') : Annotates shape (if c then m else m') := by
  split
  · exact h
  · exact h'

theorem error {e : Expr} (h : e.outline = shape) (d : Diagnostic) :
    Annotates shape (pure ⟨e, .error d⟩) :=
  fun _ => ⟨h, nofun⟩

theorem succeed {e : Expr} (h : e.outline = shape) (t : Ty) :
    Annotates shape (Outcome.succeed e t) := by
  intro s
  refine ⟨(Expr.outline_withType t e).trans h, fun t' ht => ?_⟩
  cases ht
  exact Expr.type?_withType t e

theorem fail {e : Expr} (h : e.outline = shape) (cause : Cause) :
    Annotates shape (Outcome.fail e cause) :=
  error h _

theorem settle {e : Expr} (h : e.outline = shape) (r : Except Cause Ty) :
    Annotates shape (Outcome.settle e r) := by
  cases r with
  | error cause => exact fail h cause
  | ok t => exact succeed h t

/-- An expression that is known carries its type already. -/
theorem unlessKnown {e : Expr} {check : CheckM Outcome} (he : e.outline = shape)
    (h : Annotates shape check) : Annotates shape (unlessKnown e check) := by
  unfold ThreadRegions.unlessKnown
  split
  · next t ht =>
    intro s
    refine ⟨he, fun t' ht' => ?_⟩
    cases ht'
    exact ht
  · exact h

/-- If a part has no type, the whole is put together from what there is of it. -/
theorem andThen {o : Outcome} {wrap : Expr → Expr} {next : Ty → Expr → CheckM Outcome}
    (hw : ∀ e, (wrap e).outline = shape) (hn : ∀ t e, Annotates shape (next t e)) :
    Annotates shape (o.andThen wrap next) := by
  unfold Outcome.andThen
  split
  · exact hn _ _
  · exact error (hw _) _

theorem listAndThen {o : ListOutcome} {wrap : List Expr → Expr}
    {next : List Ty → List Expr → CheckM Outcome} (hw : ∀ es, (wrap es).outline = shape)
    (hn : ∀ ts es, Annotates shape (next ts es)) : Annotates shape (o.andThen wrap next) := by
  unfold ListOutcome.andThen
  split
  · exact hn _ _
  · exact error (hw _) _

theorem checkLen (node : Node) (callee : Expr) (args : List Expr) (check : CheckM ListOutcome) :
    Annotates (none, false) (checkLen node callee args check) := by
  unfold ThreadRegions.checkLen
  refine ite (fail rfl _) (bind fun o => listAndThen (fun _ => rfl) fun ts es => ?_)
  split
  · exact ite (succeed rfl _) (fail rfl _)
  · exact fail rfl _

/-- A call is no variable and starts no thread by itself. -/
theorem checkCall (node : Node) (callee : Expr) (args : List Expr) (check : CheckM Outcome)
    (checkArgs : String → List Ty → CheckM ListOutcome) :
    Annotates (none, false) (checkCall node callee args check checkArgs) := by
  unfold ThreadRegions.checkCall
  refine bind fun t => ite (checkLen _ _ _ _) ?_
  split
  · exact fail rfl _
  · refine bind fun o => andThen (fun _ => rfl) fun type e => ?_
    split
    · exact ite (bind fun o => listAndThen (fun _ => rfl) fun _ _ => succeed rfl _) (fail rfl _)
    · exact fail rfl _

/-- A lambda keeps its head and its body. -/
theorem checkLambda (node : Node) (head : LambdaHead) (body : Body)
    (check : Ty → CheckM (Body × Option Diagnostic)) :
    Annotates (none, false) (checkLambda node head body check) := by
  unfold ThreadRegions.checkLambda
  dsimp only
  split
  · exact fail rfl _
  · refine bind fun r => ?_
    split
    · exact error rfl _
    · split
      · exact fail rfl _
      · refine bind fun _ => bind fun r => bind fun captures => bind fun _ => ?_
        split
        · exact error rfl _
        · exact succeed rfl _

theorem syncOne (node : Node) (handle : Expr) : Annotates (none, false) (syncOne node handle) := by
  unfold CheckM.syncOne
  dsimp only
  split
  · exact fail rfl _
  · refine bind fun id => ?_
    split
    · exact bind fun _ => error rfl _
    · refine bind fun t => ?_
      split
      · exact fail rfl _
      · exact fail rfl _
      · refine bind fun r => ?_
        split
        · exact fail rfl _
        · exact bind fun _ => succeed rfl _

theorem syncMany (node : Node) (handle : Expr) :
    Annotates (none, false) (syncMany node handle) := by
  unfold CheckM.syncMany
  dsimp only
  split
  · refine bind fun ids => ?_
    split
    · exact error rfl _
    · exact bind fun _ => succeed rfl _
  · exact fail rfl _

end Annotates

/-! ### Checked expressions -/

/-- An outcome has the outline of the expression, and carries its type. -/
theorem annotates_checkExpr (hint : Option Ty) (e : Expr) :
    Annotates e.outline (checkExpr hint e) := by
  cases e with
  | literal n v =>
    rw [checkExpr]
    exact Annotates.unlessKnown rfl (.succeed rfl _)
  | var n name =>
    rw [checkExpr]
    refine Annotates.unlessKnown rfl (.bind fun id => ?_)
    split
    · exact .bind fun _ => .error rfl _
    · exact .bind fun _ => .ite (.fail rfl _) (.ite (.fail rfl _) (.succeed rfl _))
  | binary n op left right =>
    rw [checkExpr]
    refine Annotates.unlessKnown rfl (.bind fun o => .andThen (fun _ => rfl) fun a left => ?_)
    exact .bind fun o => .andThen (fun _ => rfl) fun b right => .settle rfl _
  | unary n op operand =>
    rw [checkExpr]
    refine Annotates.unlessKnown rfl (.bind fun o => .andThen (fun _ => rfl) fun _ _ => ?_)
    exact .settle rfl _
  | assign n name value =>
    rw [checkExpr]
    refine Annotates.unlessKnown rfl (.bind fun id => ?_)
    split
    · exact .bind fun _ => .fail rfl _
    · refine .bind fun t => ?_
      split
      · exact .fail rfl _
      · refine .bind fun t => .bind fun o => .andThen (fun _ => rfl) fun received value => ?_
        exact .bind fun t => .ite (.fail rfl _) (.ite (.fail rfl _) (.succeed rfl _))
  | indexAssign n array index value =>
    rw [checkExpr]
    refine Annotates.unlessKnown rfl (.bind fun t => ?_)
    split
    · exact .fail rfl _
    · refine .bind fun o => .andThen (fun _ => rfl) fun a array => ?_
      split
      · exact .fail rfl _
      · refine .bind fun o => .andThen (fun _ => rfl) fun i index => .ite (.fail rfl _) ?_
        exact .bind fun o => .andThen (fun _ => rfl) fun v value =>
          .ite (.succeed rfl _) (.fail rfl _)
  | call n callee args =>
    rw [checkExpr]
    exact Annotates.unlessKnown rfl (.checkCall _ _ _ _ _)
  | array n elements =>
    rw [checkExpr]
    exact Annotates.unlessKnown rfl (.bind fun o => .listAndThen (fun _ => rfl) fun _ _ =>
      .succeed rfl _)
  | access n array index =>
    rw [checkExpr]
    refine Annotates.unlessKnown rfl (.bind fun o => .andThen (fun _ => rfl) fun a array => ?_)
    split
    · exact .fail rfl _
    · exact .bind fun o => .andThen (fun _ => rfl) fun i index =>
        .ite (.succeed rfl _) (.fail rfl _)
  | range n first last =>
    rw [checkExpr]
    refine Annotates.unlessKnown rfl (.bind fun o => .andThen (fun _ => rfl) fun a first => ?_)
    refine .ite (.fail rfl _) (.bind fun o => .andThen (fun _ => rfl) fun b last => ?_)
    exact .ite (.succeed rfl _) (.fail rfl _)
  | increment n operand =>
    rw [checkExpr]
    refine Annotates.unlessKnown rfl (.bind fun t => ?_)
    split
    · exact .fail rfl _
    · exact .bind fun o => .andThen (fun _ => rfl) fun _ _ => .ite (.succeed rfl _) (.fail rfl _)
  | decrement n operand =>
    rw [checkExpr]
    refine Annotates.unlessKnown rfl (.bind fun t => ?_)
    split
    · exact .fail rfl _
    · exact .bind fun o => .andThen (fun _ => rfl) fun _ _ => .ite (.succeed rfl _) (.fail rfl _)
  | member n object name =>
    rw [checkExpr]
    refine Annotates.unlessKnown rfl (.bind fun t => ?_)
    split
    · unfold checkNamespaceMember
      refine .bind fun s => ?_
      dsimp only
      split
      · exact .succeed rfl _
      · exact .fail rfl _
    · refine .bind fun o => .andThen (fun _ => rfl) fun t object => ?_
      unfold checkValueMember
      split
      · exact .succeed rfl _
      · exact .bind fun s => .fail rfl _
  | lambda n head body =>
    rw [checkExpr]
    exact Annotates.unlessKnown rfl (.checkLambda _ _ _ _)
  | spawn n call mode =>
    -- only a call can be started as a thread
    cases call with
    | call m callee args =>
      rw [checkExpr]
      refine Annotates.unlessKnown rfl (.bind fun o => ?_)
      refine .andThen (fun _ => rfl) fun type callee => ?_
      split
      · refine .bind fun t => .bind fun o => .andThen (fun _ => rfl) fun _ call => ?_
        exact .bind fun _ => .succeed rfl _
      · exact .fail rfl _
    | _ =>
      rw [checkExpr]
      · exact Annotates.unlessKnown rfl (.fail rfl _)
      · simp
  | sync n handle isArray =>
    rw [checkExpr]
    exact Annotates.unlessKnown rfl (.ite (.syncMany _ _) (.syncOne _ _))

/-- A checked expression is a bare variable exactly if it was one, and has the same name then. -/
theorem name?_checkExpr (hint : Option Ty) (e : Expr) (s : Checker) :
    ((checkExpr hint e).answer s).expr.name? = e.name? :=
  congrArg Prod.fst (annotates_checkExpr hint e s).1

/-- A checked expression starts a thread exactly if it did so before. -/
theorem isSpawn_checkExpr (hint : Option Ty) (e : Expr) (s : Checker) :
    ((checkExpr hint e).answer s).expr.isSpawn = e.isSpawn :=
  congrArg Prod.snd (annotates_checkExpr hint e s).1

/-- A checked expression carries its type. -/
theorem type?_checkExpr {hint : Option Ty} {e : Expr} {s : Checker} {t : Ty}
    (h : ((checkExpr hint e).answer s).type = .ok t) :
    ((checkExpr hint e).answer s).expr.type? = some t :=
  (annotates_checkExpr hint e s).2 t h

/-- Checked arguments are bare variables where the arguments were. -/
theorem names_checkArgs (function : String) (index : Nat) (params : List Ty) (args : List Expr)
    (s : Checker) :
    ((checkArgs function index params args).answer s).exprs.map Expr.name? =
      args.map Expr.name? := by
  induction args generalizing index params s with
  | nil => rfl
  | cons arg others ih =>
    have harg := name?_checkExpr params.head? arg s
    rw [checkArgs, answer_bind]
    -- from the first argument on that does not fit, the others are left as they are
    split
    · exact congrArg (· :: others.map Expr.name?) harg
    · split
      · exact congrArg (· :: others.map Expr.name?) harg
      · rw [answer_bind, answer_pure]
        show _ :: _ = _ :: _
        rw [harg, ih]

/-! ### Calls that run as a thread -/

/-- The expression is the given call with annotations, where the callee may have been changed only
if `changed`. -/
def Expr.IsCall (e callee : Expr) (args : List Expr) (changed : Prop) : Prop :=
  ∃ m callee' args', e = .call m callee' args' ∧ callee'.name? = callee.name? ∧
    args'.map Expr.name? = args.map Expr.name? ∧ (¬ changed → callee' = callee)

section Call

variable {node : Node} {callee : Expr} {args : List Expr} {changed : Prop}

/-- The callee has not been changed. -/
theorem Expr.IsCall.mk {m : Node} {args' : List Expr}
    (h : args'.map Expr.name? = args.map Expr.name?) :
    (Expr.call m callee args').IsCall callee args changed :=
  ⟨m, callee, args', rfl, rfl, h, fun _ => rfl⟩

theorem isCall_listAndThen {o : ListOutcome} {next : List Ty → List Expr → CheckM Outcome}
    {s : Checker} (ho : o.exprs.map Expr.name? = args.map Expr.name?)
    (hn : ∀ ts, ((next ts o.exprs).answer s).expr.IsCall callee args changed) :
    ((o.andThen (.call node callee ·) next).answer s).expr.IsCall callee args changed := by
  unfold ListOutcome.andThen
  split
  · exact hn _
  · exact .mk ho

/-- The callee of `len` is given a type, so it is changed. -/
theorem isCall_checkLen {check : CheckM ListOutcome} {s : Checker}
    (hc : (check.answer s).exprs.map Expr.name? = args.map Expr.name?) (hchanged : changed) :
    ((checkLen node callee args check).answer s).expr.IsCall callee args changed := by
  unfold checkLen
  split
  · exact .mk rfl
  · rw [answer_bind]
    refine isCall_listAndThen hc fun ts => ?_
    split
    · split
      -- the callee has got the type of `len`
      · exact ⟨_, _, _, rfl, Expr.name?_withType _ _, hc, fun h => absurd hchanged h⟩
      · exact .mk hc
    · exact .mk hc

/-- A call whose callee has been checked already. -/
theorem isCall_checkCall (node : Node) (callee : Expr) (args : List Expr) (type : Ty)
    (s : Checker) :
    ((unlessKnown (.call node callee args) <| checkCall node callee args (Outcome.known callee type)
      fun name params => checkArgs name 0 params args).answer s).expr.IsCall callee args
        (s.table.callsLen callee) := by
  unfold unlessKnown
  split
  · exact .mk rfl
  · unfold checkCall
    rw [answer_bind, answer_table, after_table]
    dsimp only
    split
    · next hlen => exact isCall_checkLen (names_checkArgs ..) hlen
    · split
      · exact .mk rfl
      · rw [answer_bind]
        have hk : ∀ s, (Outcome.known callee type).answer s = ⟨callee, .ok type⟩ := fun _ => rfl
        rw [hk]
        dsimp only [Outcome.andThen]
        split
        · split
          · rw [answer_bind]
            exact isCall_listAndThen (names_checkArgs ..) fun ts => .mk (names_checkArgs ..)
          · exact .mk rfl
        · exact .mk rfl

end Call

/-- A function that has been found is not the one that gives a length. -/
theorem not_callsLen {callee : Expr} {s : Checker} {t : Ty} (hn : callee.type? = none)
    (hc : ((checkExpr none callee).answer s).type = .ok t) :
    ¬ ((checkExpr none callee).after s).table.callsLen ((checkExpr none callee).answer s).expr := by
  intro hlen
  simp only [Table.callsLen, Bool.and_eq_true, decide_eq_true_eq, name?_checkExpr] at hlen
  obtain ⟨hname, hlookup⟩ := hlen
  cases callee with
  | var n name =>
    obtain rfl : name = "len" := Option.some.inj hname
    rw [checkExpr, unlessKnown, hn] at hc hlookup
    cases hl : s.table.lookup "len" with
    | none => simp [checkVar, after_resolve_none hl] at hc
    | some id =>
      -- looking up a variable does not change the table
      have hafter : ((checkVar (.var n "len") "len").after s).table = s.table := by
        simp only [checkVar, after_bind, after_resolve_some hl, answer_table, after_table,
          after_ite]
        split
        · exact congrArg Ledger.table (toLedger_captured s id)
        · split <;> exact congrArg Ledger.table (toLedger_captured s id)
      simp [hafter, hl] at hlookup
  | _ => cases hname

/-- A thread that is started has the same shape when it has been checked, and the callee carries the
type that it was found to have. -/
theorem checkExpr_spawn {hint : Option Ty} {n m : Node} {callee : Expr} {args : List Expr}
    {mode : Option Modifier} {s : Checker} {t : Ty}
    (h : ((checkExpr hint (.spawn n (.call m callee args) mode)).answer s).type = .ok t) :
    ∃ n' m' callee' args' mode',
      ((checkExpr hint (.spawn n (.call m callee args) mode)).answer s).expr =
        .spawn n' (.call m' callee' args') mode' ∧
      callee'.name? = callee.name? ∧ args'.map Expr.name? = args.map Expr.name? ∧
      (n.type = none → callee.type? = none → ∃ params ret variadic,
        ((checkExpr none callee).answer s).type =
          .ok (.fn params callee'.calleeQualifiers ret variadic)) := by
  rw [checkExpr, unlessKnown] at h ⊢
  split
  -- nothing has been checked, so nothing is known of the callee
  · next known hk =>
    refine ⟨n, m, callee, args, mode, rfl, rfl, rfl, fun hn => ?_⟩
    have hk : n.type = some known := hk
    rw [hn] at hk
    cases hk
  · next hk =>
    simp only [hk, answer_bind] at h ⊢
    have hname := name?_checkExpr none callee s
    cases hc : ((checkExpr none callee).answer s).type with
    | error d => simp [Outcome.andThen, hc] at h
    | ok type =>
      have htype := type?_checkExpr hc
      simp only [Outcome.andThen, hc] at h ⊢
      cases type with
      | fn params quals ret variadic =>
        obtain ⟨m', callee', args', he, hcallee, hargs, hsame⟩ := isCall_checkCall
          m ((checkExpr none callee).answer s).expr args (.fn params quals ret variadic)
          ((checkExpr none callee).after s)
        simp only [answer_bind, answer_table, after_table] at h ⊢
        split at h
        · refine ⟨{ n with type := some ret }, m', callee', args', _,
            congrArg (fun c => Expr.spawn { n with type := some ret } c _) he,
            hcallee.trans hname, hargs, ?_⟩
          intro _ hcn
          -- the callee that is looked at afterwards is the one that has been checked
          rw [hsame (not_callsLen hcn hc), Expr.calleeQualifiers, htype]
          exact ⟨params, ret, variadic, rfl⟩
        · cases h
      | _ => cases h

end ThreadRegions
