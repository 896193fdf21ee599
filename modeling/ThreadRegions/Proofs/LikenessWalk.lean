import ThreadRegions.Proofs.Alike

/-!
# Two walks side by side

The walk over a tree and the walk over the same tree at other places go in step: no rule looks at a
place, at the number of a symbol, or at what is suggested for a misspelt name.

## Main Definitions

* `Likeness.Outcomes`, `Likeness.ListOutcomes`: outcomes that are alike

## Main Results

* `Likeness.InStep.checkExpr`, `Likeness.InStep.checkStmts`: the walk
-/

namespace ThreadRegions

namespace Likeness

variable (v : Likeness)

/-- The expressions are alike, and their types are the same, or errors that are alike. -/
def Outcomes (o o' : Outcome) : Prop := v.Alike o.expr o'.expr ∧ v.Results Eq o.type o'.type

/-- The expressions are alike, and their types are the same, or errors that are alike. -/
def ListOutcomes (o o' : ListOutcome) : Prop :=
  v.Alikes o.exprs o'.exprs ∧ v.Results Eq o.types o'.types

/-- The bodies are alike, with errors that are alike. -/
def Bodies (p p' : Body × Option Diagnostic) : Prop :=
  v.AlikeBody p.1 p'.1 ∧ Option.Rel v.Told p.2 p'.2

namespace InStep

variable {v}

/-! ### Outcomes -/

section Outcomes

variable {e e' : Expr}

/-- Both expressions are given the type. -/
theorem succeed (h : v.Alike e e') (t : Ty) :
    v.InStep v.Outcomes (Outcome.succeed e t) (Outcome.succeed e' t) :=
  pure ⟨h.withType t, .ok rfl⟩

/-- The causes need only be alike, since a name may be suggested in one run and not in the other. -/
theorem failWith (h : v.Alike e e') {c c' : Cause} (hc : v.cause c c') :
    v.InStep v.Outcomes (Outcome.fail e c) (Outcome.fail e' c') :=
  pure ⟨h, .error ⟨hc, h.start⟩⟩

theorem fail (h : v.Alike e e') (c : Cause) :
    v.InStep v.Outcomes (Outcome.fail e c) (Outcome.fail e' c) :=
  failWith h (v.cause_refl c)

/-- What a rule says of a type does not depend on places. -/
theorem settle (h : v.Alike e e') (r : Except Cause Ty) :
    v.InStep v.Outcomes (Outcome.settle e r) (Outcome.settle e' r) := by
  cases r with
  | ok t => exact succeed h t
  | error c => exact fail h c

theorem known (h : v.Alike e e') (t : Ty) :
    v.InStep v.Outcomes (Outcome.known e t) (Outcome.known e' t) :=
  (note _ _).bindEq fun _ => pure ⟨h, .ok rfl⟩

/-- Types are the same in both trees, so both are known or none is. -/
theorem unlessKnown (he : v.Alike e e') {x y : CheckM Outcome} (h : v.InStep v.Outcomes x y) :
    v.InStep v.Outcomes (ThreadRegions.unlessKnown e x) (ThreadRegions.unlessKnown e' y) := by
  unfold ThreadRegions.unlessKnown
  rw [he.type?]
  cases e.type? with
  | none => exact h
  | some t => exact known he t

end Outcomes

theorem part {x y : CheckM Outcome} {wrap wrap' : Expr → Expr}
    {next next' : Ty → Expr → CheckM Outcome} (h : v.InStep v.Outcomes x y)
    (hwrap : ∀ {e e'}, v.Alike e e' → v.Alike (wrap e) (wrap' e'))
    (hnext : ∀ t {e e'}, v.Alike e e' → v.InStep v.Outcomes (next t e) (next' t e')) :
    v.InStep v.Outcomes (x >>= fun o => o.andThen wrap next)
      (y >>= fun o => o.andThen wrap' next') := by
  refine h.bind ?_
  rintro ⟨e, _⟩ ⟨e', _⟩ ⟨he, ⟨rfl⟩ | hd⟩
  · exact hnext _ he
  · exact pure ⟨hwrap he, .error hd⟩

theorem parts {x y : CheckM ListOutcome} {wrap wrap' : List Expr → Expr}
    {next next' : List Ty → List Expr → CheckM Outcome} (h : v.InStep v.ListOutcomes x y)
    (hwrap : ∀ {es es'}, v.Alikes es es' → v.Alike (wrap es) (wrap' es'))
    (hnext : ∀ ts {es es'}, v.Alikes es es' → v.InStep v.Outcomes (next ts es) (next' ts es')) :
    v.InStep v.Outcomes (x >>= fun o => o.andThen wrap next)
      (y >>= fun o => o.andThen wrap' next') := by
  refine h.bind ?_
  rintro ⟨es, _⟩ ⟨es', _⟩ ⟨hes, ⟨rfl⟩ | hd⟩
  · exact hnext _ hes
  · exact pure ⟨hwrap hes, .error hd⟩

theorem optional {γ δ : Type} {R : δ → δ → Prop} {g : γ → γ} {o : Option γ} {x y : γ → CheckM δ}
    (h : ∀ a ∈ o, v.InStep R (x a) (y (g a))) :
    v.InStep (Option.Rel R) (o.mapM x) ((o.map g).mapM y) := by
  cases o with
  | none => exact pure .none
  | some a => exact (h a rfl).map fun _ _ hb => .some hb

/-! ### Names and members -/

/-- The symbols that a name leads to are of the same kind, state and type. -/
theorem checkVar (e : Expr) (name : String) :
    v.InStep v.Outcomes (ThreadRegions.checkVar e name)
      (ThreadRegions.checkVar (e.relocate v.place) name) := by
  have he := Alike.refl (v := v) e
  refine (resolve name).bind ?_
  rintro found _ rfl
  cases found with
  | none =>
    rw [Expr.start_relocate]
    exact (undefined name e.start).bind fun _ _ hd => pure ⟨he, .error hd⟩
  | some id =>
    refine like.bind fun t t' ht => ?_
    have hid := ht.symbol id
    dsimp only [Option.map_some]
    rw [hid.isNamespace, hid.isPending, hid.type]
    exact ite (fail he _) (ite (fail he _) (succeed he _))

/-- The members of a namespace have the same names, from which one may be suggested. -/
theorem checkNamespaceMember {e e' : Expr} (he : v.Alike e e') (space : SymbolId) (name : String) :
    v.InStep v.Outcomes (ThreadRegions.checkNamespaceMember e space name)
      (ThreadRegions.checkNamespaceMember e' (v.number space) name) := by
  refine get.bind fun s s' hs => ?_
  have hnames := hs.like.memberNames space
  unfold Table.memberNames at hnames
  dsimp only
  rw [(hs.like.symbol space).name, hs.like.lookupIn, hnames]
  cases s.table.lookupIn (s.table.symbol space).name name with
  | some id =>
    dsimp only [Option.map_some]
    rw [(hs.like.symbol id).type]
    exact succeed he _
  | none => exact failWith he (v.cause_closest hs.distance (.noSuchMember _ name none) name _)

/-- The members of a value depend on its type alone. -/
theorem checkValueMember {e e' : Expr} (he : v.Alike e e') (object : Ty) (name : String) :
    v.InStep v.Outcomes (ThreadRegions.checkValueMember e object name)
      (ThreadRegions.checkValueMember e' object name) := by
  unfold ThreadRegions.checkValueMember
  cases object.member? name with
  | some t => exact succeed he t
  | none =>
    refine get.bind fun s s' hs => ?_
    exact failWith he (v.cause_closest hs.distance (.noSuchMember _ name none) name _)

/-! ### Calls -/

/-- The arguments are as many in both runs, and their types are the same. -/
theorem checkLen (n : Node) {callee callee' : Expr} (hc : v.Alike callee callee')
    {args args' : List Expr} (ha : v.Alikes args args') {x y : CheckM ListOutcome}
    (h : v.InStep v.ListOutcomes x y) :
    v.InStep v.Outcomes (ThreadRegions.checkLen n callee args x)
      (ThreadRegions.checkLen (n.relocate v.place) callee' args' y) := by
  unfold ThreadRegions.checkLen
  rw [ha.length_eq]
  refine ite (fail (.call hc ha) _) (h.parts (.call hc) fun types args args' ha => ?_)
  match types with
  | [t] =>
    exact ite (succeed (.call (hc.withType _) ha) _) (fail (.call hc ha) _)
  | [] | _ :: _ :: _ => exact fail (.call hc ha) _

/-- Whether a call is special is asked of the table before anything is checked. -/
theorem checkCall (n : Node) {callee callee' : Expr} (hc : v.Alike callee callee')
    {args args' : List Expr} (ha : v.Alikes args args') {x y : CheckM Outcome}
    {xs ys : String → List Ty → CheckM ListOutcome} (h : v.InStep v.Outcomes x y)
    (hargs : ∀ name params, v.InStep v.ListOutcomes (xs name params) (ys name params)) :
    v.InStep v.Outcomes (ThreadRegions.checkCall n callee args x xs)
      (ThreadRegions.checkCall (n.relocate v.place) callee' args' y ys) := by
  refine like.bind fun t t' ht => ?_
  simp only [ht.callsLen, hc.callsLen, hc.mutation?, ht.isFrozen, ha.length_eq]
  refine ite (checkLen n hc ha (hargs _ _)) ?_
  -- a method that would change a frozen variable is refused in both runs
  cases callee.mutation?.filter _ with
  | some found => exact fail (.call hc ha) _
  | none =>
    refine h.part (.call · ha) fun type callee callee' hc => ?_
    rw [hc.calleeName]
    cases type with
    | fn params quals ret variadic =>
      refine ite ((hargs _ _).parts (.call hc) fun _ args args' ha => ?_) (fail (.call hc ha) _)
      exact succeed (.call hc ha) ret
    | _ => exact fail (.call hc ha) _

/-! ### Threads -/

/-- What a thread looks at is found by the names of the arguments. -/
theorem sharedArgs_relocate (t : Table) (quals : Option (List Qualifier)) (index : Nat)
    (known : List SymbolId) (args : List Expr) (g : Position → Position) :
    sharedArgs t quals index known (exprsRelocate g args) =
      sharedArgs t quals index known args := by
  induction args generalizing index known with
  | nil => rfl
  | cons arg others ih =>
    rw [exprsRelocate, sharedArgs, sharedArgs, sharedArg?, Expr.name?_relocate, sharedArg?]
    split
    · exact ih _ _
    · exact ih _ _

/-- The symbols that a thread looks at are the same, up to their numbers. -/
theorem frozenBy_eq {s s' : Checker} (h : v.States s s') (callee : Expr) (args : List Expr) :
    s'.frozenBy (callee.relocate v.place) (exprsRelocate v.place args) =
      (s.frozenBy callee args).map v.number := by
  -- the number of a builtin is compared after it has been translated, so no two numbers may become
  -- one
  have hbuiltin : s'.callsBuiltin (callee.relocate v.place) = s.callsBuiltin callee := by
    unfold Checker.callsBuiltin
    rw [Expr.name?_relocate, h.builtins]
    cases callee.name? with
    | none => rfl
    | some name =>
      rw [Option.bind_some, Option.bind_some, h.like.lookup, Option.any_map]
      congr 1
      funext id
      exact Table.Like.contains_map v.renumbering.injective _ id
  have hargs := h.like.sharedArgs v.renumbering.injective callee.calleeQualifiers 0 [] args
  unfold Checker.frozenBy
  rw [hbuiltin, Expr.calleeQualifiers_relocate, sharedArgs_relocate]
  split
  · rfl
  · exact hargs

/-- Binding a variable to a thread: marking it, freezing what the thread looks at, and noting that
down. -/
theorem recordSpawn_call (handle : SymbolId) (n m : Node) (callee : Expr) (args : List Expr)
    (mode : Option Modifier) (p : Position) :
    v.InStep (Option.Rel v.Told) (CheckM.recordSpawn handle (.spawn n (.call m callee args) mode) p)
      (CheckM.recordSpawn (v.number handle)
        ((Expr.spawn n (.call m callee args) mode).relocate v.place) (v.place p)) := by
  refine table.bind fun t t' ht => ?_
  have hbind := v.renumbering.bind ht handle
  -- only that both transitions succeed or fail is used from here on
  generalize t.transition handle _ = found at hbind ⊢
  generalize t'.transition (v.number handle) _ = found' at hbind ⊢
  cases hbind with
  | error e =>
    refine like.bind fun t t' ht => ?_
    rw [(ht.symbol handle).name]
    refine (onLedger (v.keeps_trace fun _ => rfl)).bindEq fun _ => ?_
    exact pure (.some (v.told_at _ p))
  | ok hbound =>
    refine (onLedger (v.keeps_table fun _ => hbound)).bindEq fun _ => ?_
    refine get.bind fun s s' hs => ?_
    rw [frozenBy_eq hs]
    dsimp only
    rw [List.length_map]
    generalize s.frozenBy callee args = frozen
    refine (onLedger (v.keeps_table (v.renumbering.foldl_freeze frozen))).bindEq fun _ => ?_
    refine like.bind fun t t' ht => ?_
    rw [(ht.symbol handle).name]
    refine (note _ _).bindEq fun _ => ?_
    have hargs := v.keeps_table fun h => v.renumbering.setFrozenArgs h handle frozen
    exact (onLedger hargs).bindEq fun _ => pure .none

/-- The initial values may differ in the numbers of symbols, which the rule does not look at. -/
theorem recordSpawn (handle : SymbolId) {init init' : Expr} (h : v.Alike init init')
    (p : Position) :
    v.InStep (Option.Rel v.Told) (CheckM.recordSpawn handle init p)
      (CheckM.recordSpawn (v.number handle) init' (v.place p)) := by
  rw [← recordSpawn_strip v.rough _ init', h, recordSpawn_strip]
  cases init with
  | spawn n call mode =>
    cases call with
    | call m callee args => exact recordSpawn_call handle n m callee args mode p
    | _ => exact pure .none
  | _ => exact pure .none

/-- The state of the handle is the same in both runs. -/
theorem syncOne (n : Node) (handle : Expr) :
    v.InStep v.Outcomes (CheckM.syncOne n handle)
      (CheckM.syncOne (n.relocate v.place) (handle.relocate v.place)) := by
  have he := Alike.refl (v := v) (.sync n handle false)
  unfold CheckM.syncOne
  rw [Expr.name?_relocate]
  cases handle.name? with
  | none => exact fail he _
  | some name =>
    refine (resolve name).bind ?_
    rintro found _ rfl
    cases found with
    | none => exact (undefined name n.span.start).bind fun _ _ hd => pure ⟨he, .error hd⟩
    | some id =>
      refine like.bind fun t t' ht => ?_
      dsimp only [Option.map_some]
      rw [(ht.symbol id).state]
      cases (t.symbol id).state with
      | normal => exact fail he _
      | synchronized => exact fail he _
      | pending =>
        refine (askLedger (v.asks_syncVariable name)).bind ?_
        rintro _ _ (e | -)
        · exact fail he _
        · refine like.bind fun t t' ht => ?_
          rw [(ht.symbol id).type]
          exact succeed (.sync false (.withType (.refl handle) _)) _

/-- The first handle that is wrong is the same in both runs. -/
theorem resolveHandles (p : Position) (handles : List Expr) :
    v.InStep (v.Results fun ids ids' => ids' = ids.map v.number) (CheckM.resolveHandles p handles)
      (CheckM.resolveHandles (v.place p) (exprsRelocate v.place handles)) := by
  induction handles with
  | nil => exact pure (.ok rfl)
  | cons handle others ih =>
    rw [exprsRelocate, CheckM.resolveHandles, CheckM.resolveHandles, Expr.name?_relocate,
      Expr.start_relocate]
    cases handle.name? with
    | none => exact pure (.error (v.told_at _ p))
    | some name =>
      refine (resolve name).bind ?_
      rintro found _ rfl
      cases found with
      | none => exact (undefined name handle.start).bind fun _ _ hd => pure (.error hd)
      | some id =>
        refine like.bind fun t t' ht => ?_
        rw [(ht.symbol id).state]
        refine ite (pure (.error (v.told_at _ handle.start))) ?_
        exact ih.bind fun _ _ hr => pure (hr.map fun _ _ hids => congrArg (List.cons _) hids)

/-- If waiting fails, the note tells of it by the name alone. -/
theorem syncPending (id : SymbolId) (name : String) :
    v.InStep Eq (CheckM.syncPending id name) (CheckM.syncPending (v.number id) name) := by
  refine like.bind fun t t' ht => ?_
  rw [(ht.symbol id).isPending]
  refine ite ?_ (pure rfl)
  refine (askLedger (v.asks_syncVariable name)).bind ?_
  rintro _ _ (e | -)
  · exact onLedger (v.keeps_trace fun _ => rfl)
  · exact pure rfl

/-- There are as many symbols as handles, or the longer list is cut off in both runs. -/
theorem syncHandles (handles : List Expr) (ids : List SymbolId) :
    v.InStep v.Alikes (CheckM.syncHandles (handles.zip ids))
      (CheckM.syncHandles ((exprsRelocate v.place handles).zip (ids.map v.number))) := by
  induction handles generalizing ids with
  | nil => exact pure rfl
  | cons handle others ih =>
    cases ids with
    | nil => exact pure rfl
    | cons id ids =>
      rw [exprsRelocate, List.map_cons, List.zip_cons_cons, List.zip_cons_cons, CheckM.syncHandles,
        CheckM.syncHandles, Expr.name?_relocate]
      refine (syncPending id _).bindEq fun _ => like.bind fun t t' ht => ?_
      rw [(ht.symbol id).type]
      exact (ih ids).bind fun _ _ hes => pure (.cons (.withType (.refl handle) _) hes)

/-- Nothing is done unless all handles are found, in both runs. -/
theorem syncMany (n : Node) (handle : Expr) :
    v.InStep v.Outcomes (CheckM.syncMany n handle)
      (CheckM.syncMany (n.relocate v.place) (handle.relocate v.place)) := by
  cases handle with
  | array m handles =>
    refine (resolveHandles n.span.start handles).bind ?_
    rintro _ _ (⟨rfl⟩ | hd)
    · refine (syncHandles handles _).bind fun es es' hes => ?_
      exact succeed (.sync true (.array hes)) .void
    · exact pure ⟨.refl (.sync n (.array m handles) true), .error hd⟩
  | _ => exact fail (.refl (.sync n _ true)) _

/-! ### Lambdas -/

/-- Only a parameter without a type is changed. -/
theorem infer_relocate (p : Param) (t : Ty) (g : Position → Position) :
    (p.relocate g).infer t = (p.infer t).relocate g := by
  obtain ⟨name, type, q, span, symbol⟩ := p
  cases type <;> rfl

/-- The types that a lambda takes over depend on the number of its parameters and not on their
places. -/
theorem headInfer_relocate (head : LambdaHead) (hint : Option Ty) (g : Position → Position) :
    (head.relocate g).infer hint = (head.infer hint).relocate g := by
  unfold LambdaHead.infer
  split
  · next params _ ret _ =>
    have hparams : (head.params.map (Param.relocate g)).zipWith Param.infer params =
        (head.params.zipWith Param.infer params).map (Param.relocate g) := by
      rw [List.zipWith_map_left, List.map_zipWith]
      congr 1
      funext p t
      exact infer_relocate p t g
    rw [show (head.relocate g).params = head.params.map (Param.relocate g) from rfl,
      List.length_map, hparams]
    split <;> rfl
  · rfl

/-- The first parameter that is wrong is the same in both runs. -/
theorem lambdaParamTypes (p : Position) (params : List Param) :
    v.InStep (v.Results Eq) (ThreadRegions.lambdaParamTypes p params)
      (ThreadRegions.lambdaParamTypes (v.place p) (params.map (Param.relocate v.place))) := by
  induction params with
  | nil => exact pure (.ok rfl)
  | cons param others ih =>
    obtain ⟨name, type, q, span, symbol⟩ := param
    cases type with
    | none => exact pure (.error (v.told_at _ p))
    | some t =>
      refine (paramQualifier q t span.start).bind ?_
      rintro _ _ (hd | _)
      · exact pure (.error hd)
      · exact ih.bind fun _ _ hr => pure (hr.map fun _ _ hts => congrArg (List.cons t) hts)

/-- The parameters are given symbols that belong together. -/
theorem declareParams (params : List Param) (types : List Ty) :
    v.InStep v.AlikeParams (CheckM.declareParams (params.zip types))
      (CheckM.declareParams ((params.map (Param.relocate v.place)).zip types)) := by
  induction params generalizing types with
  | nil => exact pure rfl
  | cons param others ih =>
    cases types with
    | nil => exact pure rfl
    | cons t types =>
      refine (askLedger (v.asks_addQualified _ _ _ _)).bind fun id id' hid => ?_
      exact (ih types).bind fun _ _ hps => pure (.cons param hid hps)

/-- The rule for a lambda, if the bodies go in step. -/
theorem checkLambda (n : Node) (head : LambdaHead) (body : Body)
    {x y : Ty → CheckM (Body × Option Diagnostic)} (h : ∀ ret, v.InStep v.Bodies (x ret) (y ret)) :
    v.InStep v.Outcomes (ThreadRegions.checkLambda n head body x)
      (ThreadRegions.checkLambda (n.relocate v.place) (head.relocate v.place)
        (body.relocate v.place) y) := by
  have he := Alike.refl (v := v) (.lambda n head body)
  obtain ⟨params, ret, modifier, captures⟩ := head
  cases ret with
  | none => exact fail he _
  | some ret =>
    refine (lambdaParamTypes n.span.start params).bind ?_
    rintro types _ (⟨rfl⟩ | hd)
    · rename_i types
      dsimp only [LambdaHead.relocate]
      cases isolatedReturnError? modifier ret true with
      | some cause => exact fail he cause
      | none =>
        refine pushLambda.bindEq fun _ => ?_
        -- what is done inside of the frame, as one action
        have hinside : v.InStep (fun a b => v.AlikeParams a.1 b.1 ∧ v.Bodies a.2 b.2)
            (do
              let params ← CheckM.declareParams (params.zip types)
              CheckM.onLedger Ledger.alignLocals
              let checked ← x ret
              return (params, checked.1, checked.2))
            (do
              let params ←
                CheckM.declareParams ((params.map (Param.relocate v.place)).zip types)
              CheckM.onLedger Ledger.alignLocals
              let checked ← y ret
              return (params, checked.1, checked.2)) := by
          refine (declareParams params types).bind fun ps ps' hps => ?_
          refine (onLedger v.keeps_alignLocals).bindEq fun _ => ?_
          exact (h ret).bind fun _ _ hb => pure ⟨hps, hb⟩
        refine (hinside.withinFrame.withinRegion _).bind ?_
        rintro ⟨ps, b, d⟩ ⟨ps', b', d'⟩ ⟨hps, hb, hd⟩
        refine popLambda.bind fun found found' hfound => ?_
        refine (noteOf _ fun hr => by rw [hfound hr]).bindEq fun _ => ?_
        -- the heads differ in places, and in what is overlooked
        have hhead : LambdaHead.strip v.rough ⟨ps', some ret, modifier, found'.getD []⟩ =
            (LambdaHead.relocate v.place ⟨ps, some ret, modifier, found.getD []⟩).strip
              v.rough := by
          dsimp only [LambdaHead.strip, LambdaHead.relocate]
          rw [hps]
          cases hr : v.rough with
          | true => rfl
          | false => rw [hfound hr]
        cases hd with
        | some hd => exact pure ⟨.lambda hhead hb, .error hd⟩
        | none =>
          have hquals : (params.map (Param.relocate v.place)).map (fun p => p.qualifier) =
              params.map fun p => p.qualifier := List.map_map
          dsimp only
          rw [hquals]
          exact succeed (.lambda hhead hb) _
    · exact pure ⟨he, .error hd⟩

/-- The body of a lambda has the type that the lambda returns, or the same error. -/
theorem checkBodyType (p : Position) (ret : Ty) {o o' : Outcome} (h : v.Outcomes o o') :
    v.Bodies (ThreadRegions.checkBodyType p ret o)
      (ThreadRegions.checkBodyType (v.place p) ret o') := by
  obtain ⟨e, _⟩ := o
  obtain ⟨e', _⟩ := o'
  obtain ⟨he, ⟨rfl⟩ | hd⟩ := h
  · refine ⟨congrArg Body.expr he, ?_⟩
    dsimp only [ThreadRegions.checkBodyType]
    split
    · exact .none
    · exact .some (v.told_at _ p)
  · exact ⟨congrArg Body.expr he, .some hd⟩

/-! ### Statements without further statements -/

/-- A condition is reported where it begins. -/
theorem checkCondition (construct : String) {o o' : Outcome} (h : v.Outcomes o o') :
    v.InStep v.Alike (ThreadRegions.checkCondition construct o)
      (ThreadRegions.checkCondition construct o') := by
  obtain ⟨e, _⟩ := o
  obtain ⟨e', _⟩ := o'
  obtain ⟨he, ⟨rfl⟩ | hd⟩ := h
  · have hreport : v.Told ⟨.nonBooleanCondition construct, e.start⟩
        ⟨.nonBooleanCondition construct, e'.start⟩ := ⟨v.cause_refl _, he.start⟩
    exact ite ((report hreport).bindEq fun _ => pure he) (pure he)
  · exact (report hd).bindEq fun _ => pure he

theorem reportOutcome {o o' : Outcome} (h : v.Outcomes o o') :
    v.InStep v.Alike (ThreadRegions.reportOutcome o) (ThreadRegions.reportOutcome o') := by
  obtain ⟨e, _⟩ := o
  obtain ⟨e', _⟩ := o'
  obtain ⟨he, ⟨rfl⟩ | hd⟩ := h
  · exact pure he
  · exact (report hd).bindEq fun _ => pure he

/-! ### Declarations -/

section Declarations

variable {init init' : Option Expr}

/-- Initial values have the same type. -/
theorem bind_type? (h : Option.Rel v.Alike init init') :
    init'.bind Expr.type? = init.bind Expr.type? := by
  cases h with
  | none => rfl
  | some h => exact h.type?

/-- Whether a thread is started is the same in both runs. -/
theorem any_isSpawn (h : Option.Rel v.Alike init init') :
    init'.any Expr.isSpawn = init.any Expr.isSpawn := by
  cases h with
  | none => rfl
  | some h => exact h.isSpawn

/-- The declared element type is the same in both runs. -/
theorem refine_rel (head : VariableHead) (h : Option.Rel v.Alike init init') :
    Option.Rel v.Alike (head.refine init) (head.refine init') := by
  unfold VariableHead.refine
  split
  · cases h with
    | none => exact .none
    | some h => exact .some (h.refineArray _)
  · exact h

/-- The type of a variable is the same in both runs. -/
theorem inferType (span : Span) (head : VariableHead) (h : Option.Rel v.Alike init init') :
    v.InStep Eq (ThreadRegions.inferType span head init)
      (ThreadRegions.inferType (span.relocate v.place) head init') := by
  unfold ThreadRegions.inferType
  rw [bind_type? h]
  split
  · exact pure rfl
  · exact pure rfl
  · exact (report (v.told_at _ span.start)).bindEq fun _ => pure rfl

/-- The symbols of the variable belong together. -/
theorem declareTyped (span : Span) (head : VariableHead) (t : Ty) :
    v.InStep v.Same (ThreadRegions.declareTyped span head t)
      (ThreadRegions.declareTyped (span.relocate v.place) head t) := by
  refine (varQualifier head.qualifier t span.start).bind fun _ _ hd => ?_
  refine (reportAny hd).bindEq fun _ => like.bind fun t t' ht => ?_
  rw [ht.declarationKind]
  refine (askLedger (v.asks_addQualified _ _ _ _)).bind fun id id' hid => ?_
  exact (note _ _).bindEq fun _ => pure hid

/-- Which of the two errors it is depends on whether a thread is started. -/
theorem reportMismatch (span : Span) (t : Ty) (h : Option.Rel v.Alike init init') :
    v.InStep Eq (ThreadRegions.reportMismatch span t init)
      (ThreadRegions.reportMismatch (span.relocate v.place) t init') := by
  unfold ThreadRegions.reportMismatch
  rw [bind_type? h, any_isSpawn h]
  exact ite (report (v.told_at _ span.start)) (pure rfl)

theorem recordInit (span : Span) (id : SymbolId) (h : Option.Rel v.Alike init init') :
    v.InStep Eq (ThreadRegions.recordInit span id init)
      (ThreadRegions.recordInit (span.relocate v.place) (v.number id) init') := by
  cases h with
  | none => exact pure rfl
  | some h => exact (recordSpawn id h span.start).bind fun _ _ hd => reportAny hd

theorem finishDeclare (span : Span) (head : VariableHead) (h : Option.Rel v.Alike init init') :
    v.InStep v.AlikeStmt (ThreadRegions.finishDeclare span head init)
      (ThreadRegions.finishDeclare (span.relocate v.place) head init') := by
  unfold ThreadRegions.finishDeclare startsVoid
  rw [bind_type? h, any_isSpawn h]
  refine ite ((report (v.told_at _ span.start)).bindEq fun _ => pure (.declare head h)) ?_
  -- from here on the initial value is the refined one
  have hrefined := refine_rel head h
  dsimp only
  rw [bind_type? hrefined]
  refine (inferType span head hrefined).bindEq fun t => ?_
  refine (declareTyped span head t).bind ?_
  rintro id _ rfl
  refine (reportMismatch span t hrefined).bindEq fun _ => ?_
  exact (recordInit span id hrefined).bindEq fun _ => pure (.declared rfl hrefined)

/-- A variable whose initial value has an error is declared all the same. -/
theorem declareAnyway (span : Span) (head : VariableHead) {e e' : Expr} (he : v.Alike e e')
    {d d' : Diagnostic} (h : v.Told d d') :
    v.InStep v.AlikeStmt (ThreadRegions.declareAnyway span head e d)
      (ThreadRegions.declareAnyway (span.relocate v.place) head e' d') := by
  refine (report h).bindEq fun _ => like.bind fun t t' ht => ?_
  rw [ht.declarationKind]
  refine (askLedger (v.asks_addQualified _ _ _ _)).bind fun id id' hid => ?_
  exact pure (.declared hid (.some he))

end Declarations

/-! ### Functions and imports -/

/-- Each parameter without a type is reported at its own place. -/
theorem reportUntyped (params : List Param) :
    v.InStep Eq (ThreadRegions.reportUntyped params)
      (ThreadRegions.reportUntyped (params.map (Param.relocate v.place))) := by
  induction params with
  | nil => exact pure rfl
  | cons p others ih =>
    exact ite ((report (v.told_at _ p.span.start)).bindEq fun _ => ih) ih

/-- Qualifiers that do not fit are reported on the way. -/
theorem declareCheckedParams (params : List Param) :
    v.InStep v.AlikeParams (CheckM.declareCheckedParams params)
      (CheckM.declareCheckedParams (params.map (Param.relocate v.place))) := by
  induction params with
  | nil => exact pure rfl
  | cons p others ih =>
    refine (paramQualifier p.qualifier _ p.span.start).bind fun _ _ hd => ?_
    refine (reportAny hd).bindEq fun _ => ?_
    refine (askLedger (v.asks_addQualified _ _ _ _)).bind fun id id' hid => ?_
    exact ih.bind fun _ _ hps => pure (.cons p hid hps)

/-- The type of a function has no places. -/
theorem type_relocate (head : FunctionHead) (g : Position → Position) :
    (head.relocate g).type = head.type := by
  unfold FunctionHead.type FunctionHead.relocate
  rw [List.map_map, List.map_map]
  rfl

/-- A function clashes with the same symbols. -/
theorem clashes_eq {s s' : Checker} (h : v.States s s') (name : String) :
    ((s'.existing? name).any fun id => (s'.table.symbol id).isFunction) =
      (s.existing? name).any fun id => (s.table.symbol id).isFunction := by
  have hexisting : s'.existing? name = (s.existing? name).map v.number := by
    unfold Checker.existing?
    rw [h.importDepth, h.like.lookupCurrent, h.like.lookup]
    split <;> rfl
  rw [hexisting, Option.any_map]
  congr 1
  funext id
  exact (h.like.symbol id).isFunction

/-- The rule for a function, if the bodies go in step. -/
theorem checkFunction (span : Span) (head : FunctionHead) (body : List Stmt)
    {x y : CheckM (List Stmt)} (h : v.InStep v.AlikeStmts x y) :
    v.InStep v.AlikeStmt (ThreadRegions.checkFunction span head body x)
      (ThreadRegions.checkFunction (span.relocate v.place) (head.relocate v.place)
        (stmtsRelocate v.place body) y) := by
  refine (reportUntyped head.params).bindEq fun _ => ?_
  refine (reportAny (v.told_map_at _ span.start)).bindEq fun _ => get.bind fun s s' hs => ?_
  obtain ⟨name, params, ret, modifier, before, symbol⟩ := head
  have htype := type_relocate
    ⟨name, params, ret, modifier, some (effectiveModifier modifier ret), symbol⟩ v.place
  dsimp only [FunctionHead.relocate] at htype ⊢
  simp only [htype, clashes_eq hs]
  refine ite ((report (v.told_at _ span.start)).bindEq fun _ => pure rfl) ?_
  refine (askLedger (v.asks_addFunction _ _ _ _)).bind fun id id' hid => ?_
  refine (note _ _).bindEq fun _ => ?_
  -- what is done inside of the frame, as one action
  have hinside : v.InStep (fun a b => v.AlikeParams a.1 b.1 ∧ v.AlikeStmts a.2 b.2)
      (do
        let params ← CheckM.declareCheckedParams params
        CheckM.onLedger Ledger.alignLocals
        let body ← x
        return (params, body))
      (do
        let params ← CheckM.declareCheckedParams (params.map (Param.relocate v.place))
        CheckM.onLedger Ledger.alignLocals
        let body ← y
        return (params, body)) := by
    refine (declareCheckedParams params).bind fun ps ps' hps => ?_
    exact (onLedger v.keeps_alignLocals).bindEq fun _ => h.bind fun _ _ hb => pure ⟨hps, hb⟩
  refine (hinside.withinFrame.withinRegion _).bind ?_
  rintro ⟨ps, b⟩ ⟨ps', b'⟩ ⟨hps, hb⟩
  exact pure (.function ⟨name, params, ret, modifier, some _, symbol⟩ hid hps hb)

theorem checkReturnType (span : Span) (ret received : Ty) :
    v.InStep Eq (ThreadRegions.checkReturnType span ret received)
      (ThreadRegions.checkReturnType (span.relocate v.place) ret received) :=
  ite (pure rfl) (report (v.told_at _ span.start))

/-- The functions of a module are registered in the same order. -/
theorem registerFunctions (space : String) (statements : List Stmt) :
    v.InStep Eq (ThreadRegions.registerFunctions space statements)
      (ThreadRegions.registerFunctions space (stmtsRelocate v.place statements)) := by
  induction statements with
  | nil => exact pure rfl
  | cons st others ih =>
    cases st with
    | function span head body =>
      rw [stmtsRelocate, Stmt.relocate, ThreadRegions.registerFunctions,
        ThreadRegions.registerFunctions, type_relocate]
      exact (askLedger (v.asks_addFunctionToNamespace _ _ _ _ _)).bind fun _ _ _ => ih
    | _ => exact ih

/-- The rule for an import, if the modules go in step. -/
theorem checkImport (span : Span) (module : String) (space : Option String)
    (statements : List Stmt) {x y : CheckM (List Stmt)} (h : v.InStep v.AlikeStmts x y) :
    v.InStep v.AlikeStmt (ThreadRegions.checkImport span module space statements x)
      (ThreadRegions.checkImport (span.relocate v.place) module space
        (stmtsRelocate v.place statements) y) := by
  cases space with
  | none => exact (note _ _).bindEq fun _ => pure rfl
  | some name =>
    refine like.bind fun t t' ht => ?_
    rw [ht.namespaceError?]
    cases namespaceError? t name with
    | some cause => exact (report (v.told_at _ span.start)).bindEq fun _ => pure rfl
    | none =>
      refine (askLedger (v.asks_addNamespace name)).bind ?_
      rintro _ _ (- | _)
      -- the namespace is new in both runs
      · refine (registerFunctions name statements).bindEq fun _ => (note _ _).bindEq fun _ => ?_
        refine (importDepth (· + 1)).bindEq fun _ => h.withinScope.bind fun sts sts' hsts => ?_
        exact (importDepth (· - 1)).bindEq fun _ => pure (.importModule module _ hsts)
      · exact pure rfl

/-! ### The walk -/

/-- The rule for a condition, with the branch that may be missing as one action. -/
theorem checkStmt_cond (ret : Ty) (span : Span) (condition : Expr) (yes : Stmt) (no : Option Stmt) :
    ThreadRegions.checkStmt ret (.cond span condition yes no) = do
      let condition ← ThreadRegions.checkExpr none condition >>= ThreadRegions.checkCondition "If"
      let yes ← ThreadRegions.checkStmt ret yes
      let no ← no.mapM (ThreadRegions.checkStmt ret)
      return .cond span condition yes no := by
  cases no <;> rfl

/-- The rule for a loop, with each part that may be missing as one action. -/
theorem checkStmt_forLoop (ret : Ty) (span : Span) (init : Option Stmt)
    (condition step : Option Expr) (body : Stmt) (shared : Bool) :
    ThreadRegions.checkStmt ret (.forLoop span init condition step body shared) =
      CheckM.withinScope do
        let init ← init.mapM (ThreadRegions.checkStmt ret)
        let condition ← condition.mapM fun e =>
          ThreadRegions.checkExpr none e >>= ThreadRegions.checkCondition "For"
        let step ← step.mapM fun e =>
          ThreadRegions.checkExpr none e >>= ThreadRegions.reportOutcome
        let body ← CheckM.withinRegion (!shared) (ThreadRegions.checkStmt ret body)
        return .forLoop span init condition step body shared := by
  cases init <;> cases condition <;> cases step <;> rfl

theorem frozenError?_relocate (t : Table) (e : Expr) (g : Position → Position) :
    frozenError? t (e.relocate g) = frozenError? t e := by
  rw [frozenError?, Expr.root?_relocate, frozenError?]

theorem namespaceOf?_relocate (t : Table) (e : Expr) (g : Position → Position) :
    t.namespaceOf? (e.relocate g) = t.namespaceOf? e := by
  rw [Table.namespaceOf?, Expr.name?_relocate, Table.namespaceOf?]

mutual

/-- The walk over an expression, by recursion on the tree.  Each rule is cut into the steps that are
taken in both runs, and the parts that are put back are alike. -/
theorem checkExpr (hint : Option Ty) (e : Expr) :
    v.InStep v.Outcomes (ThreadRegions.checkExpr hint e)
      (ThreadRegions.checkExpr hint (e.relocate v.place)) := by
  match e with
  | .literal n l => exact unlessKnown (.refl (.literal n l)) (succeed (.refl (.literal n l)) _)
  | .var n name => exact unlessKnown (.refl (.var n name)) (checkVar (.var n name) name)
  | .binary n op left right =>
    refine unlessKnown (.refl (.binary n op left right)) ?_
    refine (checkExpr none left).part (.binary op · (.refl right)) fun a left _ hl => ?_
    refine (checkExpr none right).part (.binary op hl) fun b right _ hr => ?_
    exact settle (.binary op hl hr) _
  | .unary n op operand =>
    refine unlessKnown (.refl (.unary n op operand)) ?_
    refine (checkExpr none operand).part (.unary op) fun a operand _ h => ?_
    exact settle (.unary op h) _
  | .assign n name value =>
    have he := Alike.refl (v := v) (.assign n name value)
    refine unlessKnown he ((resolve name).bind ?_)
    rintro found _ rfl
    cases found with
    | none =>
      refine get.bind fun s s' hs => failWith he ?_
      exact hs.cause_suggest (.undefinedAssignTarget name none) name
    | some id =>
      refine like.bind fun t t' ht => ?_
      rw [ht.mutationError?]
      cases mutationError? t name with
      | some cause => exact fail he cause
      | none =>
        refine like.bind fun t t' ht => ?_
        dsimp only
        rw [(ht.symbol id).type]
        refine (checkExpr (some _) value).part (.assign name) fun received value _ h => ?_
        -- the table is asked again, since the value has been checked in between
        refine like.bind fun t t' ht => ?_
        rw [(ht.symbol id).region, ht.region]
        exact ite (fail (.assign name h) _)
          (ite (fail (.assign name h) _) (succeed (.assign name h) _))
  | .indexAssign n array index value =>
    have he := Alike.refl (v := v) (.indexAssign n array index value)
    refine unlessKnown he (like.bind fun t t' ht => ?_)
    rw [frozenError?_relocate, ht.frozenError?]
    cases frozenError? t array with
    | some cause => exact fail he cause
    | none =>
      refine (checkExpr none array).part (.indexAssign · (.refl index) (.refl value))
        fun a array _ ha => ?_
      cases a.element? with
      | none => exact fail (.indexAssign ha (.refl index) (.refl value)) _
      | some element =>
        refine (checkExpr none index).part (.indexAssign ha · (.refl value)) fun i index _ hi => ?_
        refine ite (fail (.indexAssign ha hi (.refl value)) _) ?_
        refine (checkExpr none value).part (.indexAssign ha hi) fun t value _ hv => ?_
        exact ite (succeed (.indexAssign ha hi hv) _) (fail (.indexAssign ha hi hv) _)
  | .call n callee args =>
    exact unlessKnown (.refl (.call n callee args)) <|
      checkCall n (.refl callee) (.refl args) (checkExpr none callee) fun name params =>
        checkArgs name 0 params args
  | .array n elements =>
    refine unlessKnown (.refl (.array n elements)) ?_
    refine (checkElements n.span.start none elements).parts .array fun types elements _ h => ?_
    exact succeed (.array h) _
  | .access n array index =>
    refine unlessKnown (.refl (.access n array index)) ?_
    refine (checkExpr none array).part (.access · (.refl index)) fun a array _ ha => ?_
    cases a.element? with
    | none => exact fail (.access ha (.refl index)) _
    | some element =>
      refine (checkExpr none index).part (.access ha) fun i index _ hi => ?_
      exact ite (succeed (.access ha hi) _) (fail (.access ha hi) _)
  | .range n first last =>
    refine unlessKnown (.refl (.range n first last)) ?_
    refine (checkExpr none first).part (.range · (.refl last)) fun a first _ hf => ?_
    refine ite (fail (.range hf (.refl last)) _) ?_
    refine (checkExpr none last).part (.range hf) fun b last _ hl => ?_
    exact ite (succeed (.range hf hl) _) (fail (.range hf hl) _)
  | .increment n operand =>
    refine unlessKnown (.refl (.increment n operand)) (like.bind fun t t' ht => ?_)
    rw [frozenError?_relocate, ht.frozenError?]
    cases frozenError? t operand with
    | some cause => exact fail (.refl (.increment n operand)) cause
    | none =>
      refine (checkExpr none operand).part .increment fun t operand _ h => ?_
      exact ite (succeed (.increment h) _) (fail (.increment h) _)
  | .decrement n operand =>
    refine unlessKnown (.refl (.decrement n operand)) (like.bind fun t t' ht => ?_)
    rw [frozenError?_relocate, ht.frozenError?]
    cases frozenError? t operand with
    | some cause => exact fail (.refl (.decrement n operand)) cause
    | none =>
      refine (checkExpr none operand).part .decrement fun t operand _ h => ?_
      exact ite (succeed (.decrement h) _) (fail (.decrement h) _)
  | .member n object name =>
    have he := Alike.refl (v := v) (.member n object name)
    refine unlessKnown he (like.bind fun t t' ht => ?_)
    rw [namespaceOf?_relocate, ht.namespaceOf?]
    cases t.namespaceOf? object with
    | some space => exact checkNamespaceMember he space name
    | none =>
      refine (checkExpr none object).part (.member name) fun t object _ h => ?_
      exact checkValueMember (.member name h) t name
  | .lambda n head body =>
    refine unlessKnown (.refl (.lambda n head body)) ?_
    rw [headInfer_relocate]
    exact checkLambda n (head.infer hint) body fun ret => checkBody n.span.start ret body
  | .spawn n call mode =>
    cases call with
    | call m callee args =>
      refine unlessKnown (.refl (.spawn n (.call m callee args) mode)) ?_
      refine (checkExpr none callee).part (fun hc => .spawn mode (.call hc (.refl args)))
        fun type callee _ hc => ?_
      cases type with
      | fn params quals ret variadic =>
        refine like.bind fun t t' ht => ?_
        rw [ht.declaredModifier, hc.declaredModifier]
        -- the call is checked with a callee whose type is known by now
        have hcall := unlessKnown (.call (n := m) hc (.refl args)) <|
          checkCall m hc (.refl args) (known hc (.fn params quals ret variadic)) fun name params =>
            checkArgs name 0 params args
        refine hcall.part (.spawn mode) fun _ call _ h => (note _ _).bindEq fun _ => ?_
        exact succeed (.spawn (some _) h) ret
      | _ => exact fail (.spawn mode (.call hc (.refl args))) _
    | _ => exact unlessKnown (.refl (.spawn n _ mode)) (fail (.refl (.spawn n _ mode)) _)
  | .sync n handle isArray =>
    exact unlessKnown (.refl (.sync n handle isArray)) (ite (syncMany n handle) (syncOne n handle))

theorem checkArgs (function : String) (index : Nat) (params : List Ty) (args : List Expr) :
    v.InStep v.ListOutcomes (ThreadRegions.checkArgs function index params args)
      (ThreadRegions.checkArgs function index params (exprsRelocate v.place args)) := by
  match args with
  | [] => exact pure ⟨rfl, .ok rfl⟩
  | arg :: others =>
    refine (checkExpr params.head? arg).bind ?_
    rintro ⟨e, _⟩ ⟨e', _⟩ ⟨he, ⟨rfl⟩ | hd⟩
    · rename_i received
      dsimp only
      cases params.head?.bind fun param => argumentError? function index param received with
      | some cause => exact pure ⟨.cons he (.refl others), .error ⟨v.cause_refl cause, he.start⟩⟩
      | none =>
        refine (checkArgs function (index + 1) params.tail others).bind ?_
        rintro ⟨es, rs⟩ ⟨es', rs'⟩ ⟨hes, hrs⟩
        exact pure ⟨.cons he hes, hrs.map fun _ _ hts => congrArg (List.cons received) hts⟩
    · exact pure ⟨.cons he (.refl others), .error hd⟩

/-- The elements of an array literal.  Their errors are reported at the beginning of the literal. -/
theorem checkElements (start : Position) (first : Option Ty) (elements : List Expr) :
    v.InStep v.ListOutcomes (ThreadRegions.checkElements start first elements)
      (ThreadRegions.checkElements (v.place start) first (exprsRelocate v.place elements)) := by
  match elements with
  | [] => exact pure ⟨rfl, .ok rfl⟩
  | element :: others =>
    refine (checkExpr none element).bind ?_
    rintro ⟨e, _⟩ ⟨e', _⟩ ⟨he, ⟨rfl⟩ | hd⟩
    · dsimp only
      rw [he.isRange]
      refine ite ?_ (pure ⟨.cons he (.refl others), .error (v.told_at _ start)⟩)
      refine (checkElements start _ others).bind ?_
      rintro ⟨es, rs⟩ ⟨es', rs'⟩ ⟨hes, hrs⟩
      exact pure ⟨.cons he hes, hrs.map fun _ _ hts => congrArg (List.cons _) hts⟩
    · exact pure ⟨.cons he (.refl others), .error hd⟩

theorem checkBody (start : Position) (ret : Ty) (body : Body) :
    v.InStep v.Bodies (ThreadRegions.checkBody start ret body)
      (ThreadRegions.checkBody (v.place start) ret (body.relocate v.place)) := by
  match body with
  | .expr value =>
    exact (checkExpr none value).bind fun _ _ ho => pure (checkBodyType start ret ho)
  | .block statements =>
    exact (checkStmts ret statements).bind fun _ _ h => pure ⟨congrArg Body.block h, .none⟩

theorem checkStmt (ret : Ty) (st : Stmt) :
    v.InStep v.AlikeStmt (ThreadRegions.checkStmt ret st)
      (ThreadRegions.checkStmt ret (st.relocate v.place)) := by
  match st with
  | .expression span value =>
    refine (checkExpr none value).bind fun _ _ ho => (reportOutcome ho).bind fun _ _ he => ?_
    exact pure (.expression he)
  | .declare span head none => exact finishDeclare span head .none
  | .declare span head (some init) =>
    refine (checkExpr head.type init).bind ?_
    rintro ⟨e, _⟩ ⟨e', _⟩ ⟨he, ⟨rfl⟩ | hd⟩
    · exact finishDeclare span head (.some he)
    · exact declareAnyway span head he hd
  | .function span head body => exact checkFunction span head body (checkStmts head.ret body)
  | .ret span none => exact (checkReturnType span ret .void).bindEq fun _ => pure rfl
  | .ret span (some value) =>
    refine (checkExpr none value).bind ?_
    rintro ⟨e, _⟩ ⟨e', _⟩ ⟨he, ⟨rfl⟩ | hd⟩
    · exact (checkReturnType span ret _).bindEq fun _ => pure (.ret (.some he))
    · exact (report hd).bindEq fun _ => pure (.ret (.some he))
  | .block span modifier body =>
    refine ((checkStmts ret body).withinScope.withinRegion _).bind fun _ _ h => ?_
    exact pure (.block modifier h)
  | .cond span condition yes no =>
    rw [Stmt.relocate, checkStmt_cond, checkStmt_cond, stmtRelocate?_eq_map]
    have hcondition := (checkExpr none condition).bind fun _ _ => checkCondition "If"
    refine hcondition.bind fun _ _ hc => (checkStmt ret yes).bind fun _ _ hy => ?_
    exact (optional (checkStmt? ret no)).bind fun _ _ hn => pure (.cond hc hy hn)
  | .whileLoop span condition body shared =>
    refine (checkExpr none condition).bind fun _ _ ho => (checkCondition "While" ho).bind ?_
    intro _ _ hc
    exact ((checkStmt ret body).withinRegion _).bind fun _ _ hb => pure (.whileLoop shared hc hb)
  | .forLoop span init condition step body shared =>
    rw [Stmt.relocate, checkStmt_forLoop, checkStmt_forLoop, stmtRelocate?_eq_map,
      exprRelocate?_eq_map, exprRelocate?_eq_map]
    have hcondition (e : Expr) (he : e ∈ condition) :=
      (checkExpr? condition e he).bind fun _ _ => checkCondition "For"
    have hstep (e : Expr) (he : e ∈ step) :=
      (checkExpr? step e he).bind fun _ _ => reportOutcome
    refine withinScope ((optional (checkStmt? ret init)).bind fun _ _ hi => ?_)
    refine (optional hcondition).bind fun _ _ hc => (optional hstep).bind fun _ _ hs => ?_
    exact ((checkStmt ret body).withinRegion _).bind fun _ _ hb =>
      pure (.forLoop shared hi hc hs hb)
  | .forEach span name symbol iterable body shared =>
    refine (checkExpr none iterable).bind ?_
    rintro ⟨e, _⟩ ⟨e', _⟩ ⟨he, ⟨rfl⟩ | hd⟩
    · rename_i t
      dsimp only
      cases t.element? with
      | none =>
        rw [he.start]
        exact (report (v.told_at _ e.start)).bindEq fun _ =>
          pure (.forEach name symbol shared he (.refl body))
      | some element =>
        refine withinScope ((askLedger (v.asks_add name element .param)).bind fun id id' hid => ?_)
        exact ((checkStmt ret body).withinRegion _).bind fun _ _ hb =>
          pure (.forEachDeclared name hid shared he hb)
    · exact (report hd).bindEq fun _ => pure (.forEach name symbol shared he (.refl body))
  | .leave span => exact pure rfl
  | .next span => exact pure rfl
  | .importModule span module space statements =>
    exact checkImport span module space statements (checkStmts .void statements)

/-- The walk over an expression that may be missing.  It is stated for all members of an option, so
that the recursion is seen to be on the tree. -/
theorem checkExpr? (o : Option Expr) : ∀ e ∈ o,
    v.InStep v.Outcomes (ThreadRegions.checkExpr none e)
      (ThreadRegions.checkExpr none (e.relocate v.place)) := by
  match o with
  | none => nofun
  | some e =>
    intro e' he
    obtain rfl := Option.mem_some_iff.1 he
    exact checkExpr none e

theorem checkStmt? (ret : Ty) (o : Option Stmt) : ∀ st ∈ o,
    v.InStep v.AlikeStmt (ThreadRegions.checkStmt ret st)
      (ThreadRegions.checkStmt ret (st.relocate v.place)) := by
  match o with
  | none => nofun
  | some st =>
    intro st' hst
    obtain rfl := Option.mem_some_iff.1 hst
    exact checkStmt ret st

theorem checkStmts (ret : Ty) (statements : List Stmt) :
    v.InStep v.AlikeStmts (ThreadRegions.checkStmts ret statements)
      (ThreadRegions.checkStmts ret (stmtsRelocate v.place statements)) := by
  match statements with
  | [] => exact pure rfl
  | st :: others =>
    refine (checkStmt ret st).bind fun _ _ hst => ?_
    exact (checkStmts ret others).bind fun _ _ hsts => pure (.cons hst hsts)

end

end InStep

end Likeness

end ThreadRegions
