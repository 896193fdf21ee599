import Mathlib.Data.Option.Basic
import ThreadRegions.Proofs.Action
import ThreadRegions.Proofs.Renumber
import ThreadRegions.Proofs.Strip

/-!
# Two runs of the checker side by side

Two runs are compared on trees that differ in their places, with checkers that differ in how far
away a suggested name may be, or from tables that number their symbols in different ways.  A
*likeness* says which differences are overlooked.  Two actions go in step if they lead from states
that are alike to states that are alike, with answers that are alike.

## Main Definitions

* `Likeness`: what is overlooked in places, numbers, errors, journals and suggestions
* `Likeness.Told`, `Likeness.States`: errors and states that are alike
* `Likeness.InStep`: actions that go in step

## Main Results

* `Likeness.InStep.bind`: one action after another
* one lemma for each action that all rules share
-/

namespace ThreadRegions

/-- The error with something else suggested, if it is of a kind that suggests a name. -/
def Cause.withSuggestion (suggestion : Option String) : Cause → Cause
  | undefinedVariable name _ => undefinedVariable name suggestion
  | undefinedAssignTarget name _ => undefinedAssignTarget name suggestion
  | noSuchMember type member _ => noSuchMember type member suggestion
  | cause => cause

/-- The note that tells of an error. -/
def Diagnostic.note (d : Diagnostic) : Note :=
  ⟨.debug, true, s!"type error at {d.position.offset}: {d.message}"⟩

/-- What is overlooked when two runs of the checker are compared. -/
structure Likeness where
  /-- Where a place of the first run is found in the second one. -/
  place : Position → Position
  /-- The number in the second run of a symbol of the first one. -/
  number : SymbolId → SymbolId
  /-- Whether the numbers in trees, what lambdas capture and all notes are overlooked. -/
  rough : Bool
  /-- Causes of errors that are alike. -/
  cause : Cause → Cause → Prop
  /-- Lists of errors that are alike. -/
  errors : List Diagnostic → List Diagnostic → Prop
  /-- Journals that are alike. -/
  journal : Journal → Journal → Prop
  /-- Distances of suggestions that are alike. -/
  distance : Nat → Nat → Prop
  /-- Tables that are alike. -/
  tables : Table → Table → Prop
  renumbering : Table.Renumbering number tables
  cause_refl : ∀ c, cause c c
  /-- Nothing but the distance has an influence on what is suggested. -/
  cause_closest : ∀ {d d'}, distance d d' → ∀ c name names,
    cause (Cause.withSuggestion (closest name names d) c)
      (Cause.withSuggestion (closest name names d') c)
  errors_push : ∀ {ds ds'}, errors ds ds' → ∀ {c c'}, cause c c' → ∀ p,
    errors (ds ++ [⟨c, p⟩]) (ds' ++ [⟨c', place p⟩])
  journal_push : ∀ {j j'}, journal j j' → ∀ n, journal (j.push n) (j'.push n)
  /-- Errors that are alike are told alike. -/
  journal_told : ∀ {j j'}, journal j j' → ∀ {c c'}, cause c c' → ∀ p,
    journal (j.push (Diagnostic.note ⟨c, p⟩)) (j'.push (Diagnostic.note ⟨c', place p⟩))
  journal_of_rough : rough = true → ∀ j j', journal j j'
  number_of_exact : rough = false → ∀ id, number id = id
  table_of_exact : rough = false → ∀ {t t'}, tables t t' → t' = t

namespace Likeness

variable (v : Likeness) {α α' β β' : Type}

/-! ### Errors -/

/-- The two errors are alike. -/
def Told (d d' : Diagnostic) : Prop := v.cause d.cause d'.cause ∧ d'.position = v.place d.position

/-- One cause at the two places. -/
theorem told_at (c : Cause) (p : Position) : v.Told ⟨c, p⟩ ⟨c, v.place p⟩ := ⟨v.cause_refl c, rfl⟩

theorem told_map_at (c : Option Cause) (p : Position) :
    Option.Rel v.Told (c.map (⟨·, p⟩)) (c.map (⟨·, v.place p⟩)) := by
  cases c with
  | none => exact .none
  | some c => exact .some (v.told_at c p)

/-- The two answers are related, or errors that are alike. -/
inductive Results (R : α → α' → Prop) : Except Diagnostic α → Except Diagnostic α' → Prop
  | ok {a : α} {a' : α'} : R a a' → Results R (.ok a) (.ok a')
  | error {d d' : Diagnostic} : v.Told d d' → Results R (.error d) (.error d')

variable {v} in
theorem Results.map {R : α → α' → Prop} {R' : β → β' → Prop} {r : Except Diagnostic α}
    {r' : Except Diagnostic α'} (h : v.Results R r r') {f : α → β} {f' : α' → β'}
    (hf : ∀ a a', R a a' → R' (f a) (f' a')) : v.Results R' (r.map f) (r'.map f') := by
  cases h with
  | ok ha => exact .ok (hf _ _ ha)
  | error hd => exact .error hd

/-! ### The ledger -/

/-- The ledgers hold tables and journals that are alike. -/
structure Ledgers (l l' : Ledger) : Prop where
  table : v.tables l.table l'.table
  journal : v.journal l.journal l'.journal

/-- What is done to the ledger leaves the same notes, whatever is in the journal. -/
def Tells (f : Ledger → Ledger) : Prop :=
  ∀ t j j', v.journal j j' → v.journal (f ⟨t, j⟩).journal (f ⟨t, j'⟩).journal

/-- Ledgers that are alike are so after something is done to each of them. -/
def Keeps (f f' : Ledger → Ledger) : Prop := ∀ ⦃l l'⦄, v.Ledgers l l' → v.Ledgers (f l) (f' l')

/-- Ledgers that are alike give answers that are related, and are alike afterwards. -/
def Asks (R : α → α → Prop) (f : Ledger → Ledger × α) : Prop :=
  ∀ ⦃l l'⦄, v.Ledgers l l' → R (f l).2 (f l').2 ∧ v.Ledgers (f l).1 (f l').1

theorem foldl_trace (texts : List String) {l l' : Ledger} (h : v.journal l.journal l'.journal) :
    v.journal (texts.foldl Ledger.trace l).journal (texts.foldl Ledger.trace l').journal := by
  induction texts generalizing l l' with
  | nil => exact h
  | cons text others ih => exact ih (v.journal_push h _)

variable {v} in
/-- Journals are alike if the notes are overlooked, or made from the same table. -/
theorem Tells.journal {f : Ledger → Ledger} (hf : v.Tells f) {l l' : Ledger} (h : v.Ledgers l l') :
    v.journal (f l).journal (f l').journal := by
  cases hr : v.rough with
  | true => exact v.journal_of_rough hr _ _
  | false =>
    obtain ⟨t, j⟩ := l
    obtain ⟨t', j'⟩ := l'
    obtain rfl : t' = t := v.table_of_exact hr h.table
    exact hf t' j j' h.journal

/-- What the ledger does to its table is known, and its notes are made from the table. -/
theorem keeps_of {f : Ledger → Ledger} {g : Table → Table} (hg : ∀ l, (f l).table = g l.table)
    (ht : ∀ {t t'}, v.tables t t' → v.tables (g t) (g t')) (hf : v.Tells f) : v.Keeps f f := by
  intro l l' h
  refine ⟨?_, hf.journal h⟩
  rw [hg, hg]
  exact ht h.table

theorem keeps_table {g g' : Table → Table} (ht : ∀ {t t'}, v.tables t t' → v.tables (g t) (g' t')) :
    v.Keeps (fun l => { l with table := g l.table }) fun l => { l with table := g' l.table } :=
  fun _ _ h => ⟨ht h.table, h.journal⟩

/-- A note of the ledger may tell of the tables. -/
theorem keeps_trace {text text' : String} (ht : v.rough = false → text' = text) :
    v.Keeps (fun l => l.trace text) fun l => l.trace text' := by
  intro l l' h
  refine ⟨h.table, ?_⟩
  cases hr : v.rough with
  | true => exact v.journal_of_rough hr _ _
  | false =>
    rw [ht hr]
    exact v.journal_push h.journal _

theorem keeps_pushScope : v.Keeps Ledger.pushScope Ledger.pushScope :=
  v.keeps_of (fun _ => rfl) v.renumbering.pushScope fun _ _ _ hj => v.journal_push hj _

theorem keeps_pushFrame : v.Keeps Ledger.pushFrame Ledger.pushFrame :=
  v.keeps_of (fun _ => rfl) v.renumbering.pushFrame fun _ _ _ hj => v.journal_push hj _

theorem keeps_enterRegion : v.Keeps Ledger.enterRegion Ledger.enterRegion :=
  v.keeps_of (fun _ => rfl) v.renumbering.enterRegion fun _ _ _ hj => v.journal_push hj _

theorem keeps_exitRegion : v.Keeps Ledger.exitRegion Ledger.exitRegion :=
  v.keeps_of (fun _ => rfl) v.renumbering.exitRegion fun _ _ _ hj => v.journal_push hj _

theorem keeps_alignLocals : v.Keeps Ledger.alignLocals Ledger.alignLocals :=
  v.keeps_table v.renumbering.alignLocals

/-- Whether there is a note depends on the table alone. -/
theorem keeps_popScope : v.Keeps Ledger.popScope Ledger.popScope := by
  refine v.keeps_of Ledger.table_popScope v.renumbering.popScope fun t j j' hj => ?_
  unfold Ledger.popScope
  dsimp only
  split
  · exact hj
  · exact v.journal_push hj _

/-- The second symbol has the number that the first one has in the second run. -/
def Same (id id' : SymbolId) : Prop := id' = v.number id

theorem asks_of {R : α → α → Prop} {f : Ledger → Ledger × α}
    (ht : ∀ l l' : Ledger, v.tables l.table l'.table →
      v.tables (f l).1.table (f l').1.table ∧ R (f l).2 (f l').2)
    (hf : v.Tells fun l => (f l).1) : v.Asks R f := by
  intro l l' h
  obtain ⟨htable, hanswer⟩ := ht l l' h.table
  exact ⟨hanswer, htable, hf.journal h⟩

/-- New symbols have numbers that belong together. -/
theorem asks_add (name : String) (t : Ty) (kind : SymbolKind) :
    v.Asks v.Same fun l => l.add name t kind :=
  v.asks_of (fun _ _ h => v.renumbering.add h name t kind) fun _ _ _ hj => v.journal_push hj _

theorem asks_addQualified (name : String) (t : Ty) (kind : SymbolKind) (q : Qualifier) :
    v.Asks v.Same fun l => l.addQualified name t kind q :=
  v.asks_of (fun _ _ h => v.renumbering.addQualified h name t kind q)
    fun _ _ _ hj => v.journal_push hj _

theorem asks_addFunction (name : String) (t : Ty) (modifier declared : Modifier) :
    v.Asks v.Same fun l => l.addFunction name t modifier declared :=
  v.asks_of (fun _ _ h => v.renumbering.addFunction h name t modifier declared)
    fun _ _ _ hj => v.journal_push hj _

/-- Whether the name is free is the same in both runs. -/
theorem asks_addNamespace (name : String) :
    v.Asks (Option.Rel v.Same) fun l => l.addNamespace name := by
  refine v.asks_of (fun l l' h => ?_) fun t j j' hj => ?_
  · have hadd := v.renumbering.addNamespace h name
    unfold Ledger.addNamespace
    -- only that the two tables give related answers is used from here on
    generalize l.table.addNamespace name = found at hadd ⊢
    generalize l'.table.addNamespace name = found' at hadd ⊢
    cases hadd with
    | none => exact ⟨h, .none⟩
    | some hfound => exact ⟨hfound.1, .some hfound.2⟩
  · unfold Ledger.addNamespace
    dsimp only
    cases t.addNamespace name with
    | none => exact v.journal_push hj _
    | some found => exact v.journal_push hj _

/-- Whether there is the namespace is the same in both runs, and so is whether the member is new. -/
theorem asks_addFunctionToNamespace (space name : String) (type : Ty)
    (modifier declared : Modifier) :
    v.Asks (Option.Rel v.Same)
      fun l => l.addFunctionToNamespace space name type modifier declared := by
  refine v.asks_of (fun l l' h => ?_) fun t j j' hj => ?_
  · have hadd := v.renumbering.addFunctionToNamespace h space name type modifier declared
    unfold Ledger.addFunctionToNamespace
    generalize l.table.addFunctionToNamespace space name type modifier declared = found at hadd ⊢
    generalize l'.table.addFunctionToNamespace space name type modifier declared = found' at hadd ⊢
    cases hadd with
    | none => exact ⟨h, .none⟩
    | some hfound =>
      refine ⟨?_, .some hfound.2⟩
      rw [Ledger.table_addingMember, Ledger.table_addingMember]
      exact hfound.1
  · unfold Ledger.addFunctionToNamespace
    dsimp only
    cases t.addFunctionToNamespace space name type modifier declared with
    | none => exact hj
    | some found =>
      dsimp only [Ledger.addingMember]
      split
      · exact hj
      · exact v.journal_push hj _

/-- Waiting succeeds in both runs or fails with the same error. -/
theorem asks_syncVariable (name : String) :
    v.Asks (Table.Both v.Same) fun l => l.syncVariable name := by
  refine v.asks_of (fun l l' h => ?_) fun t j j' hj => ?_
  · have hsync := v.renumbering.syncVariable h name
    unfold Ledger.syncVariable
    generalize l.table.syncVariable name = found at hsync ⊢
    generalize l'.table.syncVariable name = found' at hsync ⊢
    cases hsync with
    | error e => exact ⟨h, .error e⟩
    | ok hfound =>
      dsimp only
      rw [Ledger.table_trace, Ledger.table_trace, Ledger.table_foldl_trace,
        Ledger.table_foldl_trace]
      exact ⟨hfound.1, .ok hfound.2⟩
  · unfold Ledger.syncVariable
    dsimp only
    cases t.syncVariable name with
    | error e => exact hj
    | ok found => exact v.journal_push (v.foldl_trace _ hj) _

/-! ### States and actions -/

/-- The two states are alike. -/
structure States (s s' : Checker) : Prop extends v.Ledgers s.toLedger s'.toLedger where
  errors : v.errors s.errors s'.errors
  builtins : s'.builtins = s.builtins.map v.number
  frames : v.rough = false → s'.frames = s.frames
  importDepth : s'.importDepth = s.importDepth
  distance : v.distance s.suggestionDistance s'.suggestionDistance

variable {v} in
/-- As far as the rules ask, the tables are the same. -/
theorem States.like {s s' : Checker} (h : v.States s s') : s.table.Like v.number s'.table :=
  v.renumbering.like h.table

variable {v} in
/-- The visible names are the same, and only the distance may differ. -/
theorem States.cause_suggest {s s' : Checker} (h : v.States s s') (c : Cause) (name : String) :
    v.cause (c.withSuggestion (s.suggest name)) (c.withSuggestion (s'.suggest name)) := by
  unfold Checker.suggest
  rw [h.like.visibleNames]
  exact v.cause_closest h.distance c name _

/-- From states that are alike, the two actions lead to states that are alike, with answers that are
related. -/
def InStep (R : α → α' → Prop) (x : CheckM α) (y : CheckM α') : Prop :=
  ∀ ⦃s s'⦄, v.States s s' → R (x.answer s) (y.answer s') ∧ v.States (x.after s) (y.after s')

namespace InStep

variable {v} {R : α → α' → Prop} {R' : β → β' → Prop} {x : CheckM α} {y : CheckM α'}

theorem pure {a : α} {a' : α'} (h : R a a') : v.InStep R (Pure.pure a) (Pure.pure a') :=
  fun _ _ hs => ⟨h, hs⟩

/-- One action after the other.  The second ones may use that the answers of the first ones are
related. -/
theorem bind {f : α → CheckM β} {f' : α' → CheckM β'} (h : v.InStep R x y)
    (hf : ∀ a a', R a a' → v.InStep R' (f a) (f' a')) : v.InStep R' (x >>= f) (y >>= f') := by
  intro s s' hs
  obtain ⟨ha, hs⟩ := h hs
  exact hf _ _ ha hs

theorem bindEq {x y : CheckM α} {f : α → CheckM β} {f' : α → CheckM β'} (h : v.InStep Eq x y)
    (hf : ∀ a, v.InStep R' (f a) (f' a)) : v.InStep R' (x >>= f) (y >>= f') := by
  refine h.bind ?_
  rintro a _ rfl
  exact hf a

theorem map {f : α → β} {f' : α' → β'} (h : v.InStep R x y)
    (hf : ∀ a a', R a a' → R' (f a) (f' a')) : v.InStep R' (f <$> x) (f' <$> y) := by
  intro s s' hs
  obtain ⟨ha, hs⟩ := h hs
  exact ⟨hf _ _ ha, hs⟩

theorem ite {p : Prop} [Decidable p] {u : CheckM α} {w : CheckM α'} (h : v.InStep R x y)
    (hu : v.InStep R u w) : v.InStep R (if p then x else u) (if p then y else w) := by
  split
  · exact h
  · exact hu

theorem get : v.InStep v.States (MonadState.get : CheckM Checker) MonadState.get :=
  fun _ _ hs => ⟨hs, hs⟩

theorem table : v.InStep (fun t t' => v.tables t t') CheckM.table CheckM.table :=
  fun _ _ hs => ⟨hs.table, hs⟩

theorem like : v.InStep (Table.Like v.number) CheckM.table CheckM.table :=
  fun _ _ hs => ⟨hs.like, hs⟩

/-- The rest of the state stays as it is. -/
theorem onLedger {f f' : Ledger → Ledger} (hf : v.Keeps f f') :
    v.InStep Eq (CheckM.onLedger f) (CheckM.onLedger f') :=
  fun _ _ hs => ⟨rfl, { hs with toLedgers := hf hs.toLedgers }⟩

theorem askLedger {R : α → α → Prop} {f : Ledger → Ledger × α} (hf : v.Asks R f) :
    v.InStep R (CheckM.askLedger f) (CheckM.askLedger f) :=
  fun _ _ hs => ⟨(hf hs.toLedgers).1, { hs with toLedgers := (hf hs.toLedgers).2 }⟩

/-- The notes may tell of what is overlooked. -/
theorem noteOf (level : Level) {text text' : String} (h : v.rough = false → text' = text) :
    v.InStep Eq (CheckM.note level text) (CheckM.note level text') := by
  refine fun s s' hs => ⟨rfl, { hs with journal := ?_ }⟩
  cases hr : v.rough with
  | true => exact v.journal_of_rough hr _ _
  | false =>
    obtain rfl := h hr
    exact v.journal_push hs.journal _

theorem note (level : Level) (text : String) :
    v.InStep Eq (CheckM.note level text) (CheckM.note level text) :=
  noteOf level fun _ => rfl

/-- An error is told and added to the others. -/
theorem report {d d' : Diagnostic} (h : v.Told d d') :
    v.InStep Eq (CheckM.report d) (CheckM.report d') := by
  intro s s' hs
  obtain ⟨hcause, hplace⟩ := h
  obtain ⟨c', p'⟩ := d'
  obtain rfl : p' = v.place d.position := hplace
  exact ⟨rfl,
    { hs with
      journal := v.journal_told hs.journal hcause d.position
      errors := v.errors_push hs.errors hcause d.position }⟩

theorem reportAny {d d' : Option Diagnostic} (h : Option.Rel v.Told d d') :
    v.InStep Eq (CheckM.reportAny d) (CheckM.reportAny d') := by
  cases h with
  | none => exact pure rfl
  | some h => exact report h

theorem withinScope (h : v.InStep R x y) :
    v.InStep R (CheckM.withinScope x) (CheckM.withinScope y) :=
  (onLedger v.keeps_pushScope).bindEq fun _ => h.bind fun _ _ ha =>
    (onLedger v.keeps_popScope).bindEq fun _ => pure ha

theorem withinFrame (h : v.InStep R x y) :
    v.InStep R (CheckM.withinFrame x) (CheckM.withinFrame y) :=
  (onLedger v.keeps_pushFrame).bindEq fun _ => h.bind fun _ _ ha =>
    (onLedger v.keeps_popScope).bindEq fun _ => pure ha

/-- The region is entered in both runs or in none. -/
theorem withinRegion (enabled : Bool) (h : v.InStep R x y) :
    v.InStep R (CheckM.withinRegion enabled x) (CheckM.withinRegion enabled y) := by
  cases enabled with
  | false => exact h
  | true =>
    exact (onLedger v.keeps_enterRegion).bindEq fun _ => h.bind fun _ _ ha =>
      (onLedger v.keeps_exitRegion).bindEq fun _ => pure ha

/-- The number of modules around is the same in both runs. -/
theorem importDepth (f : Nat → Nat) :
    v.InStep Eq (modify fun s => { s with importDepth := f s.importDepth } : CheckM PUnit)
      (modify fun s => { s with importDepth := f s.importDepth }) :=
  fun _ _ hs => ⟨rfl, { hs with importDepth := congrArg f hs.importDepth }⟩

/-! ### Lambdas around the current place -/

/-- If captures are compared, the tables are the same, and so are the lambdas around. -/
theorem captured (id : SymbolId) : v.InStep Eq (modify fun s => s.captured id : CheckM PUnit)
    (modify fun s => s.captured (v.number id)) := by
  -- noting down a capture changes the lambdas only
  have hcaptured (s : Checker) (a : SymbolId) :
      s.captured a = { s with frames := (s.captured a).frames } := by
    unfold Checker.captured
    dsimp only
    split <;> rfl
  intro s s' hs
  refine ⟨rfl, ?_⟩
  show v.States (s.captured id) (s'.captured (v.number id))
  rw [hcaptured s id, hcaptured s' (v.number id)]
  refine { hs with frames := fun hr => ?_ }
  rw [v.number_of_exact hr, Checker.captured, Checker.captured, v.table_of_exact hr hs.table]
  dsimp only
  split
  · exact hs.frames hr
  · exact congrArg (List.map _) (hs.frames hr)

/-- A name leads to symbols that belong together. -/
theorem resolve (name : String) :
    v.InStep (fun a a' => a' = a.map v.number) (CheckM.resolve name) (CheckM.resolve name) := by
  refine like.bind fun t t' ht => ?_
  rw [ht.lookup]
  cases t.lookup name with
  | none => exact pure rfl
  | some id => exact (captured id).bindEq fun _ => pure rfl

/-- The depth of a lambda is that of the current scope. -/
theorem pushLambda : v.InStep Eq CheckM.pushLambda CheckM.pushLambda := by
  refine fun s s' hs => ⟨rfl, { hs with frames := fun hr => ?_ }⟩
  show _ :: s'.frames = _ :: s.frames
  rw [hs.frames hr, v.table_of_exact hr hs.table]

/-- What a lambda captures is the same, unless that is overlooked. -/
theorem popLambda :
    v.InStep (fun found found' => v.rough = false → found' = found) CheckM.popLambda
      CheckM.popLambda := by
  intro s s' hs
  -- both halves of the action without its choice
  have hanswer (s : Checker) :
      CheckM.popLambda.answer s = s.frames.head?.map LambdaFrame.captures := by
    cases hf : s.frames <;> simp [CheckM.popLambda, hf]
  have hafter (s : Checker) :
      CheckM.popLambda.after s = { s with frames := s.frames.tail } := by
    cases hf : s.frames <;> simp [CheckM.popLambda, hf]
    rw [← hf]
  rw [hanswer, hanswer, hafter, hafter]
  exact ⟨fun hr => by rw [hs.frames hr],
    { hs with frames := fun hr => congrArg List.tail (hs.frames hr) }⟩

/-! ### Names and qualifiers -/

/-- The error of a name that is not known differs in what is suggested. -/
theorem undefined (name : String) (p : Position) :
    v.InStep v.Told (CheckM.undefined name p) (CheckM.undefined name (v.place p)) := by
  refine get.bind fun s s' hs => pure ⟨?_, rfl⟩
  exact hs.cause_suggest (.undefinedVariable name none) name

/-- The qualifier and the type are the same, and so are the note and the error. -/
theorem varQualifier (q : Qualifier) (t : Ty) (p : Position) :
    v.InStep (Option.Rel v.Told) (CheckM.varQualifier q t p)
      (CheckM.varQualifier q t (v.place p)) := by
  unfold CheckM.varQualifier
  exact ite ((note _ _).bindEq fun _ => pure (v.told_map_at _ p)) (pure (v.told_map_at _ p))

theorem paramQualifier (q : Qualifier) (t : Ty) (p : Position) :
    v.InStep (Option.Rel v.Told) (CheckM.paramQualifier q t p)
      (CheckM.paramQualifier q t (v.place p)) := by
  unfold CheckM.paramQualifier
  exact ite ((note _ _).bindEq fun _ => pure (v.told_map_at _ p)) (pure (v.told_map_at _ p))

end InStep

end Likeness

end ThreadRegions
