import ThreadRegions.Proofs.Accept
import ThreadRegions.Proofs.Describe

/-!
# What leaves an isolating construct by an assignment

A value that lives in the memory of an isolating construct must not be reachable when the construct
has been left.  An assignment to a variable from outside of the construct could make it so, and the
checker lets such an assignment pass only if the value is a primitive one.  To see this it compares
two numbers of regions.  Here the numbers are shown to say what they are meant to say: one is
smaller than the other exactly if an isolating construct stands between the declaration and the
assignment.

## Main Definitions

* `Point.assignments`: the assignments that the walk comes by
* `Assigned.IsAt`: an assignment of the text is the one that the walk checks at a point
* `Run`: the text and the checker go on together

## Main Results

* `traces_of_gives`: in a visit without an error, they stay together to its end
* `checkModule_separated`: in an accepted program, only primitive values are assigned across an
  isolating construct

## Design Notes

What is proved by induction over the rules does not mention isolation beyond `Lexical.Describes`.
That the two numbers agree with the constructs is a fact about a single place, and the rule of an
assignment is the only one that uses it.
-/

namespace ThreadRegions

open CheckM

/-! ### Assignments of the text and of the walk -/

/-- The point itself, if it is an assignment. -/
def Point.assignment? (p : Point) : List Point :=
  match p.visit with
  | .expr _ (.assign ..) => [p]
  | _ => []

/-- The assignments that the walk comes by at a point and inside of it, in its order. -/
def Point.assignments (p : Point) : List Point :=
  p.assignment? ++ p.parts.attach.flatMap fun q => q.1.toPoint.assignments
termination_by p.visit.size
decreasing_by exact (mem_parts q.2).size_lt

/-- The assignments of a point: the point itself, and those of its parts in order. -/
theorem Point.assignments_eq (p : Point) :
    p.assignments = p.assignment? ++ p.children.flatMap Point.assignments := by
  rw [Point.assignments, Point.children, List.flatMap_map,
    List.flatMap_subtype (g := fun q : Part => q.toPoint.assignments) fun _ _ => rfl,
    List.unattach_attach]

/-- Waiting for a thread is no assignment. -/
theorem Point.assignments_wait {p : Point} {id : SymbolId} {name : String}
    (h : p.visit = .wait id name) : p.assignments = [] := by
  obtain ⟨s, v⟩ := p
  cases h
  exact Point.assignments_eq _

/-- The assignment `x` of the text is the one that the walk checks at `p`.  Its target is the symbol
`id` for the checker, and the declaration `d` in the text. -/
structure Assigned.IsAt (x : Assigned) (p : Point) (id : SymbolId) (d : Declaration) : Prop where
  symbol : p.state.table.lookup x.name = some id
  target : x.target = some d
  /-- The walk checks it here, and finds out the type of its value. -/
  visit : ∃ hint n value, p.visit = .expr hint (.assign n x.name value) ∧
    x.value = ((checkExpr (some (p.state.table.symbol id).type) value).answer
      (p.state.captured id)).expr
  /-- A target that is declared as a namespace is one. -/
  space : d.isSpace = true → (p.state.table.symbol id).isNamespace = true
  /-- The numbers of regions tell whether an isolating construct stands in between. -/
  region : d.isSpace = false →
    ((p.state.table.symbol id).region < p.state.table.region ↔ x.Separated)
  /-- Only a primitive value is assigned across an isolating construct. -/
  primitive : d.isSpace = false → x.Separated → ∃ t, x.value.type? = some t ∧ t.isPrimitive = true

/-- Where the target is no namespace, the declaration of the text tells the number of regions. -/
theorem Lexical.Describes.separated_iff {l : Lexical} {t : Table} (h : l.Describes t)
    {x : Assigned} {d : Declaration} {s : Symbol} (hx : x.around = l.around)
    (ht : x.target = some d) (hd : DeclaresSymbol l.around d s) (hspace : d.isSpace = false) :
    s.region < t.region ↔ x.Separated := by
  obtain ⟨hsuffix, hlength⟩ := hd.within hspace
  rw [← hlength, ← h.depth, ← exists_separating_iff hsuffix h.nodup, ← hx]
  constructor
  · intro hr
    exact ⟨d, ht, hr⟩
  · rintro ⟨d', hd', hr⟩
    rw [ht] at hd'
    cases hd'
    exact hr

/-! ### The text and the checker together -/

/-- The text goes on from `l` to `l'`, and the checker by the points `ps` to the table `t'`.  The
assignments on the way are the same. -/
structure Run (l : Lexical) (ps : List Point) (l' : Lexical) (t' : Table) : Prop where
  describes : l'.Describes t'
  finds : ∃ new, l'.found = l.found ++ new ∧
    List.Forall₂ (fun x p => ∃ id d, x.IsAt p id d) new (ps.flatMap Point.assignments)

namespace Run

variable {l l₁ l₂ : Lexical} {ps qs : List Point} {t₁ t₂ : Table}

theorem nil (h : l₁.Describes t₁) (hf : l₁.found = l.found) : Run l [] l₁ t₁ :=
  ⟨h, [], by rw [hf, List.append_nil], .nil⟩

theorem append (h₁ : Run l ps l₁ t₁) (h₂ : Run l₁ qs l₂ t₂) : Run l (ps ++ qs) l₂ t₂ := by
  obtain ⟨-, new₁, hf₁, hp₁⟩ := h₁
  obtain ⟨hd, new₂, hf₂, hp₂⟩ := h₂
  refine ⟨hd, new₁ ++ new₂, ?_, ?_⟩
  · rw [hf₂, hf₁, List.append_assoc]
  · rw [List.flatMap_append]
    exact List.rel_append hp₁ hp₂

/-- There is no assignment where something is entered. -/
theorem enter (h : Run l₁ ps l₂ t₂) (hf : l₁.found = l.found) : Run l ps l₂ t₂ :=
  ⟨h.describes, hf ▸ h.finds⟩

/-- There is no assignment where something is left. -/
theorem leave (h : Run l ps l₁ t₁) (hd : l₂.Describes t₂) (hf : l₂.found = l₁.found) :
    Run l ps l₂ t₂ :=
  ⟨hd, hf ▸ h.finds⟩

/-- A point that is no assignment finds what its parts find. -/
theorem of_children {p : Point} (hp : p.assignment? = []) (h : Run l p.children l₁ t₁) :
    Run l [p] l₁ t₁ := by
  refine ⟨h.describes, ?_⟩
  rw [List.flatMap_singleton, p.assignments_eq, hp, List.nil_append]
  exact h.finds

end Run

/-- Goes on to the end of an answer. -/
def Reply.scan : Reply → Lexical → Lexical
  | .expr e _ => e.scan
  | .exprs es _ => scanExprs es
  | .body b => b.scan
  | .stmt st => st.scan
  | .stmts sts => scanStmts sts
  | .waited => id

/-- A declaration may follow only where the current scope has been opened in the current region. -/
def Visit.Ready (t : Table) : Visit → Prop
  | .body .. | .stmts .. => t.Level
  | .stmt _ st => st.isBlock = true ∨ t.Level
  | _ => True

/-- The text and the checker stay together in a visit. -/
def Traces (s : Checker) (v : Visit) (r : Reply) (s' : Checker) : Prop :=
  ∀ l : Lexical, l.Describes s.table → v.Ready s.table → Run l [⟨s, v⟩] (r.scan l) s'.table

/-- What is known about the parts of a visit. -/
def PartTraced (s : Checker) (v : Visit) (r : Reply) (s' : Checker) : Prop :=
  s.table.WellFormed ∧ Gives s v r s' ∧ Traces s v r s'

namespace PartTraced

variable {s s' : Checker} {v : Visit} {r : Reply}

theorem lasts (h : PartTraced s v r s') : s.table.Lasts s'.table := h.2.1.lasts h.1

theorem wellFormed (h : PartTraced s v r s') : s'.table.WellFormed := h.2.1.wellFormed h.1

/-- A part ends in the scope and the region in which it begins. -/
theorem surroundings (h : PartTraced s v r s') : s.table.SameSurroundings s'.table :=
  h.2.1.after ▸ (sameSurroundings_visit s v).table

/-- After a part, a declaration may follow if one could before it. -/
theorem level (h : PartTraced s v r s') (hlevel : s.table.Level) : s'.table.Level :=
  hlevel.of_sameSurroundings h.1 h.surroundings h.lasts

theorem run (h : PartTraced s v r s') {l : Lexical} (hd : l.Describes s.table)
    (hr : v.Ready s.table) : Run l [⟨s, v⟩] (r.scan l) s'.table := h.2.2 l hd hr

theorem seq {v₁ v₂ : Visit} {r₁ r₂ : Reply} {s₁ s₂ : Checker} {l : Lexical}
    (h₁ : PartTraced s v₁ r₁ s₁) (h₂ : PartTraced s₁ v₂ r₂ s₂) (hd : l.Describes s.table)
    (hr₁ : v₁.Ready s.table) (hr₂ : v₂.Ready s₁.table) :
    Run l [⟨s, v₁⟩, ⟨s₁, v₂⟩] (r₂.scan (r₁.scan l)) s₂.table :=
  (h₁.run hd hr₁).append (h₂.run (h₁.run hd hr₁).describes hr₂)

end PartTraced

/-! ### Entering and leaving -/

namespace Lexical.Describes

variable {l : Lexical} {s : Checker}

theorem enterRegionIf (h : l.Describes s.table) (isolating : Bool) :
    (l.isolate isolating).Describes ((enterRegionIf isolating).after s).table := by
  cases isolating with
  | false => exact h
  | true => exact h.enterRegion

/-- A region is left after all scopes have been closed that were opened in it. -/
theorem exitRegionIf {l₀ : Lexical} {s₀ : Checker} {isolating : Bool} (h : l.Describes s.table)
    (h₀ : l₀.Describes s₀.table) (hw : s₀.table.WellFormed) (hl : s₀.table.Lasts s.table)
    (hi : s.table.inner = s₀.table.inner)
    (hr : s.table.region = ((CheckM.enterRegionIf isolating).after s₀).table.region) :
    (l.release isolating).Describes ((exitRegionIf isolating).after s).table := by
  cases isolating with
  | false => exact h
  | true =>
    refine h.exitRegion (k := s₀.table.region) hr fun c hc => ?_
    rw [Table.open_eq_of_inner_eq hi] at hc
    rw [hl.region c (hw.open_lt hc)]
    exact h₀.level_le hc

theorem onPopScope (h : l.Describes s.table) :
    l.closeScope.Describes (s.onLedger Ledger.popScope).table := by
  rw [Checker.table_onLedger, Ledger.table_popScope]
  exact h.popScope

/-- Registering the functions of a module puts nothing into a scope. -/
theorem registerFunctions (h : l.Describes s.table) (hw : s.table.WellFormed) (space : String)
    (statements : List Stmt) :
    ((registerFunctions space statements).after s).table.WellFormed ∧
      l.Describes ((registerFunctions space statements).after s).table :=
  keeps_registerFunctions (P := fun t => t.WellFormed ∧ l.Describes t)
    (fun ha h => ⟨h.1.addFunctionToNamespace ha, h.2.addFunctionToNamespace h.1 ha⟩) statements
    ⟨hw, h⟩

theorem enterModule (h : l.Describes s.table) (hw : s.table.WellFormed) {space : String}
    {id : SymbolId} (hadd : (addSpace space).answer s = some id) (module : String)
    (statements : List Stmt) :
    (l.declareSpace space).openScope.Describes
      ((enterModule module space statements).after ((addSpace space).after s)).table := by
  have hspace : ((addSpace space).after s).table.WellFormed ∧
      (l.declareSpace space).Describes ((addSpace space).after s).table := by
    rw [addSpace, after_askLedger, Checker.table_onLedger, Ledger.table_addNamespace]
    cases ha : s.table.addNamespace space with
    | none => simp [addSpace, Ledger.addNamespace, ha] at hadd
    | some r => exact ⟨hw.addNamespace ha, h.addNamespace hw ha⟩
  obtain ⟨hw₁, h₁⟩ := hspace
  obtain ⟨hw₂, h₂⟩ := h₁.registerFunctions hw₁ space statements
  exact h₂.openScope hw₂ rfl rfl

end Lexical.Describes

/-- A scope has been entered, maybe in a region of its own. -/
structure Enters (l : Lexical) (s : Checker) (isolating : Bool) (l₁ : Lexical) (s₁ : Checker) :
    Prop where
  describes : l₁.Describes s₁.table
  found : l₁.found = l.found
  lasts : s.table.Lasts s₁.table
  inner : s₁.table.inner.tail = s.table.inner
  region : s₁.table.region = ((enterRegionIf isolating).after s).table.region
  level : s₁.table.Level

namespace Enters

variable {l l₁ : Lexical} {s s₁ : Checker} {isolating : Bool}

theorem block (h : l.Describes s.table) (hw : s.table.WellFormed) (modifier : Modifier) :
    Enters l s (modifier = .isolated) (l.enterBlock (modifier = .isolated))
      ((enterBlock modifier).after s) := by
  have hregion := h.enterRegionIf (modifier = .isolated)
  refine ⟨hregion.openScope (hw.enterRegionIf _) rfl rfl, l.found_enterBlock _, ?_, ?_, rfl, ?_⟩
  · exact (lasts_enterRegionIf s _).trans (.openScope _)
  · exact inner_enterRegionIf s _
  · exact Table.level_openScope _ rfl

theorem frame (h : l.Describes s.table) (hw : s.table.WellFormed)
    {params : List (String × Ty × Qualifier)}
    (ht : s₁.table = (((enterRegionIf isolating).after s).table.pushFrame.addParams
      params).alignLocals) :
    Enters l s isolating ((l.enterBlock isolating).declareAll (params.map Prod.fst)) s₁ := by
  have hregion := h.enterRegionIf isolating
  have hw₁ := hw.enterRegionIf isolating
  have hinner := inner_enterRegionIf s isolating
  have hlasts := lasts_enterRegionIf s isolating
  -- the table inside of the region stands for itself from here on
  generalize hentered : ((enterRegionIf isolating).after s).table = entered at *
  have hopen : (l.enterBlock isolating).Describes entered.pushFrame := hregion.openScope hw₁ rfl rfl
  have hlevel : entered.pushFrame.Level := Table.level_openScope _ rfl
  have hparams := hopen.addParams hw₁.pushFrame hlevel params
  have hsame :
      entered.pushFrame.SameSurroundings (entered.pushFrame.addParams params).alignLocals :=
    (Table.SameSurroundings.addParams params).trans .alignLocals
  have hframe : entered.pushFrame.Lasts (entered.pushFrame.addParams params).alignLocals :=
    (Table.Lasts.addParams params).trans (.modifyScope rfl)
  rw [← ht] at hsame hframe
  refine ⟨ht ▸ hparams.alignLocals (hw₁.pushFrame.addParams params), ?_, ?_, ?_, ?_, ?_⟩
  · rw [Lexical.found_declareAll, Lexical.found_enterBlock]
  · exact (hlasts.trans (.openScope _)).trans hframe
  · rw [hsame.inner, Table.inner_pushFrame, List.tail_cons, hinner]
  · rw [hsame.region, Table.region_pushFrame, hentered]
  · exact hlevel.of_sameSurroundings hw₁.pushFrame hsame hframe

theorem lambda (h : l.Describes s.table) (hw : s.table.WellFormed) (head : LambdaHead)
    {types : List Ty} {params : List Param} (hlength : types.length = head.params.length)
    (hnames : params.map Param.name = head.params.map Param.name) (start : Position) :
    Enters l s (head.modifier = .isolated) (l.enterFrame (head.modifier = .isolated) params)
      ((enterLambda head types).after ((lambdaParamTypes start head.params).after s)) := by
  have hzip : ((head.params.zip types).map fun p => (p.1.name, p.2, p.1.qualifier)).map Prod.fst =
      params.map Param.name := by
    rw [hnames, List.map_map]
    show (head.params.zip types).map (Param.name ∘ Prod.fst) = _
    rw [← List.map_map, List.map_fst_zip (Nat.le_of_eq hlength.symm)]
  rw [Lexical.enterFrame, ← hzip]
  refine frame h hw ?_
  rw [table_enterLambda, table_enterRegionIf, table_enterRegionIf, table_lambdaParamTypes]

theorem function (h : l.Describes s.table) (hw : s.table.WellFormed) (head : FunctionHead)
    {params : List Param} (hnames : params.map Param.name = head.params.map Param.name) :
    Enters l s (head.modifier = .isolated) (l.enterFrame (head.modifier = .isolated) params)
      ((enterFunction head).after s) := by
  have hmap : (head.params.map fun p => (p.name, p.type.getD .nil, p.qualifier)).map Prod.fst =
      params.map Param.name := by
    rw [hnames, List.map_map]
    rfl
  rw [Lexical.enterFrame, ← hmap]
  exact frame h hw (table_enterFunction s head)

theorem run (he : Enters l s isolating l₁ s₁) (h : l.Describes s.table) (hw : s.table.WellFormed)
    {v : Visit} {r : Reply} {s₂ : Checker} (hp : PartTraced s₁ v r s₂) (hr : v.Ready s₁.table) :
    Run l [⟨s₁, v⟩] ((r.scan l₁).leaveBlock isolating)
      ((exitRegionIf isolating).after (s₂.onLedger Ledger.popScope)).table := by
  have hrun := (hp.run he.describes hr).enter he.found
  refine hrun.leave ?_ (Lexical.found_leaveBlock _ _)
  refine hrun.describes.onPopScope.exitRegionIf h hw ?_ ?_ ?_
  · exact he.lasts.trans (hp.lasts.trans (lasts_popScope s₂))
  · rw [Checker.table_onLedger, Ledger.table_popScope, Table.inner_popScope, hp.surroundings.inner,
      he.inner]
  · rw [Checker.table_onLedger, Ledger.table_popScope, Table.region_popScope,
      hp.surroundings.region, he.region]

end Enters

/-- The body of a loop is visited, in a region of its own if the loop is not shared. -/
theorem PartTraced.round {l : Lexical} {s s' : Checker} {isolating : Bool} {ret : Ty}
    {body body' : Stmt} (h : l.Describes s.table) (hw : s.table.WellFormed)
    (hp : PartTraced ((enterRegionIf isolating).after s) (.stmt ret body) (.stmt body') s')
    (hb : body.isBlock = true) :
    Run l [⟨(enterRegionIf isolating).after s, .stmt ret body⟩]
      ((body'.scan (l.isolate isolating)).release isolating)
      ((exitRegionIf isolating).after s').table := by
  have hrun := (hp.run (h.enterRegionIf isolating) (.inl hb)).enter (l.found_isolate isolating)
  refine hrun.leave ?_ (Lexical.found_release _ _)
  refine hrun.describes.exitRegionIf h hw ?_
    (hp.surroundings.inner.trans (inner_enterRegionIf s isolating)) hp.surroundings.region
  exact (lasts_enterRegionIf s isolating).trans hp.lasts

/-! ### Going through the rules -/

theorem MaybeExpr.run {l : Lexical} {s s' : Checker} {e e' : Option Expr} {ps : List Point}
    (h : MaybeExpr PartTraced s e e' s' ps) (hd : l.Describes s.table) (hw : s.table.WellFormed) :
    Run l ps (scanExpr? e' l) s'.table ∧ s'.table.WellFormed := by
  cases h with
  | none => exact ⟨.nil hd rfl, hw⟩
  | some h => exact ⟨h.run hd trivial, h.wellFormed⟩

theorem MaybeStmt.run {l : Lexical} {s s' : Checker} {ret : Ty} {st st' : Option Stmt}
    {ps : List Point} (h : MaybeStmt PartTraced s ret st st' s' ps) (hd : l.Describes s.table)
    (hw : s.table.WellFormed) (hlevel : s.table.Level) :
    Run l ps (scanStmt? st' l) s'.table ∧ s'.table.WellFormed := by
  cases h with
  | none => exact ⟨.nil hd rfl, hw⟩
  | some h => exact ⟨h.run hd (.inr hlevel), h.wellFormed⟩

/-- Handles are variables, in which there is nothing to find. -/
theorem scanExprs_of_vars {handles handles' : List Expr}
    (h : List.Forall₂ (fun e e' => ∃ k name t, e = .var k name ∧ e' = (Expr.var k name).withType t)
      handles handles') (l : Lexical) : scanExprs handles' l = l := by
  induction h with
  | nil => rfl
  | cons hvar _ ih =>
    obtain ⟨k, name, t, -, rfl⟩ := hvar
    rw [scanExprs, Expr.scan_withType]
    exact ih

/-- Where the checker only waits for threads, there is no assignment. -/
theorem Run.of_waits {l : Lexical} {t t' : Table} {ps : List Point} (h : l.Describes t)
    (hw : t.WellFormed) (hs : t.SameButThreads t')
    (hps : ∀ p ∈ ps, ∃ id name, p.visit = .wait id name) : Run l ps l t' := by
  refine ⟨h.of_sameButThreads hw hs, [], (List.append_nil _).symm, ?_⟩
  have hnil : ps.flatMap Point.assignments = [] := by
    rw [List.flatMap_eq_nil_iff]
    intro p hp
    obtain ⟨id, name, hv⟩ := hps p hp
    exact Point.assignments_wait hv
  rw [hnil]
  exact .nil

/-- The rule of an assignment, at which the numbers of regions are compared. -/
theorem run_assign {l : Lexical} {s s₁ : Checker} {hint : Option Ty} {n : Node} {name : String}
    {value value' : Expr} {id : SymbolId} {received : Ty} (hd : l.Describes s.table)
    (hw : s.table.WellFormed) (hid : s.table.lookup name = some id)
    (hp : PartTraced (s.captured id) (.expr (some (s.table.symbol id).type) value)
      (.expr value' received) s₁)
    (hescape : (s₁.table.symbol id).region < s₁.table.region → received.canEscape = true)
    (hc : (Point.mk s (.expr hint (.assign n name value))).children =
      [⟨s.captured id, .expr (some (s.table.symbol id).type) value⟩]) :
    Run l [⟨s, .expr hint (.assign n name value)⟩] (value'.scan (l.assign name value'))
      s₁.table := by
  have htable : (s.captured id).table = s.table := by rw [toLedger_captured]
  have hassign : (l.assign name value').Describes (s.captured id).table := by
    rw [htable]
    exact ⟨hd.depth, hd.fresh, hd.nodup, hd.inner, hd.global, hd.ground⟩
  obtain ⟨hdescribes, new, hfound, hnew⟩ := hp.run hassign trivial
  obtain ⟨d, hlookup, hdecl⟩ := hd.lookup hid
  obtain ⟨_, _, heq, hanswer, -⟩ := hp.2.1.expr
  cases heq
  let x : Assigned := ⟨name, value', l.lookup name, l.around⟩
  have hseparated := hd.separated_iff (x := x) rfl hlookup hdecl
  -- checking the value changes neither of the two numbers
  have hsymbol : (s₁.table.symbol id).region = (s.table.symbol id).region := by
    rw [← htable]
    exact hp.lasts.region_eq (htable ▸ hw.lookup_lt hid)
  have hregion : s₁.table.region = s.table.region := htable ▸ hp.surroundings.region
  have hx : x.IsAt ⟨s, .expr hint (.assign n name value)⟩ id d := by
    refine ⟨hid, hlookup, ⟨hint, n, value, rfl, ?_⟩, hdecl.space, hseparated, ?_⟩
    · show value' = _
      rw [hanswer]
    -- across a construct the numbers differ, and the checker has let the value pass
    · intro hspace hsep
      have hlt : (s₁.table.symbol id).region < s₁.table.region := by
        rw [hsymbol, hregion]
        exact (hseparated hspace).2 hsep
      have htype := type?_checkExpr (congrArg Outcome.type hanswer)
      rw [hanswer] at htype
      exact ⟨received, htype, hescape hlt⟩
  refine ⟨hdescribes, x :: new, ?_, ?_⟩
  · rw [Reply.scan] at hfound
    rw [hfound]
    exact List.append_assoc l.found [x] new
  · rw [List.flatMap_singleton, Point.assignments_eq, hc]
    exact .cons ⟨id, d, hx⟩ hnew

/-- By each rule but that of an assignment, the text and the checker stay together if they do in the
parts. -/
theorem run_of_rule {s s' : Checker} {v : Visit} {r : Reply} {ps : List Point} {l : Lexical}
    (h : Rule PartTraced s v r s' ps) (hw : s.table.WellFormed) (hd : l.Describes s.table)
    (hr : v.Ready s.table) (hv : (Point.mk s v).assignment? = []) :
    Run l ps (r.scan l) s'.table := by
  cases h with
  | literal => exact .nil hd rfl
  | var _ _ _ => exact .nil (by rw [toLedger_captured]; exact hd) rfl
  | binary h₁ h₂ _ => exact h₁.seq h₂ hd trivial trivial
  | unary h₁ _ => exact h₁.run hd trivial
  | assign => cases hv
  | indexAssign _ h₁ _ h₂ _ h₃ _ =>
    have hfirst := h₁.seq h₂ hd trivial trivial
    exact hfirst.append (h₃.run hfirst.describes trivial)
  | len _ h₁ _ => exact h₁.run hd trivial
  | call _ h₁ _ h₂ => exact h₁.seq h₂ hd trivial trivial
  | array h₁ => exact h₁.run hd trivial
  | access h₁ _ h₂ _ => exact h₁.seq h₂ hd trivial trivial
  | range h₁ _ h₂ _ => exact h₁.seq h₂ hd trivial trivial
  | increment _ h₁ _ => exact h₁.run hd trivial
  | decrement _ h₁ _ => exact h₁.run hd trivial
  | spaceMember hspace _ =>
    obtain ⟨m, name, rfl, -, -⟩ := Table.namespaceOf?_eq_some hspace
    exact .nil hd rfl
  | valueMember _ h₁ _ => exact h₁.run hd trivial
  | @lambda _ n head _ _ types params _ _ _ s₁ _ hs₀ hparams hlength h₁ =>
    subst hs₀
    rw [table_leaveLambda]
    -- the types of the parameters are inferred, and their names stay
    have he := Enters.lambda hd hw (head.infer _) hlength hparams.names n.span.start
    exact he.run hd hw h₁ he.level
  | spawn h₁ _ h₂ =>
    have r₁ := h₁.run hd trivial
    exact r₁.append (h₂.run r₁.describes trivial)
  | sync hsame hps => exact .of_waits hd hw hsame hps
  | syncAll hsame hps hvars =>
    show Run l _ (scanExprs _ l) _
    rw [scanExprs_of_vars hvars]
    exact .of_waits hd hw hsame hps
  | noArgs => exact .nil hd rfl
  | arg h₁ _ h₂ => exact h₁.seq h₂ hd trivial trivial
  | noElements => exact .nil hd rfl
  | element h₁ _ _ h₂ => exact h₁.seq h₂ hd trivial trivial
  | exprBody h₁ _ => exact h₁.run hd trivial
  | blockBody h₁ => exact h₁.run hd hr
  | expression h₁ => exact h₁.run hd trivial
  | @declare _ _ head t _ hsame =>
    have hlevel := hr.resolve_left nofun
    have hadd := hd.addQualified hw hlevel head.name t s.table.declarationKind head.qualifier
    exact .nil (hadd.of_sameButThreads (hw.addQualified _ _ _ _) hsame) (l.found_declare _)
  | @declareInit _ _ head _ init' _ b t s₁ _ h₁ hsame =>
    have hlevel := h₁.level (hr.resolve_left nofun)
    have r₁ := h₁.run hd trivial
    have hadd := r₁.describes.addQualified h₁.wellFormed hlevel head.name t
      s₁.table.declarationKind head.qualifier
    show Run l _ (((init'.withType b).scan l).declare head.name) _
    rw [Expr.scan_withType]
    exact r₁.leave (hadd.of_sameButThreads (h₁.wellFormed.addQualified _ _ _ _) hsame)
      (Lexical.found_declare _ _)
  | @function _ span head _ _ _ _ _ _ hs₀ hs₁ hparams h₁ =>
    have hlevel := hr.resolve_left nofun
    subst hs₀ hs₁
    -- the name of the function stands outside of its own region
    have htable : ((declareFunction head).after ((reportHead span head).after s)).table =
        (s.table.addFunction head.name head.type (effectiveModifier head.modifier head.ret)
          head.modifier).1 := by
      rw [← table_reportHead s span head]
      rfl
    have hadd := hd.addFunction hw hlevel head.name head.type
      (effectiveModifier head.modifier head.ret) head.modifier
    have hw₁ := hw.addFunction head.name head.type (effectiveModifier head.modifier head.ret)
      head.modifier
    rw [← htable] at hadd hw₁
    have he := Enters.function hadd hw₁ head hparams.names
    exact (he.run hadd hw₁ h₁ he.level).enter (l.found_declare head.name)
  -- the value of a return may be missing
  | ret h₁ => exact (h₁.run hd hw).1
  | block h₁ => exact (Enters.block hd hw _).run hd hw h₁ (Enters.block hd hw _).level
  | cond h₁ _ h₂ h₃ =>
    have hlevel := h₁.level (hr.resolve_left nofun)
    have hfirst := h₁.seq h₂ hd trivial (.inr hlevel)
    exact hfirst.append (h₃.run hfirst.describes h₂.wellFormed (h₂.level hlevel)).1
  | whileLoop h₁ _ h₂ hblock =>
    have r₁ := h₁.run hd trivial
    exact r₁.append (h₂.round r₁.describes h₁.wellFormed hblock)
  | forLoop h₁ h₂ h₃ h₄ hblock =>
    -- the scope of the loop is entered first, and its parts follow one after the other
    have hscope : l.openScope.Describes s.table.pushScope := hd.openScope hw rfl rfl
    obtain ⟨r₁, hw₁⟩ := h₁.run hscope hw.pushScope (Table.level_openScope _ rfl)
    obtain ⟨r₂, hw₂⟩ := h₂.run r₁.describes hw₁
    obtain ⟨r₃, hw₃⟩ := h₃.run r₂.describes hw₂
    have hrun := ((r₁.append r₂).append r₃).append (h₄.round r₃.describes hw₃ hblock)
    exact (hrun.leave hrun.describes.onPopScope rfl).enter rfl
  | @forEach _ _ name _ _ _ shared iterable' _ _ element s₁ s₂ h₁ _ h₂ hblock =>
    have r₁ := h₁.run hd trivial
    -- the variable is declared before the region of the body is entered
    let round := (s₁.onLedger Ledger.pushScope).onLedger fun l => (l.add name element .param).1
    let inside := (iterable'.scan l).openScope.declare name
    have hround : inside.Describes round.table :=
      (r₁.describes.openScope h₁.wellFormed rfl rfl).add h₁.wellFormed.pushScope
        (Table.level_openScope _ rfl) name element .param
    have r₂ := PartTraced.round (s := round) hround (h₁.wellFormed.pushScope.add _ _ _) h₂ hblock
    have hfound : inside.found = (iterable'.scan l).found := Lexical.found_declare _ _
    have hrun := r₁.append (r₂.enter hfound)
    exact hrun.leave hrun.describes.onPopScope rfl
  | leave => exact .nil hd rfl
  | next => exact .nil hd rfl
  | importMerged => exact .nil hd rfl
  | importSpace _ hadd h₁ =>
    have hrun := h₁.run (hd.enterModule hw hadd _ _) (Table.level_openScope _ rfl)
    exact (hrun.leave hrun.describes.onPopScope rfl).enter rfl
  | noStmts => exact .nil hd rfl
  | stmt h₁ h₂ => exact h₁.seq h₂ hd (.inr hr) (h₁.level hr)
  | wait => exact .of_waits hd hw (sameButThreads_syncPending _ _ _) nofun

/-- By each rule, the text and the checker stay together if they do in the parts. -/
theorem traces_of_rule {s s' : Checker} {v : Visit} {r : Reply} (hw : s.table.WellFormed)
    (h : Rule PartTraced s v r s' (Point.mk s v).children) : Traces s v r s' := by
  intro l hd hr
  by_cases hv : (Point.mk s v).assignment? = []
  · exact .of_children hv (run_of_rule h hw hd hr hv)
  · generalize hc : (Point.mk s v).children = ps at h
    cases h with
    | assign hid _ hp _ hescape => exact run_assign hd hw hid hp hescape hc
    | _ => exact absurd rfl hv

/-- In a visit without an error, the text and the checker stay together. -/
theorem traces_of_gives {s s' : Checker} {v : Visit} {r : Reply} (h : Gives s v r s')
    (hf : v.Fresh) (hw : s.table.WellFormed) : Traces s v r s' :=
  h.induct (fun _ hw _ hr => traces_of_rule hw hr) hf hw

/-- At the start, both sides have the one function that every program can call. -/
theorem describes_initial (d : Nat) : Lexical.initial.Describes (Checker.initial d).table := by
  have hempty : Lexical.Describes ⟨[], [], [], 0, []⟩ Table.empty :=
    ⟨rfl, nofun, .nil, .nil, .empty (Nat.le_refl 0), rfl⟩
  exact hempty.addFunction Table.wellFormed_empty rfl "print" _ .default .default

/-- In an accepted program the assignments of the text are those that have been checked.  The number
of regions around an assignment exceeds the one noted down for its target exactly if an isolating
construct stands between the two, and then the value is a primitive one. -/
theorem checkModule_separated (d : Nat) (m : Module) (hm : m.IsProgram)
    (h : (checkModule d m).1.accepted) :
    List.Forall₂ (fun x p => ∃ id target, x.IsAt p id target)
      (assignmentsIn (checkModule d m).2.statements) (m.start d).assignments := by
  have htraces := traces_of_gives (gives_of_accepted h) hm.fresh (wellFormed_initial d)
  obtain ⟨-, new, hfound, hnew⟩ := htraces _ (describes_initial d) rfl
  rw [List.flatMap_singleton] at hnew
  rw [assignmentsIn]
  exact hfound ▸ hnew

/-- A program in which a number leaves a loop, and an array leaves a loop that is shared. -/
def Sample.loops? : Option Module :=
  Module.ofSource? []
    ("var n = 0; var a: int[] = {1}; var b: int[] = {2}; " ++
      "while n < 3 { var k = n; k = k + 1; n = k; } shared while n < 6 { a = b; n = n + 1; }")
    "main.sn"

theorem Sample.any_loops? :
    Sample.loops?.any fun m =>
      (checkModule defaultSuggestionDistance m).1.accepted &&
        ((assignmentsIn (checkModule defaultSuggestionDistance m).2.statements).map
          fun x => (x.name, decide x.Separated)) =
            [("k", false), ("n", true), ("a", false), ("n", false)] := by
  decide +kernel

def Sample.loops : Module :=
  Sample.loops?.get ((Option.any_eq_true_iff_get _ _).1 Sample.any_loops?).fst

theorem Sample.isProgram_loops : Sample.loops.IsProgram :=
  Module.isProgram_of_source (Option.some_get _).symm

/-- The program is accepted, and one of its assignments is across an isolating construct. -/
theorem Sample.accepted_loops :
    (checkModule defaultSuggestionDistance Sample.loops).1.accepted ∧
      ((assignmentsIn (checkModule defaultSuggestionDistance Sample.loops).2.statements).map
        fun x => (x.name, decide x.Separated)) =
          [("k", false), ("n", true), ("a", false), ("n", false)] := by
  obtain ⟨haccepted, hfound⟩ :=
    Bool.and_eq_true_iff.1 ((Option.any_eq_true_iff_get _ _).1 Sample.any_loops?).snd
  exact ⟨haccepted, of_decide_eq_true hfound⟩

theorem checkModule_separated_loops :
    Sample.loops.IsProgram ∧ (checkModule defaultSuggestionDistance Sample.loops).1.accepted ∧
      ((assignmentsIn (checkModule defaultSuggestionDistance Sample.loops).2.statements).map
        fun x => (x.name, decide x.Separated)) =
          [("k", false), ("n", true), ("a", false), ("n", false)] ∧
      List.Forall₂ (fun x p => ∃ id target, x.IsAt p id target)
        (assignmentsIn (checkModule defaultSuggestionDistance Sample.loops).2.statements)
        (Sample.loops.start defaultSuggestionDistance).assignments :=
  ⟨Sample.isProgram_loops, Sample.accepted_loops.1, Sample.accepted_loops.2,
    checkModule_separated _ _ Sample.isProgram_loops Sample.accepted_loops.1⟩

end ThreadRegions
