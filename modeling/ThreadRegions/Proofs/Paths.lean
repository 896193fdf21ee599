import ThreadRegions.Proofs.Waiting

/-!
# Control-flow paths and waiting

The walk of the checker goes through all parts of a program, one after the other.  The program
itself takes one of many paths: it runs one branch of a condition, the body of a loop any number of
times, and the body of a function or a lambda not where that is declared.  Here the paths are
written down, and it is shown on which points all paths wait for a thread.

## Main Definitions

* `Exit`: how a path ends
* `Point.Runs`: the paths through a point, with the handles that are waited for on the way
* `Point.MustWait`: no path gets to the end of a point without waiting for a thread

## Main Results

* `runs_iff_mustWait`: `Point.MustWait` says of a point what it says of the paths through it
* `released_only_by_wait`: a handle that a statement releases is waited for inside of it, and unless
  a wait stands in a branch, in the body of a loop or in that of a function or a lambda, all paths
  through the statement wait for it

## Design Notes

A path is given by the handles that are waited for, in order.  What a loop does before its first
round it does again at the end of each round; a path does not list it again, since waiting for a
thread twice is the same as waiting for it once.
-/

namespace ThreadRegions

/-! ### Paths -/

/-- How a path through a piece of a program ends. -/
inductive Exit where
  /-- At the end of the piece. -/
  | done
  /-- It leaves the loop around. -/
  | leave
  /-- It goes on with the next round of the loop around. -/
  | next
  /-- It leaves the function around. -/
  | ret
  deriving DecidableEq, Repr

/-- Whether a path goes on in a loop after a piece of a round that ends like this. -/
def Exit.goesOn : Exit → Bool
  | .done | .next => true
  | .leave | .ret => false

/-- How a path ends that gets to the end of a visit. -/
def Visit.exit : Visit → Exit
  | .stmt _ (.leave _) => .leave
  | .stmt _ (.next _) => .next
  | .stmt _ (.ret ..) => .ret
  | _ => .done

/-- The handles that are waited for at a visit itself. -/
def Visit.waits : Visit → List SymbolId
  | .wait id _ => [id]
  | _ => []

mutual

/-- A path through a point, with the handles that are waited for on the way. -/
inductive Point.Runs : Point → List SymbolId → Exit → Prop
  | through {p : Point} {w : List SymbolId} :
      PartsRun p.parts w .done → Point.Runs p (w ++ p.visit.waits) p.visit.exit
  | early {p : Point} {w : List SymbolId} {e : Exit} :
      PartsRun p.parts w e → e ≠ .done → Point.Runs p w e

/-- A path through the parts of a point.  There are no parts behind the branches of a condition and
behind the body of a loop. -/
inductive PartsRun : List Part → List SymbolId → Exit → Prop
  | nil : PartsRun [] [] .done
  | always {q : Part} {rest : List Part} {w w' : List SymbolId} {e : Exit} : q.role = .always →
      Point.Runs q.toPoint w .done → PartsRun rest w' e → PartsRun (q :: rest) (w ++ w') e
  | early {q : Part} {rest : List Part} {w : List SymbolId} {e : Exit} : q.role = .always →
      Point.Runs q.toPoint w e → e ≠ .done → PartsRun (q :: rest) w e
  | elsewhere {q : Part} {rest : List Part} {w : List SymbolId} {e : Exit} : q.role = .elsewhere →
      PartsRun rest w e → PartsRun (q :: rest) w e
  /-- The condition holds. -/
  | holds {q : Part} {rest : List Part} {w : List SymbolId} {e : Exit} : q.role = .whenTrue →
      Point.Runs q.toPoint w e → PartsRun (q :: rest) w e
  /-- The condition does not hold. -/
  | fails {q : Part} {rest : List Part} {w : List SymbolId} {e : Exit} : q.role = .whenTrue →
      PartsRun rest w e → PartsRun (q :: rest) w e
  | otherwise {q : Part} {rest : List Part} {w : List SymbolId} {e : Exit} : q.role = .whenFalse →
      Point.Runs q.toPoint w e → PartsRun (q :: rest) w e
  /-- There is no further round. -/
  | stop {q : Part} {rest : List Part} : q.role = .eachRound → PartsRun (q :: rest) [] .done
  | round {q : Part} {rest : List Part} {w w' : List SymbolId} {e e' : Exit} :
      q.role = .eachRound → RoundRuns (q :: rest).reverse w e → e.goesOn →
        PartsRun (q :: rest) w' e' → PartsRun (q :: rest) (w ++ w') e'
  | left {q : Part} {rest : List Part} {w : List SymbolId} : q.role = .eachRound →
      RoundRuns (q :: rest).reverse w .leave → PartsRun (q :: rest) w .done
  | returned {q : Part} {rest : List Part} {w : List SymbolId} : q.role = .eachRound →
      RoundRuns (q :: rest).reverse w .ret → PartsRun (q :: rest) w .ret

/-- A path through one round of a loop, whose pieces are given in the order of running. -/
inductive RoundRuns : List Part → List SymbolId → Exit → Prop
  | nil : RoundRuns [] [] .done
  | piece {q : Part} {rest : List Part} {w w' : List SymbolId} {e e' : Exit} :
      Point.Runs q.toPoint w e → e.goesOn → RoundRuns rest w' e' →
        RoundRuns (q :: rest) (w ++ w') e'
  | early {q : Part} {rest : List Part} {w : List SymbolId} {e : Exit} :
      Point.Runs q.toPoint w e → ¬ e.goesOn → RoundRuns (q :: rest) w e

end

/-- A path gets to the end of a point if it gets to the end of its parts, and the point is no jump.
-/
theorem runs_done_iff {p : Point} {w : List SymbolId} :
    p.Runs w .done ↔
      p.visit.exit = .done ∧ ∃ w', PartsRun p.parts w' .done ∧ w = w' ++ p.visit.waits := by
  -- the exit has to be a variable for the cases
  have key : ∀ e, p.Runs w e → e = .done →
      p.visit.exit = .done ∧ ∃ w', PartsRun p.parts w' .done ∧ w = w' ++ p.visit.waits := by
    intro e h he
    cases h with
    | through hparts => exact ⟨he, _, hparts, rfl⟩
    | early _ hne => exact absurd he hne
  constructor
  · exact fun h => key _ h rfl
  · rintro ⟨hexit, w', hparts, rfl⟩
    rw [← hexit]
    exact .through hparts

/-! ### The order of parts -/

/-- Parts that are run in any case or not here come first, and then the branches of one condition or
the rounds of one loop. -/
inductive Shaped : List Part → Prop
  | nil : Shaped []
  | always {q : Part} {rest : List Part} : q.role = .always → Shaped rest → Shaped (q :: rest)
  | elsewhere {q : Part} {rest : List Part} : q.role = .elsewhere → Shaped rest → Shaped (q :: rest)
  | condition {q : Part} : q.role = .whenTrue → Shaped [q]
  | branches {q q' : Part} : q.role = .whenTrue → q'.role = .whenFalse → Shaped [q, q']
  | loop {q : Part} {rest : List Part} : (∀ r ∈ q :: rest, r.role = .eachRound) →
      Shaped (q :: rest)

namespace Shaped

theorem single {q : Part} (h : q.role = .always) : Shaped [q] := .always h .nil

theorem append_always {front rest : List Part} (h : ∀ q ∈ front, q.role = .always)
    (hrest : Shaped rest) : Shaped (front ++ rest) := by
  induction front with
  | nil => exact hrest
  | cons q others ih =>
    obtain ⟨hq, hothers⟩ := List.forall_mem_cons.1 h
    exact .always hq (ih hothers)

/-- If the part before has no type, no further parts follow. -/
theorem thenParts {o : Outcome} {next : Ty → Expr → List Part} (h : ∀ t e, Shaped (next t e)) :
    Shaped (o.thenParts next) := by
  unfold Outcome.thenParts
  split
  · exact h _ _
  · exact .nil

/-- All parts of a call are run in any case. -/
theorem callParts (s : Checker) (callee : Expr) (args : List Expr) (check : CheckM Outcome)
    {calleeParts : List Part} (h : ∀ q ∈ calleeParts, q.role = .always) :
    Shaped (callParts s callee args check calleeParts) := by
  unfold ThreadRegions.callParts
  split
  · split
    · exact .nil
    · exact single rfl
  · split
    · exact .nil
    · refine append_always h (thenParts fun t e => ?_)
      split
      · split
        · exact single rfl
        · exact .nil
      · exact .nil

theorem waitParts (s : Checker) (handles : List (Expr × SymbolId)) :
    Shaped (waitParts s handles) := by
  induction handles generalizing s with
  | nil => exact .nil
  | cons first others ih => exact .always rfl (ih _)

/-- The body of a lambda is not run here, and everything else is run in any case. -/
theorem exprParts (s : Checker) (hint : Option Ty) (e : Expr) : Shaped (exprParts s hint e) := by
  cases e with
  | literal n v => exact .nil
  | var n name => exact .nil
  | binary n op left right => exact .always rfl (thenParts fun _ _ => single rfl)
  | unary n op operand => exact single rfl
  | assign n name value =>
    simp only [ThreadRegions.exprParts]
    split
    · exact .nil
    · split
      · exact .nil
      · exact single rfl
  | indexAssign n array index value =>
    simp only [ThreadRegions.exprParts]
    split
    · exact .nil
    · refine .always rfl (thenParts fun a _ => ?_)
      split
      · exact .nil
      · refine .always rfl (thenParts fun i _ => ?_)
        split
        · exact .nil
        · exact single rfl
  | call n callee args => exact callParts s callee args _ fun q hq => by simp_all [Part.always]
  | array n elements => exact single rfl
  | access n array index =>
    refine .always rfl (thenParts fun a _ => ?_)
    split
    · exact .nil
    · exact single rfl
  | range n first last =>
    refine .always rfl (thenParts fun a _ => ?_)
    split
    · exact .nil
    · exact single rfl
  | increment n operand =>
    simp only [ThreadRegions.exprParts]
    split
    · exact .nil
    · exact single rfl
  | decrement n operand =>
    simp only [ThreadRegions.exprParts]
    split
    · exact .nil
    · exact single rfl
  | member n object name =>
    simp only [ThreadRegions.exprParts]
    split
    · exact .nil
    · exact single rfl
  | lambda n head body =>
    simp only [ThreadRegions.exprParts, lambdaParts]
    split
    · exact .nil
    · split
      · exact .nil
      · split
        · exact .nil
        · exact .elsewhere rfl .nil
  | spawn n call mode =>
    -- only a call can be started as a thread
    cases call with
    | call m callee args =>
      simp only [ThreadRegions.exprParts]
      refine .always rfl (thenParts fun type callee' => ?_)
      split
      · split
        · exact .nil
        · exact callParts _ callee' args _ (by simp)
      · exact .nil
    | _ => exact .nil
  | sync n handle isArray =>
    cases isArray with
    | false =>
      simp only [ThreadRegions.exprParts]
      split
      · exact .nil
      · split
        · exact .nil
        · exact single rfl
    | true =>
      cases handle with
      | array m handles =>
        simp only [ThreadRegions.exprParts]
        split
        · exact .nil
        · exact waitParts _ _
      | _ => exact .nil

/-- Conditions and loops are statements. -/
theorem stmtParts (s : Checker) (ret : Ty) (st : Stmt) : Shaped (stmtParts s ret st) := by
  cases st with
  | expression span value => exact single rfl
  | declare span head init =>
    cases init with
    | none => exact .nil
    | some init => exact single rfl
  | function span head body =>
    simp only [ThreadRegions.stmtParts]
    split
    · exact .nil
    · exact .elsewhere rfl .nil
  | ret span value =>
    cases value with
    | none => exact .nil
    | some value => exact single rfl
  | block span modifier body => exact single rfl
  | cond span condition yes no =>
    cases no with
    | none => exact .always rfl (.condition rfl)
    | some branch => exact .always rfl (.branches rfl rfl)
  | whileLoop span condition body shared => exact .always rfl (.loop (by simp))
  | forLoop span init condition step body shared =>
    simp only [ThreadRegions.stmtParts, List.append_assoc]
    refine append_always ?_ (append_always ?_ ?_)
    · cases init <;> simp [Part.always]
    · cases condition <;> simp [Part.always]
    · cases step with
      | none => exact .loop (by simp)
      | some e => exact .loop (by simp)
  | forEach span name symbol iterable body shared =>
    refine .always rfl (thenParts fun t _ => ?_)
    split
    · exact .nil
    · exact .loop (by simp)
  | leave span => exact .nil
  | next span => exact .nil
  | importModule span module space statements =>
    cases space with
    | none => exact .nil
    | some space =>
      simp only [ThreadRegions.stmtParts]
      split
      · exact .nil
      · split
        · exact .nil
        · exact single rfl

/-- The parts of every point come in order. -/
theorem parts (p : Point) : Shaped p.parts := by
  obtain ⟨s, v⟩ := p
  cases v with
  | expr hint e =>
    simp only [Point.parts]
    split
    · exact .nil
    · exact exprParts s hint e
  | args function index params es =>
    cases es with
    | nil => exact .nil
    | cons arg others =>
      refine .always rfl (thenParts fun received _ => ?_)
      split
      · exact .nil
      · exact single rfl
  | elements start first es =>
    cases es with
    | nil => exact .nil
    | cons element others =>
      refine .always rfl (thenParts fun t e => ?_)
      generalize (if e.isRange then Ty.int else t) = t
      dsimp only
      split
      · exact single rfl
      · exact .nil
  | body start ret b =>
    cases b with
    | expr value => exact single rfl
    | block statements => exact single rfl
  | stmt ret st => exact stmtParts s ret st
  | stmts ret sts =>
    cases sts with
    | nil => exact .nil
    | cons st others => exact .always rfl (single rfl)
  | wait id name => exact .nil

end Shaped

/-! ### Points that all paths wait in -/

/-- No path gets to the end of the point without waiting for the thread of the handle: the point is
that wait, or no path gets to its end at all, or a part that is run in any case is such a point, or
both branches of a condition are. -/
inductive Point.MustWait (id : SymbolId) : Point → Prop
  | wait {p : Point} {name : String} : p.visit = .wait id name → MustWait id p
  | jump {p : Point} : p.visit.exit ≠ .done → MustWait id p
  | part {p : Point} {q : Part} : q ∈ p.parts → q.role = .always → MustWait id q.toPoint →
      MustWait id p
  | branches {p : Point} {q q' : Part} : q ∈ p.parts → q' ∈ p.parts → q.role = .whenTrue →
      q'.role = .whenFalse → MustWait id q.toPoint → MustWait id q'.toPoint → MustWait id p

/-- What makes a point one that all paths wait in, as far as its parts are concerned. -/
def PartsMust (id : SymbolId) (parts : List Part) : Prop :=
  (∃ q ∈ parts, q.role = .always ∧ q.toPoint.MustWait id) ∨
    ∃ q ∈ parts, ∃ q' ∈ parts, q.role = .whenTrue ∧ q'.role = .whenFalse ∧
      q.toPoint.MustWait id ∧ q'.toPoint.MustWait id

/-- The ways in which all paths can wait, one by one. -/
theorem mustWait_iff {id : SymbolId} {p : Point} :
    p.MustWait id ↔
      (∃ name, p.visit = .wait id name) ∨ p.visit.exit ≠ .done ∨ PartsMust id p.parts := by
  constructor
  · intro h
    cases h with
    | wait hv => exact .inl ⟨_, hv⟩
    | jump he => exact .inr (.inl he)
    | part hq hrole hmust => exact .inr (.inr (.inl ⟨_, hq, hrole, hmust⟩))
    | branches hq hq' hr hr' hm hm' =>
      exact .inr (.inr (.inr ⟨_, hq, _, hq', hr, hr', hm, hm'⟩))
  · rintro (⟨name, hv⟩ | he | ⟨q, hq, hrole, hmust⟩ | ⟨q, hq, q', hq', hr, hr', hm, hm'⟩)
    · exact .wait hv
    · exact .jump he
    · exact .part hq hrole hmust
    · exact .branches hq hq' hr hr' hm hm'

section

variable {id : SymbolId}

/-- One more part does not take away what makes all paths wait. -/
theorem PartsMust.cons {q : Part} {rest : List Part} (h : PartsMust id rest) :
    PartsMust id (q :: rest) := by
  rcases h with ⟨r, hr, hrole, hm⟩ | ⟨r, hr, r', hr', h⟩
  · exact .inl ⟨r, List.mem_cons_of_mem q hr, hrole, hm⟩
  · exact .inr ⟨r, List.mem_cons_of_mem q hr, r', List.mem_cons_of_mem q hr', h⟩

/-- A part that is no branch is taken away. -/
theorem PartsMust.of_cons {q : Part} {rest : List Part} (h : PartsMust id (q :: rest))
    (hyes : q.role ≠ .whenTrue) (hno : q.role ≠ .whenFalse) :
    (q.role = .always ∧ q.toPoint.MustWait id) ∨ PartsMust id rest := by
  rcases h with ⟨r, hr, hrole, hm⟩ | ⟨r, hr, r', hr', hyes', hno', h⟩
  · rcases List.mem_cons.1 hr with rfl | hr
    · exact .inl ⟨hrole, hm⟩
    · exact .inr (.inl ⟨r, hr, hrole, hm⟩)
  · have hr : r ∈ rest := (List.mem_cons.1 hr).resolve_left fun h => hyes (h ▸ hyes')
    have hr' : r' ∈ rest := (List.mem_cons.1 hr').resolve_left fun h => hno (h ▸ hno')
    exact .inr (.inr ⟨r, hr, r', hr', hyes', hno', h⟩)

end

/-! ### Paths through parts -/

section

variable {q q' : Part} {rest : List Part} {w : List SymbolId}

/-- A path to the end goes through a part that is run in any case. -/
theorem PartsRun.of_always (h : PartsRun (q :: rest) w .done) (hrole : q.role = .always) :
    ∃ w₁ w₂, q.toPoint.Runs w₁ .done ∧ PartsRun rest w₂ .done ∧ w = w₁ ++ w₂ := by
  cases h with
  | always _ hfirst hrest => exact ⟨_, _, hfirst, hrest, rfl⟩
  | early _ _ hne => exact absurd rfl hne
  | _ => simp_all

/-- A path goes past a part that is not run here. -/
theorem PartsRun.of_elsewhere (h : PartsRun (q :: rest) w .done) (hrole : q.role = .elsewhere) :
    PartsRun rest w .done := by
  cases h with
  | elsewhere _ hrest => exact hrest
  | _ => simp_all

/-- A path goes through one of the two branches. -/
theorem PartsRun.of_branches (h : PartsRun [q, q'] w .done) (hrole : q.role = .whenTrue)
    (hrole' : q'.role = .whenFalse) : q.toPoint.Runs w .done ∨ q'.toPoint.Runs w .done := by
  cases h with
  | holds _ hyes => exact .inl hyes
  | fails _ hrest =>
    cases hrest with
    | otherwise _ hno => exact .inr hno
    | _ => simp_all
  | _ => simp_all

end

/-! ### All paths -/

section

variable {id : SymbolId} {q q' : Part} {rest parts : List Part}

/-- Parts without one that is run in any case and without two branches do not make all paths
wait. -/
theorem not_partsMust (halways : ∀ r ∈ parts, r.role ≠ .always)
    (hbranch : (∀ r ∈ parts, r.role ≠ .whenTrue) ∨ ∀ r ∈ parts, r.role ≠ .whenFalse) :
    ¬ PartsMust id parts := by
  rintro (⟨r, hr, hrole, -⟩ | ⟨r, hr, r', hr', htrue, hfalse, -⟩)
  · exact halways r hr hrole
  · rcases hbranch with hbranch | hbranch
    · exact hbranch r hr htrue
    · exact hbranch r' hr' hfalse

theorem partsRun_iff_of_skip (hskip : PartsRun parts [] .done) (hmust : ¬ PartsMust id parts) :
    (∀ w, PartsRun parts w .done → id ∈ w) ↔ PartsMust id parts := by
  constructor
  · intro hall
    cases hall [] hskip
  · intro h
    exact absurd h hmust

/-- A part that is run in any case: all paths wait in it, or all paths wait behind it. -/
theorem partsRun_iff_always (hrole : q.role = .always)
    (hq : (∀ w, q.toPoint.Runs w .done → id ∈ w) ↔ q.toPoint.MustWait id)
    (hrest : (∀ w, PartsRun rest w .done → id ∈ w) ↔ PartsMust id rest) :
    (∀ w, PartsRun (q :: rest) w .done → id ∈ w) ↔ PartsMust id (q :: rest) := by
  constructor
  · intro hall
    by_cases hmust : q.toPoint.MustWait id
    · exact .inl ⟨q, List.mem_cons_self, hrole, hmust⟩
    · -- one path through the first part does not wait, so all through the others do
      rw [← hq] at hmust
      simp only [not_forall] at hmust
      obtain ⟨w, hw, hnot⟩ := hmust
      refine (hrest.1 fun w' hw' => ?_).cons
      exact (List.mem_append.1 (hall _ (.always hrole hw hw'))).resolve_left hnot
  · intro hmust w hw
    obtain ⟨w₁, w₂, hfirst, hothers, rfl⟩ := hw.of_always hrole
    rcases hmust.of_cons (by simp [hrole]) (by simp [hrole]) with ⟨-, hm⟩ | hm
    · exact List.mem_append_left _ (hq.2 hm _ hfirst)
    · exact List.mem_append_right _ (hrest.2 hm _ hothers)

/-- A part that is not run here has nothing to do with it. -/
theorem partsRun_iff_elsewhere (hrole : q.role = .elsewhere)
    (hrest : (∀ w, PartsRun rest w .done → id ∈ w) ↔ PartsMust id rest) :
    (∀ w, PartsRun (q :: rest) w .done → id ∈ w) ↔ PartsMust id (q :: rest) := by
  constructor
  · intro hall
    exact (hrest.1 fun w hw => hall w (.elsewhere hrole hw)).cons
  · intro hmust w hw
    rcases hmust.of_cons (by simp [hrole]) (by simp [hrole]) with ⟨halways, -⟩ | hm
    · rw [hrole] at halways
      cases halways
    · exact hrest.2 hm w (hw.of_elsewhere hrole)

theorem partsMust_branches_iff (hrole : q.role = .whenTrue) (hrole' : q'.role = .whenFalse) :
    PartsMust id [q, q'] ↔ q.toPoint.MustWait id ∧ q'.toPoint.MustWait id := by
  simp [PartsMust, hrole, hrole']

/-- All paths wait if they do in both branches. -/
theorem partsRun_iff_branches (hrole : q.role = .whenTrue) (hrole' : q'.role = .whenFalse)
    (hq : (∀ w, q.toPoint.Runs w .done → id ∈ w) ↔ q.toPoint.MustWait id)
    (hq' : (∀ w, q'.toPoint.Runs w .done → id ∈ w) ↔ q'.toPoint.MustWait id) :
    (∀ w, PartsRun [q, q'] w .done → id ∈ w) ↔ PartsMust id [q, q'] := by
  rw [partsMust_branches_iff hrole hrole', ← hq, ← hq']
  constructor
  · intro hall
    exact ⟨fun w hw => hall w (.holds hrole hw),
      fun w hw => hall w (.fails hrole (.otherwise hrole' hw))⟩
  · rintro ⟨hyes, hno⟩ w hw
    rcases hw.of_branches hrole hrole' with hw | hw
    · exact hyes w hw
    · exact hno w hw

/-- All paths through parts wait for a thread exactly if the parts make them do so. -/
theorem partsRun_iff_partsMust (hshape : Shaped parts)
    (h : ∀ q ∈ parts, (∀ w, q.toPoint.Runs w .done → id ∈ w) ↔ q.toPoint.MustWait id) :
    (∀ w, PartsRun parts w .done → id ∈ w) ↔ PartsMust id parts := by
  induction hshape with
  | nil => exact partsRun_iff_of_skip .nil (not_partsMust nofun (.inl nofun))
  | always hrole _ ih =>
    obtain ⟨hq, hrest⟩ := List.forall_mem_cons.1 h
    exact partsRun_iff_always hrole hq (ih hrest)
  | elsewhere hrole _ ih => exact partsRun_iff_elsewhere hrole (ih (List.forall_mem_cons.1 h).2)
  | condition hrole =>
    -- the condition may fail, and then nothing is run
    refine partsRun_iff_of_skip (.fails hrole .nil) (not_partsMust ?_ (.inr ?_))
    · simp [hrole]
    · simp [hrole]
  | branches hrole hrole' =>
    obtain ⟨hq, hrest⟩ := List.forall_mem_cons.1 h
    exact partsRun_iff_branches hrole hrole' hq (hrest _ List.mem_cons_self)
  | loop hrole =>
    -- a loop may stop before its first round
    refine partsRun_iff_of_skip (.stop (hrole _ List.mem_cons_self)) (not_partsMust ?_ (.inl ?_))
    · intro r hr
      simp [hrole r hr]
    · intro r hr
      simp [hrole r hr]

end

/-- The points in which no path gets to the end without waiting are those that `Point.MustWait`
says. -/
theorem runs_iff_mustWait {id : SymbolId} (p : Point) :
    (∀ w, p.Runs w .done → id ∈ w) ↔ p.MustWait id := by
  -- parts walk over smaller trees
  induction hn : p.visit.size using Nat.strongRecOn generalizing p with
  | ind n ih =>
    have hparts : (∀ w, PartsRun p.parts w .done → id ∈ w) ↔ PartsMust id p.parts :=
      partsRun_iff_partsMust (.parts p) fun q hq =>
        ih _ (hn ▸ (mem_parts hq).size_lt) q.toPoint rfl
    rw [mustWait_iff, ← hparts]
    constructor
    · intro hall
      by_cases hexit : p.visit.exit = .done
      · by_cases hwait : ∃ name, p.visit = .wait id name
        · exact .inl hwait
        · refine .inr (.inr fun w hw => ?_)
          have hmem := hall _ (runs_done_iff.2 ⟨hexit, w, hw, rfl⟩)
          refine (List.mem_append.1 hmem).resolve_right fun hmem => hwait ?_
          -- what is waited for at the point itself is the handle of the wait
          cases hv : p.visit with
          | wait other name =>
            rw [hv] at hmem
            exact ⟨name, by rw [List.mem_singleton.1 hmem]⟩
          | _ =>
            rw [hv] at hmem
            cases hmem
      · exact .inr (.inl hexit)
    · rintro hmust w hw
      obtain ⟨hexit, w', hw', rfl⟩ := runs_done_iff.1 hw
      rcases hmust with ⟨name, hv⟩ | hne | hall
      · rw [hv]
        exact List.mem_append_right _ List.mem_cons_self
      -- a jump does not get to the end
      · exact absurd hexit hne
      · exact List.mem_append_left _ (hall w' hw')

/-! ### What a statement releases -/

/-- The thread of the handle is waited for inside of a branch, of the body of a loop, or of the body
of a function or a lambda. -/
def Point.HasConditionalWait (p : Point) (id : SymbolId) : Prop :=
  ∃ (r : Point) (q : Part), p.Inside r ∧ q ∈ r.parts ∧ q.role ≠ .always ∧ q.toPoint.HasWait id

/-- A wait that is not inside of anything conditional is on all paths. -/
theorem Point.HasWait.mustWait_or_conditional {p : Point} {id : SymbolId} (h : p.HasWait id) :
    p.MustWait id ∨ p.HasConditionalWait id := by
  obtain ⟨r, name, hr, hv⟩ := h
  induction hr with
  | refl => exact .inl (.wait hv)
  | @part p r q hq hr ih =>
    by_cases hrole : q.role = .always
    · rcases ih hv with hmust | ⟨r', q', hr', hq', hrole', hwait⟩
      · exact .inl (.part hq hrole hmust)
      · exact .inr ⟨r', q', .part hq hr', hq', hrole', hwait⟩
    · exact .inr ⟨p, q, .refl p, hq, hrole, r, name, hr, hv⟩

/-- A handle that is pending before a statement and not after it is waited for inside of the
statement.  It is waited for on every path through the statement, unless a wait stands in a branch,
in the body of a loop, or in the body of a function or a lambda: the walk releases the handle there,
too.  All paths wait for it exactly if a wait is run in any case or in both branches of a
condition. -/
theorem released_only_by_wait {roots : List ScopeId} {s : Checker} (h : Reachable roots s)
    (ret : Ty) (st : Stmt) {id : SymbolId} (hp : (s.table.symbol id).isPending) :
    (¬ (((checkStmt ret st).after s).table.symbol id).isPending →
      (Point.mk s (.stmt ret st)).HasWait id ∧
      ((∀ w, (Point.mk s (.stmt ret st)).Runs w .done → id ∈ w) ∨
        (Point.mk s (.stmt ret st)).HasConditionalWait id)) ∧
    (∀ r name, (Point.mk s (.stmt ret st)).Inside r → r.visit = .wait id name →
      ¬ (r.after.table.symbol id).isPending) ∧
    ((∀ w, (Point.mk s (.stmt ret st)).Runs w .done → id ∈ w) ↔
      (Point.mk s (.stmt ret st)).MustWait id) := by
  refine ⟨fun hafter => ?_, fun r name hr hv => not_pending_of_inside hr hv, runs_iff_mustWait _⟩
  have hwait := hasWait_of_not_pending h.wellFormed hp hafter
  refine ⟨hwait, ?_⟩
  rw [runs_iff_mustWait]
  exact hwait.mustWait_or_conditional

namespace Sample

/-- `h!;` -/
def wait : Stmt := .expression span (.sync (.at span) (var "h") false)

/-- `if false { h!; }` -/
def maybeWait : Stmt :=
  .cond span (.literal (.at span) (.bool false)) (.block span .default [wait]) none

/-- `data.push(2);` -/
def push : Stmt :=
  .expression span (.call (.at span) (.member (.at span) (var "data") "push")
    [.literal (.at span) (.int 2)])

/-- All paths through `h!;` wait for what `h` stands for. -/
theorem mustWait_wait {s : Checker} {id : SymbolId} (hl : s.table.lookup "h" = some id) :
    (Point.mk s (.stmt .void wait)).MustWait id := by
  have hparts : (Point.mk s (.expr none (.sync (.at span) (var "h") false))).parts =
      [.always (s.captured id) (.wait id "h")] := by
    simp only [Point.parts, exprParts]
    rw [show (var "h").name? = some "h" from rfl]
    simp only [hl]
    rfl
  have hwait : (Point.mk s (.expr none (.sync (.at span) (var "h") false))).MustWait id :=
    .part (hparts ▸ List.mem_cons_self) rfl (.wait rfl)
  exact .part List.mem_cons_self rfl hwait

/-- The path on which the condition of `if false { h!; }` does not hold. -/
theorem runs_maybeWait (s : Checker) :
    (Point.mk s (.stmt .void maybeWait)).Runs [] .done := by
  have hcondition : (Point.mk s
      (.expr none (.literal (.at span) (.bool false)))).Runs [] .done :=
    runs_done_iff.2 ⟨rfl, [], .nil, rfl⟩
  have hparts : PartsRun (Point.mk s (.stmt .void maybeWait)).parts ([] ++ []) .done :=
    .always rfl hcondition (.fails rfl .nil)
  exact runs_done_iff.2 ⟨rfl, [], hparts, rfl⟩

end Sample

/-- After a statement that is nothing but a wait, the handle is released, and it has been waited for
on all paths. -/
theorem released_only_by_wait_plain :
    let s := Sample.after [Sample.sum, Sample.data, Sample.start "h"]
    (s.table.symbol 4).isPending ∧
      ¬ (((checkStmt .void Sample.wait).after s).table.symbol 4).isPending ∧
      (Point.mk s (.stmt .void Sample.wait)).HasWait 4 ∧
      ∀ w, (Point.mk s (.stmt .void Sample.wait)).Runs w .done → 4 ∈ w := by
  have hp : ((Sample.after
      [Sample.sum, Sample.data, Sample.start "h"]).table.symbol 4).isPending := by
    decide +kernel
  have hafter : ¬ (((checkStmt .void Sample.wait).after
      (Sample.after [Sample.sum, Sample.data, Sample.start "h"])).table.symbol 4).isPending := by
    decide +kernel
  obtain ⟨hreleased, -, hpaths⟩ := released_only_by_wait
    (Sample.reachable_after [Sample.sum, Sample.data, Sample.start "h"]) .void Sample.wait hp
  refine ⟨hp, hafter, (hreleased hafter).1, hpaths.2 ?_⟩
  exact Sample.mustWait_wait (by decide +kernel)

/-- A handle is released by a wait that is never run: one path through the statement does not wait,
and the array that the thread looks at may be changed afterwards. -/
theorem released_without_wait :
    let s := Sample.after [Sample.sum, Sample.data, Sample.start "h"]
    Reachable [] s ∧ (s.table.symbol 4).isPending ∧
      (((checkStmt .void Sample.maybeWait).after s).table.symbol 4).state = .synchronized ∧
      (Point.mk s (.stmt .void Sample.maybeWait)).Runs [] .done ∧
      (Sample.after [Sample.sum, Sample.data, Sample.start "h", Sample.maybeWait,
        Sample.push]).accepted := by
  refine ⟨Sample.reachable_after _, by decide +kernel, by decide +kernel, ?_, by decide +kernel⟩
  exact Sample.runs_maybeWait _

end ThreadRegions
