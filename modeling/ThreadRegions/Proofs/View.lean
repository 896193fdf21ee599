import Mathlib.Data.List.Forall2
import ThreadRegions.Proofs.LikenessWalk

/-!
# Two runs on the same tree at other places

Two runs are compared on trees that differ in their places, or with checkers that differ in how far
away a suggested name may be.  A *view* says which differences are overlooked.  The tables are the
same in both runs, so a view is a likeness in which every symbol keeps its number.

## Main Definitions

* `View`: what is overlooked in places, errors, journals and suggestions
* `View.Told`, `View.States`: errors and states that look the same
* `View.InStep`: actions that go in step
* `View.likeness`: the view as a likeness

## Main Results

* `View.InStep.checkStmts`: the walk
* `View.states_checkModule`: checking a whole module
-/

namespace ThreadRegions

/-- What is overlooked when two runs of the checker are compared. -/
structure View where
  /-- Where a place of the first run is found in the second one. -/
  place : Position → Position
  /-- Causes of errors that look the same. -/
  cause : Cause → Cause → Prop
  /-- Journals that look the same. -/
  journal : Journal → Journal → Prop
  /-- Distances of suggestions that look the same. -/
  distance : Nat → Nat → Prop
  cause_refl : ∀ c, cause c c
  journal_push : ∀ {j j'}, journal j j' → ∀ n, journal (j.push n) (j'.push n)
  /-- Nothing but the distance has an influence on what is suggested. -/
  cause_closest : ∀ {d d'}, distance d d' → ∀ c name names,
    cause (Cause.withSuggestion (closest name names d) c)
      (Cause.withSuggestion (closest name names d') c)
  /-- Errors that look the same are told alike. -/
  journal_told : ∀ {j j'}, journal j j' → ∀ {c c'}, cause c c' → ∀ p,
    journal (j.push (Diagnostic.note ⟨c, p⟩)) (j'.push (Diagnostic.note ⟨c', place p⟩))

namespace View

variable (v : View) {α α' : Type}

/-- The two errors look the same. -/
def Told (d d' : Diagnostic) : Prop := v.cause d.cause d'.cause ∧ d'.position = v.place d.position

theorem told_at (c : Cause) (p : Position) : v.Told ⟨c, p⟩ ⟨c, v.place p⟩ := ⟨v.cause_refl c, rfl⟩

/-- The ledgers hold the same table, and journals that look the same. -/
structure Ledgers (l l' : Ledger) : Prop where
  table : l'.table = l.table
  journal : v.journal l.journal l'.journal

/-- The two states look the same. -/
structure States (s s' : Checker) : Prop extends v.Ledgers s.toLedger s'.toLedger where
  errors : List.Forall₂ v.Told s.errors s'.errors
  builtins : s'.builtins = s.builtins
  frames : s'.frames = s.frames
  importDepth : s'.importDepth = s.importDepth
  distance : v.distance s.suggestionDistance s'.suggestionDistance

/-- From states that look the same, the two actions lead to states that look the same, with answers
that are related. -/
def InStep (R : α → α' → Prop) (x : CheckM α) (y : CheckM α') : Prop :=
  ∀ ⦃s s'⦄, v.States s s' → R (x.answer s) (y.answer s') ∧ v.States (x.after s) (y.after s')

/-- The view as a likeness in which the tables are the same. -/
def likeness : Likeness where
  place := v.place
  number := id
  rough := false
  cause := v.cause
  errors := List.Forall₂ v.Told
  journal := v.journal
  distance := v.distance
  tables t t' := t' = t
  renumbering := .same
  cause_refl := v.cause_refl
  cause_closest := v.cause_closest
  errors_push h _ _ hc _ := List.rel_append h (.cons ⟨hc, rfl⟩ .nil)
  journal_push := v.journal_push
  journal_told := v.journal_told
  journal_of_rough := nofun
  number_of_exact _ _ := rfl
  table_of_exact _ _ _ h := h

/-- The view and its likeness see the same. -/
theorem states_likeness {s s' : Checker} : v.likeness.States s s' ↔ v.States s s' := by
  have hbuiltins : s'.builtins = s.builtins.map id ↔ s'.builtins = s.builtins := by
    rw [List.map_id]
  constructor
  · intro h
    exact
      { table := h.table
        journal := h.journal
        errors := h.errors
        builtins := hbuiltins.1 h.builtins
        frames := h.frames rfl
        importDepth := h.importDepth
        distance := h.distance }
  · intro h
    exact
      { table := h.table
        journal := h.journal
        errors := h.errors
        builtins := hbuiltins.2 h.builtins
        frames := fun _ => h.frames
        importDepth := h.importDepth
        distance := h.distance }

/-- Statements that are alike are the same at other places. -/
theorem alikeStmts_iff {sts sts' : List Stmt} :
    v.likeness.AlikeStmts sts sts' ↔ sts' = stmtsRelocate v.place sts := by
  show stmtsStrip false sts' = stmtsStrip false (stmtsRelocate v.place sts) ↔ _
  rw [stmtsStrip_false, stmtsStrip_false]

variable {v} in
theorem InStep.checkStmts (ret : Ty) (statements : List Stmt) :
    v.InStep (fun sts sts' => sts' = stmtsRelocate v.place sts)
      (ThreadRegions.checkStmts ret statements)
      (ThreadRegions.checkStmts ret (stmtsRelocate v.place statements)) := by
  intro s s' hs
  have hstep := Likeness.InStep.checkStmts (v := v.likeness) ret statements
  obtain ⟨hanswer, hafter⟩ := hstep (v.states_likeness.2 hs)
  exact ⟨v.alikeStmts_iff.1 hanswer, v.states_likeness.1 hafter⟩

/-- Two checkers look the same before they have checked anything, unless the view sees through their
distances. -/
theorem states_initial {d d' : Nat} (hd : v.distance d d')
    (hj : v.journal (Checker.initial d).journal (Checker.initial d).journal) :
    v.States (.initial d) (.initial d') :=
  { table := rfl, journal := hj, errors := .nil, builtins := rfl, frames := rfl, importDepth := rfl,
    distance := hd }

variable {v} in
theorem States.accepted_eq {s s' : Checker} (h : v.States s s') : s'.accepted = s.accepted := by
  unfold Checker.accepted
  rw [Bool.eq_iff_iff, List.isEmpty_iff_length_eq_zero, List.isEmpty_iff_length_eq_zero,
    h.errors.length_eq]

variable {v} in
/-- A module and the same module at other places are checked alike.  The first note names the file,
so it may differ if the view overlooks the notes. -/
theorem states_checkModule {d d' : Nat} {m m' : Module} (hs : v.States (.initial d) (.initial d'))
    (hm : m'.statements = stmtsRelocate v.place m.statements)
    (hfile : m'.file = m.file ∨ ∀ j j', v.journal j j') :
    v.States (checkModule d m).1 (checkModule d' m').1 ∧
      (checkModule d' m').2.statements = stmtsRelocate v.place (checkModule d m).2.statements := by
  obtain ⟨sts, file⟩ := m
  obtain ⟨_, other⟩ := m'
  obtain rfl := hm
  have hfirst : v.likeness.InStep Eq
      (CheckM.note .debug s!"type checking {file} ({sts.length} statements)")
      (CheckM.note .debug
        s!"type checking {other} ({(stmtsRelocate v.place sts).length} statements)") := by
    rcases hfile with hfile | hall
    · obtain rfl : other = file := hfile
      rw [length_stmtsRelocate]
      exact Likeness.InStep.note _ _
    · exact fun _ _ hs => ⟨rfl, { hs with journal := hall _ _ }⟩
  have hstatements := hfirst.bindEq fun _ => Likeness.InStep.checkStmts .void sts
  obtain ⟨hsts, hs⟩ := hstatements (v.states_likeness.2 hs)
  -- the errors may differ, but the last note has only their number
  have hlast : v.likeness.InStep Eq
      (do CheckM.note .debug s!"finished with {(← get).errors.length} error(s)")
      (do CheckM.note .debug s!"finished with {(← get).errors.length} error(s)") := by
    refine Likeness.InStep.get.bind fun s s' hs => ?_
    have hlength : s.errors.length = s'.errors.length := List.Forall₂.length_eq hs.errors
    rw [hlength]
    exact Likeness.InStep.note _ _
  exact ⟨v.states_likeness.1 (hlast hs).2, v.alikeStmts_iff.1 hsts⟩

end View

end ThreadRegions
