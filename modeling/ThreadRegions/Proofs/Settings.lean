import ThreadRegions.Proofs.Fresh
import ThreadRegions.Proofs.View

/-!
# What the settings of a check change

Who calls the checker chooses how much of the journal is told and how far away a suggested name may
be.  The choice has an influence on the lines that are told and on the names that are suggested, and
on nothing else.

## Main Definitions

* `Settings`: what can be chosen
* `Settings.check`: a check under these settings
* `Settings.hush`: dropping the notes that are not wanted
* `View.besideSuggestions`: two runs of the checker, up to suggestions and notes that are not wanted

## Main Results

* `hush_eq_of_states`: runs that look the same under the view
* `check_agrees`: two settings for the same module
-/

namespace ThreadRegions

/-! ### Settings -/

/-- What can be chosen for a check. -/
structure Settings where
  /-- Which notes of the checker are wanted. -/
  verbosity : Verbosity
  /-- How far away a name may be that is suggested for a misspelt one. -/
  suggestionDistance : Nat
  deriving DecidableEq, Repr

/-- What a check gives back. -/
structure Findings where
  /-- Whether nothing was wrong. -/
  accepted : Bool
  /-- The module with its annotations, the captures of its lambdas among them. -/
  module : Module
  /-- The symbols and scopes that its annotations point to. -/
  table : Table
  /-- What was wrong, in order. -/
  errors : List Diagnostic
  /-- The lines that were told. -/
  lines : List String

namespace Settings

variable (c : Settings)

/-- The check of a module under these settings, where `all` limits all notes. -/
def check (all : Verbosity) (m : Module) : Findings :=
  let (s, checked) := checkModule c.suggestionDistance m
  ⟨s.accepted, checked, s.table, s.errors, s.journal.shown all c.verbosity⟩

/-- Whether a note is wanted, as far as these settings can tell. -/
def wants (n : Note) : Bool := !n.byChecker || c.verbosity.admits n.level

/-- The checker after all notes that are not wanted have been dropped. -/
def hush (s : Checker) : Checker := { s with journal := s.journal.filter c.wants }

end Settings

/-- The lines that are told depend on the wanted notes only. -/
theorem Journal.shown_eq (c : Settings) (j : Journal) (all : Verbosity) :
    j.shown all c.verbosity = ((j.filter c.wants).toList.filter fun n => all.admits n.level).map
      fun n => s!"[{n.level.name}] {n.text}" := by
  rw [Array.toList_filter, List.filter_filter]
  rfl

/-! ### Suggestions -/

namespace Cause

/-- What is suggested stands in the tip of an error and not in its message. -/
theorem message_withSuggestion (suggestion : Option String) (c : Cause) :
    (c.withSuggestion suggestion).message = c.message := by
  cases c <;> rfl

/-- Every cause has the suggestion that it has, or none. -/
theorem exists_eq_withSuggestion (c : Cause) : ∃ suggestion, c = c.withSuggestion suggestion := by
  cases c with
  | undefinedVariable name suggestion | undefinedAssignTarget name suggestion
  | noSuchMember type member suggestion => exact ⟨suggestion, rfl⟩
  | _ => exact ⟨none, rfl⟩

/-- The last suggestion counts. -/
theorem withSuggestion_withSuggestion (suggestion other : Option String) (c : Cause) :
    (c.withSuggestion other).withSuggestion suggestion = c.withSuggestion suggestion := by
  cases c <;> rfl

end Cause

/-- Two runs of the checker are compared up to suggestions and to notes that are not wanted.  If
`strict` holds, suggestions are compared as well. -/
def View.besideSuggestions (strict : Prop) (wanted : Note → Bool) : View where
  place := id
  cause c c' := (∃ suggestion, c' = c.withSuggestion suggestion) ∧ (strict → c' = c)
  journal j j' := j'.filter wanted = j.filter wanted
  distance d d' := strict → d' = d
  cause_refl c := ⟨c.exists_eq_withSuggestion, fun _ => rfl⟩
  journal_push h n := by rw [Array.filter_push, Array.filter_push, h]
  cause_closest h c name names :=
    ⟨⟨_, (c.withSuggestion_withSuggestion _ _).symm⟩, fun he => by rw [h he]⟩
  journal_told := by
    rintro j j' h c _ ⟨⟨suggestion, rfl⟩, -⟩ p
    -- what is suggested stands in the tip of an error and not in its message
    have hnote : Diagnostic.note ⟨c.withSuggestion suggestion, p⟩ = Diagnostic.note ⟨c, p⟩ := by
      rw [Diagnostic.note, Diagnostic.message, c.message_withSuggestion]
      rfl
    rw [id_eq, hnote, Array.filter_push, Array.filter_push, h]

namespace View

variable {strict : Prop} {wanted : Note → Bool}

/-- Errors that look the same differ at most in what they suggest. -/
theorem eq_withSuggestion_of_told {d d' : Diagnostic}
    (h : (besideSuggestions strict wanted).Told d d') :
    ∃ suggestion, d' = { d with cause := d.cause.withSuggestion suggestion } := by
  obtain ⟨⟨⟨suggestion, hcause⟩, -⟩, hposition⟩ := h
  exact ⟨suggestion, congrArg₂ Diagnostic.mk hcause hposition⟩

/-- If suggestions are compared as well, the errors are the same. -/
theorem eq_of_forall_told (hstrict : strict) {ds ds' : List Diagnostic}
    (h : List.Forall₂ (besideSuggestions strict wanted).Told ds ds') : ds' = ds := by
  induction h with
  | nil => rfl
  | cons hd _ ih => exact congrArg₂ List.cons (congrArg₂ Diagnostic.mk (hd.1.2 hstrict) hd.2) ih

theorem stmtsRelocate_place (sts : List Stmt) :
    stmtsRelocate (besideSuggestions strict wanted).place sts = sts :=
  stmtsRelocate_id sts

/-- Checkers that look the same, suggestions included, differ in notes that are not wanted. -/
theorem hush_eq_of_states {c : Settings} {s s' : Checker}
    (h : (besideSuggestions True c.wants).States s s') : c.hush s' = c.hush s := by
  have herrors := eq_of_forall_told trivial h.errors
  have hjournal : s'.journal.filter c.wants = s.journal.filter c.wants := h.journal
  unfold Settings.hush
  rw [h.table, hjournal, herrors, h.builtins, h.frames, h.importDepth, h.distance trivial]

/-- A checker looks the same after the notes that are not wanted have been dropped. -/
theorem states_hush (c : Settings) (s : Checker) :
    (besideSuggestions True c.wants).States s (c.hush s) where
  table := rfl
  journal := by
    show (s.journal.filter c.wants).filter c.wants = s.journal.filter c.wants
    simp
  errors := List.forall₂_same.2 fun d _ => told_at _ d.cause d.position
  builtins := rfl
  frames := rfl
  importDepth := rfl
  distance _ := rfl

end View

/-! ### Two settings -/

/-- Under any two settings, a module is accepted or refused alike, with the same annotations and the
same table, and with errors that differ at most in what they suggest.  If the settings differ in
their verbosity only, the errors are the same.  Which notes are wanted plays no part in it: at any
time, the notes that are not wanted can be dropped. -/
theorem check_agrees (c c' : Settings) (all : Verbosity) (m : Module) :
    let r := c.check all m
    let r' := c'.check all m
    r'.accepted = r.accepted ∧ r'.module = r.module ∧ r'.table = r.table ∧
      List.Forall₂ (fun d d' => ∃ suggestion,
        d' = { d with cause := d.cause.withSuggestion suggestion }) r.errors r'.errors ∧
      (c'.suggestionDistance = c.suggestionDistance → r'.errors = r.errors) ∧
      (c'.verbosity = c.verbosity → r'.lines = r.lines) ∧
      ∀ (s : Checker) (ret : Ty) (sts : List Stmt),
        (checkStmts ret sts).answer (c.hush s) = (checkStmts ret sts).answer s ∧
          c.hush ((checkStmts ret sts).after (c.hush s)) =
            c.hush ((checkStmts ret sts).after s) := by
  -- with equal distances the view is strict, so one comparison gives both facts on errors
  let v := View.besideSuggestions (c'.suggestionDistance = c.suggestionDistance) c.wants
  have hinitial : v.States (.initial c.suggestionDistance) (.initial c'.suggestionDistance) :=
    v.states_initial (fun h => h) rfl
  obtain ⟨hs, hsts⟩ := View.states_checkModule hinitial
    (View.stmtsRelocate_place m.statements).symm (.inl rfl)
  rw [View.stmtsRelocate_place] at hsts
  refine ⟨hs.accepted_eq, congrArg (Module.mk · m.file) hsts, hs.table,
    hs.errors.imp fun _ _ => View.eq_withSuggestion_of_told,
    fun h => View.eq_of_forall_told h hs.errors, ?_, ?_⟩
  · intro hverbosity
    show (checkModule c'.suggestionDistance m).1.journal.shown all c'.verbosity =
      (checkModule c.suggestionDistance m).1.journal.shown all c.verbosity
    rw [hverbosity, Journal.shown_eq, Journal.shown_eq, hs.journal]
  · intro s ret sts
    -- a checker without the unwanted notes looks the same to the walk
    obtain ⟨hanswer, hafter⟩ := View.InStep.checkStmts ret sts (View.states_hush c s)
    rw [View.stmtsRelocate_place] at hanswer hafter
    rw [View.stmtsRelocate_place] at hanswer
    exact ⟨hanswer, View.hush_eq_of_states hafter⟩

namespace Sample

def misspelt? : Option Module :=
  Module.ofSource? [] "var count = 1; cuont = 2; print(coun); count = true;" "main.sn"

/-- Everything is told, and names are suggested. -/
def talkative : Settings := ⟨some .trace, 2⟩

/-- Nothing is told, and nothing is suggested. -/
def terse : Settings := ⟨none, 0⟩

/-- What the errors of a module suggest. -/
def tips (c : Settings) (m : Module) : List (Option String) :=
  (c.check (some .trace) m).errors.map (·.cause.tip)

theorem any_misspelt? : misspelt?.any fun m =>
    tips talkative m = [some "Did you mean 'count'?", some "Did you mean 'count'?", none] &&
      tips terse m = [none, none, none] := by
  decide +kernel

def misspelt : Module := misspelt?.get ((Option.any_eq_true_iff_get _ _).1 any_misspelt?).fst

/-- The two settings differ in the tips of two errors. -/
theorem tips_misspelt :
    tips talkative misspelt = [some "Did you mean 'count'?", some "Did you mean 'count'?", none] ∧
      tips terse misspelt = [none, none, none] := by
  obtain ⟨htalkative, hterse⟩ :=
    Bool.and_eq_true_iff.1 ((Option.any_eq_true_iff_get _ _).1 any_misspelt?).snd
  exact ⟨of_decide_eq_true htalkative, of_decide_eq_true hterse⟩

end Sample

/-- The errors differ, and everything else is the same. -/
theorem check_agrees_misspelt :
    let all : Verbosity := some .trace
    let r := Sample.talkative.check all Sample.misspelt
    let r' := Sample.terse.check all Sample.misspelt
    r'.errors ≠ r.errors ∧ r'.accepted = r.accepted ∧ r'.module = r.module ∧
      (Settings.check ⟨none, 2⟩ all Sample.misspelt).errors = r.errors ∧
      (Settings.check ⟨some .trace, 0⟩ all Sample.misspelt).lines = r.lines := by
  obtain ⟨htips, htips'⟩ := Sample.tips_misspelt
  obtain ⟨haccepted, hmodule, -⟩ :=
    check_agrees Sample.talkative Sample.terse (some .trace) Sample.misspelt
  obtain ⟨-, -, -, -, herrors, -⟩ :=
    check_agrees Sample.talkative ⟨none, 2⟩ (some .trace) Sample.misspelt
  obtain ⟨-, -, -, -, -, hlines, -⟩ :=
    check_agrees Sample.talkative ⟨some .trace, 0⟩ (some .trace) Sample.misspelt
  -- the tips of the two differ, so the errors do
  refine ⟨fun h => ?_, haccepted, hmodule, herrors rfl, hlines rfl⟩
  rw [Sample.tips] at htips htips'
  rw [h, htips] at htips'
  cases htips'

end ThreadRegions
