import Mathlib.Data.Finset.Card
import Mathlib.Data.Finset.Dedup
import ThreadRegions.Import

/-!
# How deep imports are nested

The modules of a library may import each other in circles.  The resolution of imports comes to an
end all the same, since it does not enter a module that it is inside of already.

## Main Definitions

* `NestedLoads`: modules that are loaded one inside the other
* `Limited.resolve`: the resolution with a limit on how deep modules are nested, and with a record
  of what is being loaded
* `Limited.Ends`: a computation that stays within its limit

## Main Results

* `NestedLoads.length_le`: different modules are nested no deeper than the library is large
* `Limited.ends_resolve`: the resolution stays within that limit
* `resolveImports_nesting`: no module is loaded inside itself, whatever the library and the program
  are

## Design Notes

`resolveFrom` is a function because it counts the modules that can still be entered.
`Limited.resolve` does not count them.  It enters a module as long as the limit allows it, and has
no answer beyond that.  Each time it enters a module, it puts the list of the modules it is inside
of on record.
-/

namespace ThreadRegions

/-! ### Modules inside modules -/

/-- The names of the modules of a library. -/
def Library.names (lib : Library) : Finset String := (lib.map Prod.fst).toFinset

/-- A module with a text is one of the library. -/
theorem Library.mem_names {lib : Library} {module text : String}
    (h : lib.source? module = some text) : module ∈ lib.names := by
  obtain ⟨before, after, rfl, -⟩ := List.lookup_eq_some_iff.1 h
  simp [names]

/-- Modules that are loaded one inside the other, the innermost one first, with the statements of
the innermost one: each module is imported by the one around it, and the outermost one by the
program. -/
inductive NestedLoads (lib : Library) (program : List Stmt) : List String → List Stmt → Prop
  | start : NestedLoads lib program [] program
  | load {loading : List String} {statements body : List Stmt} {module text : String} :
      NestedLoads lib program loading statements → module ∈ importedModules statements →
        lib.source? module = some text → readModule module text = .ok body →
          NestedLoads lib program (module :: loading) body

/-- All modules that are loaded are modules of the library. -/
theorem NestedLoads.subset_names {lib : Library} {program body : List Stmt} {loading : List String}
    (h : NestedLoads lib program loading body) : loading.toFinset ⊆ lib.names := by
  induction h with
  | start => exact Finset.empty_subset _
  | load _ _ hsource _ ih =>
    rw [List.toFinset_cons]
    exact Finset.insert_subset (Library.mem_names hsource) ih

/-- Different modules that are loaded one inside the other are no more than the library has. -/
theorem NestedLoads.length_le {lib : Library} {program body : List Stmt} {loading : List String}
    (h : NestedLoads lib program loading body) (hnodup : loading.Nodup) :
    loading.length ≤ lib.names.card := by
  rw [← List.toFinset_card_of_nodup hnodup]
  exact Finset.card_le_card h.subset_names

/-! ### The resolution with a limit -/

namespace Limited

/-- A computation that puts lists of modules on record, and has no answer if it is cut off. -/
abbrev Recorded (α : Type) := StateT (List (List String)) Option α

/-- Puts the modules that are being resolved on record. -/
def record (loading : List String) : Recorded Unit := modify (· ++ [loading])

/-- Resolves the imports among the given statements, where the modules in `loading` are being
resolved and `enter` resolves those of another module. -/
def resolveEach (lib : Library) (loading : List String)
    (enter : String → List Stmt → ImportState → Recorded Resolution) :
    List Stmt → ImportState → Recorded Resolution
  | [], s => pure (s, .ok [])
  | .importModule span module space _ :: others, s =>
    if loading.contains module then
      resolveEach lib loading enter others
        (s.note .debug s!"skipping cyclic import of '{module}'")
    else if space.isNone && s.merged.contains module then
      resolveEach lib loading enter others (s.note .trace s!"module '{module}' already merged")
    else
      let asked := s.asked module space.isNone
      match lib.source? module with
      | none => pure (asked, .error ⟨.importNotFound module, span.start⟩)
      | some text =>
        match readModule module text with
        | .error d => pure (asked, .error d)
        | .ok body =>
          match space with
          | some _ => do
            let inside ← enter module body { asked with merged := [] }
            let after := { inside.1 with merged := asked.merged }
            match inside.2 with
            | .error d => pure (after, .error d)
            | .ok body => do
              let rest ← resolveEach lib loading enter others after
              pure (prepend [.importModule span module space body] rest)
          | none => do
            let inside ← enter module body asked
            match inside.2 with
            | .error d => pure (inside.1, .error d)
            | .ok body => do
              let after := inside.1.note .debug
                s!"merged {body.length} statement(s) from '{module}'"
              let rest ← resolveEach lib loading enter others after
              pure (prepend body rest)
  | other :: others, s => do
    let rest ← resolveEach lib loading enter others s
    pure (prepend [other] rest)

/-- Resolves the imports among the given statements, where the modules in `loading` are being
resolved and no more than `depth` others may be nested inside them. -/
def resolve (lib : Library) :
    (depth : Nat) → (loading : List String) → List Stmt → ImportState → Recorded Resolution
  | 0, loading => resolveEach lib loading fun _ _ _ => failure
  | depth + 1, loading => resolveEach lib loading fun module body s => do
    record (module :: loading)
    resolve lib depth (module :: loading) body s

/-- The computation is not cut off and gives the answer, and all that it puts on record has the
property. -/
def Ends {α : Type} (P : List String → Prop) (x : Recorded α) (answer : α) : Prop :=
  ∀ log, ∃ more, x.run log = some (answer, log ++ more) ∧ ∀ loading ∈ more, P loading

section Ends

variable {α β : Type} {P : List String → Prop}

theorem ends_pure (answer : α) : Ends P (pure answer) answer := by
  intro log
  refine ⟨[], ?_, nofun⟩
  rw [List.append_nil]
  rfl

/-- What is put on record has the property. -/
theorem ends_record {loading : List String} (h : P loading) : Ends P (record loading) () := by
  intro log
  refine ⟨[loading], rfl, ?_⟩
  intro other hother
  obtain rfl := List.mem_singleton.1 hother
  exact h

theorem Ends.bind {x : Recorded α} {next : α → Recorded β} {answer : α} {answer' : β}
    (h : Ends P x answer) (hn : Ends P (next answer) answer') : Ends P (x >>= next) answer' := by
  intro log
  obtain ⟨more, hrun, hmore⟩ := h log
  obtain ⟨more', hrun', hmore'⟩ := hn (log ++ more)
  refine ⟨more ++ more', ?_, ?_⟩
  · rw [StateT.run_bind, hrun]
    show (next answer).run (log ++ more) = _
    rw [hrun', List.append_assoc]
  · intro loading hloading
    rcases List.mem_append.1 hloading with hin | hin
    · exact hmore loading hin
    · exact hmore' loading hin

end Ends

/-! ### The resolution stays within the limit -/

variable {lib : Library} {program : List Stmt}

/-- The resolution of one list comes to an end if that of the modules inside does. -/
theorem ends_resolveEach {P : List String → Prop} {loading : List String}
    {enter : Enter lib loading} {enter' : String → List Stmt → ImportState → Recorded Resolution}
    {body : List Stmt} (hloads : NestedLoads lib program loading body)
    (henter : ∀ module text found fresh inner s, NestedLoads lib program (module :: loading) inner →
      Ends P (enter' module inner s) (enter module text found fresh inner s))
    {statements : List Stmt} (hsub : statements ⊆ body) (s : ImportState) :
    Ends P (resolveEach lib loading enter' statements s)
      (ThreadRegions.resolveEach lib loading enter statements s) := by
  induction statements generalizing s with
  | nil => exact ends_pure _
  | cons st others ih =>
    have hothers : others ⊆ body := List.subset_of_cons_subset hsub
    cases st with
    | importModule span module space inside =>
      rw [ThreadRegions.resolveEach, resolveEach]
      split
      · exact ih hothers _
      · next hfresh =>
        split
        · exact ih hothers _
        · dsimp only
          rcases hsource : (lib.source? module).attach with _ | ⟨text, hfound⟩
          · dsimp only
            rw [Option.attach_eq_none_iff.1 hsource]
            exact ends_pure _
          · dsimp only
            rw [hfound]
            dsimp only
            cases hread : readModule module text with
            | error d => exact ends_pure _
            | ok inner =>
              have hin : module ∈ importedModules body :=
                List.mem_filterMap.2 ⟨_, hsub List.mem_cons_self, rfl⟩
              have hentered s := henter module text hfound (Bool.eq_false_iff.mpr hfresh) inner s
                (hloads.load hin hfound hread)
              -- a module is entered in the same way with a namespace and without one
              cases space
              all_goals
                refine (hentered _).bind ?_
                dsimp only
                generalize enter module text hfound _ inner _ = answer
                obtain ⟨after, d | resolved⟩ := answer
                · exact ends_pure _
                · exact (ih hothers _).bind (ends_pure _)
    | _ => exact (ih hothers s).bind (ends_pure _)

/-- Different modules that are loaded one inside the other. -/
def DistinctLoads (lib : Library) (program : List Stmt) (loading : List String) : Prop :=
  loading.Nodup ∧ ∃ body, NestedLoads lib program loading body

/-- A module that is entered is none of those around. -/
theorem distinctLoads_cons {loading : List String} {body : List Stmt} {module : String}
    (hnodup : loading.Nodup) (hfresh : loading.contains module = false)
    (hinside : NestedLoads lib program (module :: loading) body) :
    DistinctLoads lib program (module :: loading) := by
  have hnew : module ∉ loading := by
    rw [← List.contains_iff_mem, hfresh]
    exact Bool.false_ne_true
  exact ⟨List.nodup_cons.2 ⟨hnew, hnodup⟩, body, hinside⟩

/-- With a limit that makes up for the modules of the library that are not being resolved, the
resolution comes to an end, and it is only ever inside of different modules. -/
theorem ends_resolve {depth : Nat} {loading : List String} {body : List Stmt}
    (hdepth : lib.names.card ≤ loading.length + depth) (hnodup : loading.Nodup)
    (hloads : NestedLoads lib program loading body) (s : ImportState) :
    Ends (DistinctLoads lib program) (resolve lib depth loading body s)
      (resolveFrom lib loading body s) := by
  induction depth generalizing loading body s with
  | zero =>
    rw [resolveFrom, resolve]
    refine ends_resolveEach hloads (fun module text found fresh inner s hinside => ?_)
      (List.Subset.refl body) s
    -- one more module would be more than the library has
    have hmore : (module :: loading).length ≤ lib.names.card :=
      hinside.length_le (distinctLoads_cons hnodup fresh hinside).1
    rw [List.length_cons] at hmore
    omega
  | succ depth ih =>
    rw [resolveFrom, resolve]
    refine ends_resolveEach hloads (fun module text found fresh inner s hinside => ?_)
      (List.Subset.refl body) s
    have hdistinct : DistinctLoads lib program (module :: loading) :=
      distinctLoads_cons hnodup fresh hinside
    -- one module more is being resolved, so the limit may be one less
    have hless : lib.names.card ≤ (module :: loading).length + depth := by
      rw [List.length_cons]
      omega
    exact (ends_record hdistinct).bind (ih hless hdistinct.1 hinside s)

end Limited

/-- For every library and every program the resolution of imports comes to an end, even if modules
may be nested no deeper than the library has modules.  Whatever modules it is inside of, they are
loaded one inside the other, and no one occurs twice. -/
theorem resolveImports_nesting (lib : Library) (program : List Stmt) :
    ∃ log, (Limited.resolve lib lib.names.card [] program .empty).run [] =
        some (resolveImports lib program, log) ∧
      ∀ loading ∈ log, (∃ body, NestedLoads lib program loading body) ∧ loading.Nodup ∧
        loading.length ≤ lib.names.card := by
  have hdepth : lib.names.card ≤ ([] : List String).length + lib.names.card := Nat.le_add_left _ _
  obtain ⟨log, hrun, hlog⟩ := Limited.ends_resolve hdepth List.nodup_nil
    (NestedLoads.start : NestedLoads lib program [] program) .empty []
  refine ⟨log, hrun, ?_⟩
  intro loading hloading
  obtain ⟨hnodup, body, hbody⟩ := hlog loading hloading
  exact ⟨⟨body, hbody⟩, hnodup, hbody.length_le hnodup⟩

namespace Sample

/-- Two modules that import each other, one of them with a namespace. -/
def ring : Library := [("a", "import \"b\" as n;"), ("b", "import \"a\";")]

/-- A program with one import. -/
def outside : List Stmt := [.importModule default "a" none []]

theorem log_ring :
    ((Limited.resolve ring ring.names.card [] outside .empty).run []).map Prod.snd =
      some [["a"], ["b", "a"]] := by
  decide +kernel

end Sample

/-- Two modules that import each other are nested in this order, and no deeper. -/
theorem resolveImports_nesting_ring : ∃ log,
    (Limited.resolve Sample.ring Sample.ring.names.card [] Sample.outside .empty).run [] =
        some (resolveImports Sample.ring Sample.outside, log) ∧
      ["b", "a"] ∈ log ∧ ["b", "a"].Nodup ∧ ["b", "a"].length ≤ Sample.ring.names.card := by
  obtain ⟨log, hrun, hlog⟩ := resolveImports_nesting Sample.ring Sample.outside
  have hmem : ["b", "a"] ∈ log := by
    have hlogged := Sample.log_ring
    rw [hrun] at hlogged
    obtain rfl : log = [["a"], ["b", "a"]] := Option.some.inj hlogged
    exact List.mem_cons_of_mem _ List.mem_cons_self
  exact ⟨log, hrun, hmem, (hlog _ hmem).2⟩

end ThreadRegions
