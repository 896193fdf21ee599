import ThreadRegions.Proofs.Lasting
import ThreadRegions.Proofs.Padding
import ThreadRegions.Proofs.Paths
import ThreadRegions.Proofs.Sparing
import ThreadRegions.Proofs.Surroundings
import ThreadRegions.Proofs.View

/-!
# The branches of a condition

Of the two branches of a condition at most one is run, but the checker walks over both of them, one
after the other.  The names of the first branch are out of reach in the second one.  What the first
branch does to the threads of the variables around it is not: a handle that it has waited for counts
as waited for in the second branch, and an array that a thread of it looks at is frozen there.  That
is all.  If the first branch leaves no trace in the threads of earlier variables, then the second
branch has the errors that it has after an empty block.

## Main Definitions

* `Table.KeepsThreads`: no symbol of a table has got another part in threads
* `Likeness.padded`: two runs, one of which has symbols and scopes out of reach
* `elseErrors`: the errors of the second branch of a condition

## Main Results

* `Table.SparesAll.padded`: the table after a block, compared with the table before
* `errors_after_block`: a statement has the same errors with and without a block before it
* `elseErrors_eq_of_keepsThreads`: the errors of the second branch
-/

namespace ThreadRegions

open CheckM

/-! ### The table after a block -/

/-- Every symbol of the first table has the same state in the second one, and as many threads look
at it. -/
def Table.KeepsThreads (t t' : Table) : Prop :=
  ∀ a, a < t.symbols.size → (t'.symbol a).state = (t.symbol a).state ∧
    (t'.symbol a).freezeCount = (t.symbol a).freezeCount

instance (t t' : Table) : Decidable (t.KeepsThreads t') :=
  inferInstanceAs (Decidable (∀ a, a < t.symbols.size → _ ∧ _))

namespace Table.KeepsThreads

variable {t t₁ t₂ : Table}

theorem refl (t : Table) : t.KeepsThreads t := fun _ _ => ⟨rfl, rfl⟩

theorem of_symbols_eq (hs : t₁.symbols = t.symbols) (h : t.KeepsThreads t₂) :
    t₁.KeepsThreads t₂ := by
  intro a ha
  rw [hs] at ha
  have hsymbol : t₁.symbol a = t.symbol a := by rw [symbol, hs, symbol]
  rw [hsymbol]
  exact h a ha

end Table.KeepsThreads

/-- A symbol that has kept its part in threads, and all the rest, is the same. -/
theorem Symbol.eq_of_still {s s' : Symbol} (h : s'.still = s.still) (hstate : s'.state = s.state)
    (hcount : s'.freezeCount = s.freezeCount) : s' = s :=
  calc s'
    _ = { s'.still with state := s'.state, freezeCount := s'.freezeCount } := rfl
    _ = { s.still with state := s.state, freezeCount := s.freezeCount } := by rw [h, hstate, hcount]
    _ = s := rfl

/-- A block leaves all that was there alone. -/
theorem sparesAll_block {s : Checker} (hw : s.table.WellFormed) (ret : Ty) (span : Span)
    (modifier : Modifier) {body : List Stmt} (hb : .module ∉ stmtsConstructs body) :
    s.table.SparesAll ((checkStmt ret (.block span modifier body)).after s).table := by
  have hbody := Table.sparing_stableIn.visitTree ⟨(enterBlock modifier).after s, .stmts ret body⟩
    fun k hk => by
      cases k with
      | module => exact absurd hk hb
      | _ => simp [Construct.Allowed]
  exact (Table.sparing_stableIn.toStableIn.block span nofun hbody hw).2.2.2

namespace Table.SparesAll

variable {t t' : Table}

/-- The symbols that were there are the same ones, and the next free number has moved on. -/
theorem symbol_skip (h : t.SparesAll t') (ht : t.KeepsThreads t') (a : SymbolId) :
    t'.symbol (skip t.symbols.size (t'.symbols.size - t.symbols.size) a) = t.symbol a := by
  obtain ⟨-, hspares⟩ := h
  by_cases ha : a < t.symbols.size
  · rw [skip_of_lt ha]
    obtain ⟨hstate, hcount⟩ := ht a ha
    exact Symbol.eq_of_still (hspares.still a ha fun _ => False.elim) hstate hcount
  · have hle := Nat.not_lt.1 ha
    rw [skip_of_le hle, symbol_of_size_le hle]
    refine symbol_of_size_le ?_
    calc t'.symbols.size
      _ = t.symbols.size + (t'.symbols.size - t.symbols.size) :=
        (Nat.add_sub_of_le hspares.symbols_le).symm
      _ ≤ a + (t'.symbols.size - t.symbols.size) := Nat.add_le_add_right hle _

/-- What the block has declared is out of reach. -/
theorem padded (h : t.SparesAll t') (hw : t.WellFormed) (hb : t.Balanced)
    (hregion : t'.region = t.region) (ht : t.KeepsThreads t') :
    t.Padded t.symbols.size (t'.symbols.size - t.symbols.size)
      t.scopes.size (t'.scopes.size - t.scopes.size) t' where
  pos := hw.global_lt
  symbols_le := Nat.le_refl _
  scopes_le := Nat.le_refl _
  symbols_size := (Nat.add_sub_of_le h.2.symbols_le).symm
  scopes_size := (Nat.add_sub_of_le h.2.scopes_le).symm
  open_lt _ hc := hw.open_lt hc
  inner := by rw [h.1, map_skip hw.inner_lt]
  region := hregion
  symbol a := by
    rw [h.symbol_skip ht]
    -- all that a symbol refers to was there before the block
    exact
      { Symbol.Like.refl (t.symbol a) with
        frozenArgs := (map_skip (hb.lt a)).symm
        members := (map_skip fun b hm => (hw.members a b hm).1).symm }
  listed c hc := by
    have hlt := hw.open_lt hc
    rw [skip_of_lt hlt, h.2.listed c hlt not_false]
    exact (map_skip fun a ha => (hw.linked c a ha).1).symm

end Table.SparesAll

/-! ### What a run keeps -/

theorem Reachable.builtins_lt {roots : List ScopeId} {s : Checker} (h : Reachable roots s) :
    ∀ id ∈ s.builtins, id < s.table.symbols.size := by
  induction h with
  | initial d => exact fun id hid => List.mem_singleton.1 hid ▸ Nat.zero_lt_one
  | note level text _ ih => exact ih
  | @visit _ s v hs ih =>
    intro id hid
    rw [(reports_visit s v).builtins] at hid
    exact Nat.lt_of_lt_of_le (ih id hid) (hs.wellFormed.lasts_visit v).2.symbols_le
  | @inside _ s v q hs hq ih =>
    intro id hid
    have hentry := (mem_parts hq).entry
    rw [hentry.reports.builtins] at hid
    -- on the way to the part, no symbol is lost
    have hlasts := Table.Invariant.of_lasts (P := fun t => s.table.symbols.size ≤ t.symbols.size)
      fun hl hle => Nat.le_trans hle hl.symbols_le
    have hgood := hlasts.entry (r := []) ⟨hs.wellFormed, by simp, Nat.le_refl _⟩ hentry
    exact Nat.lt_of_lt_of_le (ih id hid) hgood.holds

/-- A run beside itself, with a checker that suggests names up to the distance `d`. -/
def View.withDistance (d : Nat) : View where
  place := id
  cause := Eq
  journal := Eq
  distance d₁ d₂ := d₁ = d ∧ d₂ = d
  cause_refl _ := rfl
  journal_push h n := congrArg (·.push n) h
  cause_closest := by
    rintro _ _ ⟨rfl, rfl⟩ c name names
    rfl
  journal_told := by
    rintro j _ rfl c _ rfl p
    rfl

theorem View.states_self (s : Checker) :
    (View.withDistance s.suggestionDistance).likeness.States s s :=
  (View.states_likeness _).2
    { table := rfl
      journal := rfl
      errors := List.forall₂_same.2 fun _ _ => ⟨rfl, rfl⟩
      builtins := rfl
      frames := rfl
      importDepth := rfl
      distance := ⟨rfl, rfl⟩ }

/-- Nothing changes how far away a suggested name may be. -/
theorem suggestionDistance_checkStmt (s : Checker) (ret : Ty) (st : Stmt) :
    ((checkStmt ret st).after s).suggestionDistance = s.suggestionDistance :=
  (Likeness.InStep.checkStmt ret st (View.states_self s)).2.distance.1

/-! ### A statement after a block -/

/-- Two runs that have reported the errors `before` and `before'`.  The table of the second run has
`k` symbols from `n` on and `d` scopes from `m` on that are out of reach. -/
def Likeness.padded (n k m d : Nat) (before before' : List Diagnostic) : Likeness where
  place := id
  number := skip n k
  rough := true
  cause := Eq
  errors ds ds' := ∃ new, ds = before ++ new ∧ ds' = before' ++ new
  journal _ _ := True
  distance d d' := d' = d
  tables := Table.Padded n k m d
  renumbering := Table.renumbering_padded n k m d
  cause_refl _ := rfl
  cause_closest := by
    rintro _ d rfl c name names
    rfl
  errors_push := by
    rintro _ _ ⟨new, rfl, rfl⟩ c _ rfl p
    exact ⟨new ++ [⟨c, p⟩], List.append_assoc .., List.append_assoc ..⟩
  journal_push _ _ := trivial
  journal_told _ _ _ _ _ := trivial
  journal_of_rough _ _ _ := trivial
  number_of_exact h := Bool.noConfusion h
  table_of_exact h := Bool.noConfusion h

/-- A statement has the same errors before a block and after it, if the block leaves no trace in the
threads of earlier variables. -/
theorem errors_after_block {roots : List ScopeId} {s : Checker} (h : Reachable roots s) (ret : Ty)
    (span : Span) (modifier : Modifier) {body : List Stmt} (hb : .module ∉ stmtsConstructs body)
    (ht : s.table.KeepsThreads ((checkStmt ret (.block span modifier body)).after s).table)
    (st : Stmt) :
    let s' := (checkStmt ret (.block span modifier body)).after s
    ∃ new, ((checkStmt ret st).after s).errors = s.errors ++ new ∧
      ((checkStmt ret st).after s').errors = s'.errors ++ new := by
  intro s'
  have hbalanced := (Table.balanced_invariant.reachable Table.balanced_initial h).holds
  have hplace : s.SameSurroundings s' :=
    sameSurroundings_visit s (.stmt ret (.block span modifier body))
  have hbuiltins : s'.builtins = s.builtins := (reports_checkStmt s ret _).builtins
  have hspares : s.table.SparesAll s'.table := sparesAll_block h.wellFormed ret span modifier hb
  -- the run after the block has the symbols and scopes of the block on top, out of reach
  let v := Likeness.padded s.table.symbols.size (s'.table.symbols.size - s.table.symbols.size)
    s.table.scopes.size (s'.table.scopes.size - s.table.scopes.size) s.errors s'.errors
  have hstates : v.States s s' :=
    { table := hspares.padded h.wellFormed hbalanced hplace.table.region ht
      journal := trivial
      errors := ⟨[], (List.append_nil _).symm, (List.append_nil _).symm⟩
      builtins := hbuiltins.trans (map_skip h.builtins_lt).symm
      frames := nofun
      importDepth := hplace.importDepth
      distance := suggestionDistance_checkStmt s ret _ }
  obtain ⟨new, hnew, hnew'⟩ := (Likeness.InStep.checkStmt ret st hstates).2.errors
  have hst : st.relocate v.place = st := st.relocate_id
  rw [hst] at hnew'
  exact ⟨new, hnew, hnew'⟩

/-! ### Branches -/

/-- The checker after the condition itself. -/
def Checker.afterCondition (s : Checker) (condition : Expr) : Checker :=
  (checkExpr none condition >>= checkCondition "If").after s

/-- The first branch is checked after the condition. -/
theorem after_checkStmt_then (s : Checker) (ret : Ty) (span : Span) (condition : Expr)
    (yes : Stmt) :
    (checkStmt ret (.cond span condition yes none)).after s =
      (checkStmt ret yes).after (s.afterCondition condition) := rfl

/-- The second branch is checked after the first one. -/
theorem after_checkStmt_else (s : Checker) (ret : Ty) (span : Span) (condition : Expr)
    (yes no : Stmt) :
    (checkStmt ret (.cond span condition yes (some no))).after s =
      (checkStmt ret no).after ((checkStmt ret (.cond span condition yes none)).after s) := rfl

theorem Reachable.afterCondition {roots : List ScopeId} {s : Checker} (h : Reachable roots s)
    (condition : Expr) : Reachable roots (s.afterCondition condition) := by
  -- the first branch begins there, whatever it is
  let yes : Stmt := .leave condition.span
  let point : Point := ⟨s, .stmt .void (.cond condition.span condition yes none)⟩
  let branch : Point := ⟨s.afterCondition condition, .stmt .void yes⟩
  have hbranch : ⟨branch, .whenTrue⟩ ∈ point.parts := List.mem_cons_of_mem _ List.mem_cons_self
  exact .inside h hbranch

/-- The errors of the second branch of a condition: those that are reported with it and not without
it. -/
def elseErrors (s : Checker) (ret : Ty) (span : Span) (condition : Expr) (yes no : Stmt) :
    List Diagnostic :=
  ((checkStmt ret (.cond span condition yes (some no))).after s).errors.drop
    ((checkStmt ret (.cond span condition yes none)).after s).errors.length

/-- The errors of the second branch come last. -/
theorem errors_append_elseErrors (s : Checker) (ret : Ty) (span : Span) (condition : Expr)
    (yes no : Stmt) :
    ((checkStmt ret (.cond span condition yes (some no))).after s).errors =
      ((checkStmt ret (.cond span condition yes none)).after s).errors ++
        elseErrors s ret span condition yes no := by
  let first := (checkStmt ret (.cond span condition yes none)).after s
  have hreports : first.Reports ((checkStmt ret no).after first) := reports_checkStmt first ret no
  rw [← after_checkStmt_else] at hreports
  exact List.prefix_append_drop hreports.errors

/-- The second branch has the errors that it has right after the condition. -/
theorem errors_afterCondition {roots : List ScopeId} {s : Checker} (h : Reachable roots s)
    (ret : Ty) (span inner : Span) (condition : Expr) (modifier : Modifier) {body : List Stmt}
    (no : Stmt) (hb : .module ∉ stmtsConstructs body)
    (ht : (s.afterCondition condition).table.KeepsThreads
      ((checkStmt ret (.block inner modifier body)).after (s.afterCondition condition)).table) :
    ((checkStmt ret no).after (s.afterCondition condition)).errors =
      (s.afterCondition condition).errors ++
        elseErrors s ret span condition (.block inner modifier body) no := by
  obtain ⟨new, hnew, hnew'⟩ :=
    errors_after_block (h.afterCondition condition) ret inner modifier hb ht no
  have helse := errors_append_elseErrors s ret span condition (.block inner modifier body) no
  rw [after_checkStmt_else, after_checkStmt_then, hnew'] at helse
  rw [hnew, List.append_cancel_left helse]

theorem symbols_emptyBlock (s : Checker) (ret : Ty) (span : Span) (modifier : Modifier) :
    ((checkStmt ret (.block span modifier [])).after s).table.symbols = s.table.symbols := by
  cases modifier <;> rfl

/-- A first branch without imports that leaves the threads of all earlier variables as an empty one
leaves them has no influence on the second branch: it has the same errors as after an empty first
branch, and the errors of a condition end with those of its second branch. -/
theorem elseErrors_eq_of_keepsThreads {roots : List ScopeId} {s : Checker} (h : Reachable roots s)
    (ret : Ty) (span inner : Span) (condition : Expr) (modifier : Modifier) {body : List Stmt}
    (no : Stmt) (hb : .module ∉ stmtsConstructs body) :
    let first body :=
      (checkStmt ret (.cond span condition (.block inner modifier body) none)).after s
    (first []).table.KeepsThreads (first body).table →
      elseErrors s ret span condition (.block inner modifier body) no =
          elseErrors s ret span condition (.block inner modifier []) no ∧
        ∀ yes, ((checkStmt ret (.cond span condition yes (some no))).after s).errors =
          ((checkStmt ret (.cond span condition yes none)).after s).errors ++
            elseErrors s ret span condition yes no := by
  intro first ht
  refine ⟨?_, fun yes => errors_append_elseErrors s ret span condition yes no⟩
  have hsymbols : (first []).table.symbols = (s.afterCondition condition).table.symbols :=
    symbols_emptyBlock _ ret inner modifier
  have hnothing : Construct.module ∉ stmtsConstructs [] := nofun
  have hempty := errors_afterCondition h ret span inner condition modifier no hnothing
    (.of_symbols_eq hsymbols.symm (.refl _))
  have hbody := errors_afterCondition h ret span inner condition modifier no hb
    (.of_symbols_eq hsymbols.symm ht)
  exact List.append_cancel_left (hbody.symm.trans hempty)

namespace Sample

/-- `if true { .. } else { .. }`: the errors of the second branch. -/
def elseErrors (s : Checker) (yes no : List Stmt) : List Diagnostic :=
  ThreadRegions.elseErrors s .void span (.literal (.at span) (.bool true))
    (.block span .default yes) (.block span .default no)

end Sample

/-- The first branch starts a thread of its own that looks at an array and waits for it, under the
name of a handle around.  The array is frozen in the second branch because of the other thread. -/
theorem elseErrors_eq_of_keepsThreads_shadowed :
    let s := Sample.after [Sample.sum, Sample.data, Sample.start "h"]
    let own := [Sample.start "h", Sample.wait]
    let frozen : Diagnostic := ⟨.frozenMethodCall "push" "data", Sample.span.start⟩
    Reachable [] s ∧ .module ∉ stmtsConstructs own ∧
      Sample.elseErrors s [] [Sample.push] = [frozen] ∧
      Sample.elseErrors s own [Sample.push] = [frozen] := by
  intro s own frozen
  have hreach : Reachable [] s := Sample.reachable_after _
  have hown : .module ∉ stmtsConstructs own := by decide
  have hempty : Sample.elseErrors s [] [Sample.push] = [frozen] := by decide +kernel
  refine ⟨hreach, hown, hempty, ?_⟩
  have heq := elseErrors_eq_of_keepsThreads hreach .void Sample.span Sample.span
    (.literal (.at Sample.span) (.bool true)) .default
    (.block Sample.span .default [Sample.push]) hown (by decide +kernel)
  exact heq.1.trans hempty

/-- A handle that the first branch has waited for cannot be waited for in the second one, and an
array that a thread of the first branch looks at cannot be changed there. -/
theorem elseErrors_ne_of_threads :
    let s := Sample.after [Sample.sum, Sample.data, Sample.start "h"]
    let s' := Sample.after [Sample.sum, Sample.data]
    Reachable [] s ∧ Sample.elseErrors s [] [Sample.wait] = [] ∧
      Sample.elseErrors s [Sample.wait] [Sample.wait] =
        [⟨.alreadySynchronized "h", Sample.span.start⟩] ∧
      Reachable [] s' ∧ Sample.elseErrors s' [] [Sample.push] = [] ∧
      Sample.elseErrors s' [Sample.start "h"] [Sample.push] =
        [⟨.frozenMethodCall "push" "data", Sample.span.start⟩] := by
  intro s s'
  exact ⟨Sample.reachable_after _, by decide +kernel, by decide +kernel, Sample.reachable_after _,
    by decide +kernel, by decide +kernel⟩

end ThreadRegions
