import ThreadRegions.Proofs.Compatible
import ThreadRegions.Proofs.Reach

/-!
# Elements of an array literal

The elements of an array literal have to go together.  The checker compares each of them with the
first one.  Since compatibility does not go from one type to the next, this is less than comparing
each with each.

## Main Definitions

* `contributions?`: the types that the elements of a literal contribute
* `Ty.FitFirst`: the comparison that is made
* `Ty.FitTogether`: each type is compatible with each

## Main Results

* `checkExpr_array_iff`: when a literal has a type, and which
* `Ty.fitTogether_of_nilFree`: if all is known about the first type, the comparison that is made is
  enough
* `array_elements_fit`: what is known about the elements of an accepted literal
* `array_elements_unfit`: elements that do not fit together are accepted in one order and not in
  another

## Design Notes

Elements are checked one after the other, and checking one can change the state for the next.  So
the types that they contribute are those of a run, and the order in which the *types* are compared
is looked at apart from the order in which the elements are checked.
-/

namespace ThreadRegions

open CheckM

/-! ### Comparing types -/

namespace Ty

/-- Each type is compatible with the first one. -/
def FitFirst (ts : List Ty) : Prop := ∀ t ∈ ts, (ts.headD .nil).agrees t = true

/-- Each type is compatible with each. -/
def FitTogether (ts : List Ty) : Prop := ∀ a ∈ ts, ∀ b ∈ ts, a.agrees b = true

instance (ts : List Ty) : Decidable (FitFirst ts) :=
  inferInstanceAs (Decidable (∀ t ∈ ts, (ts.headD .nil).agrees t = true))

instance (ts : List Ty) : Decidable (FitTogether ts) :=
  inferInstanceAs (Decidable (∀ a ∈ ts, ∀ b ∈ ts, a.agrees b = true))

/-- If all is known about the first type, comparing with it is enough. -/
theorem fitTogether_of_nilFree {ts : List Ty} (hfirst : (ts.headD .nil).NilFree)
    (h : FitFirst ts) : FitTogether ts :=
  fun a ha b hb => agrees_of_nilFree hfirst (h a ha) (h b hb)

theorem FitTogether.fitFirst {ts : List Ty} (h : FitTogether ts) : FitFirst ts := by
  cases ts with
  | nil => exact fun t ht => absurd ht List.not_mem_nil
  | cons t ts => exact h t List.mem_cons_self

/-- Types fit together exactly if, whichever of them comes first, the others are compatible with
it. -/
theorem fitTogether_iff_perm {ts : List Ty} :
    FitTogether ts ↔ ∀ us : List Ty, us.Perm ts → FitFirst us := by
  constructor
  · intro h us hperm
    refine FitTogether.fitFirst fun a ha b hb => ?_
    exact h a (hperm.mem_iff.1 ha) b (hperm.mem_iff.1 hb)
  · intro h a ha b hb
    obtain ⟨front, back, rfl⟩ := List.append_of_mem ha
    exact h (a :: (front ++ back)) List.perm_middle.symm b (List.perm_middle.mem_iff.1 hb)

end Ty

/-! ### The types of the elements -/

/-- The type that a checked element contributes to its literal, if it has no error.  A range stands
for its integers. -/
def Outcome.contribution? (o : Outcome) : Option Ty :=
  o.type.toOption.map fun t => if o.expr.isRange then .int else t

/-- The types that the elements contribute if they are checked one after the other, beginning in the
state `s`. -/
def contributions? (s : Checker) : List Expr → Option (List Ty)
  | [] => some []
  | e :: es =>
    ((checkExpr none e).answer s).contribution?.bind fun t =>
      (contributions? ((checkExpr none e).after s) es).map (t :: ·)

/-- One element is checked and compared with `first`, or with itself if it is the first one, before
the others are looked at. -/
theorem types_checkElements_cons {start : Position} {first : Option Ty} {e : Expr} {es : List Expr}
    {s : Checker} {ts : List Ty} :
    ((checkElements start first (e :: es)).answer s).types = .ok ts ↔
      ∃ t us, ((checkExpr none e).answer s).contribution? = some t ∧
        (first.getD t).agrees t = true ∧
        ((checkElements start (some (first.getD t)) es).answer ((checkExpr none e).after s)).types =
          .ok us ∧ ts = t :: us := by
  rw [checkElements, answer_bind, Outcome.contribution?]
  cases ho : ((checkExpr none e).answer s).type with
  | error d =>
    constructor
    · rintro ⟨⟩
    · rintro ⟨t, us, ⟨⟩, -⟩
  | ok a =>
    dsimp only [Except.toOption, Option.map_some]
    generalize (if ((checkExpr none e).answer s).expr.isRange then Ty.int else a) = t
    -- an element that does not fit ends the literal
    by_cases hfirst : (first.getD t).agrees t = true
    · rw [if_pos hfirst, answer_bind, answer_pure]
      cases hus : ((checkElements start (some (first.getD t)) es).answer
          ((checkExpr none e).after s)).types with
      | error d =>
        constructor
        · rintro ⟨⟩
        · rintro ⟨_, us, ⟨⟩, -, h, -⟩
          cases hus.symm.trans h
      | ok us =>
        constructor
        · rintro ⟨⟩
          exact ⟨t, us, rfl, hfirst, hus, rfl⟩
        · rintro ⟨_, us', ⟨⟩, -, h, rfl⟩
          cases hus.symm.trans h
          rfl
    · rw [if_neg hfirst, answer_pure]
      constructor
      · rintro ⟨⟩
      · rintro ⟨_, us, ⟨⟩, h, -⟩
        exact absurd h hfirst

/-- The elements have types exactly if each of them does and all of these are compatible with
`first`, or with the first of them. -/
theorem types_checkElements (start : Position) (es : List Expr) (first : Option Ty) (s : Checker)
    (ts : List Ty) :
    ((checkElements start first es).answer s).types = .ok ts ↔
      contributions? s es = some ts ∧
        ∀ t ∈ ts, (first.getD (ts.headD .nil)).agrees t = true := by
  induction es generalizing first s ts with
  | nil =>
    rw [checkElements, contributions?, answer_pure]
    constructor
    · rintro ⟨⟩
      exact ⟨rfl, fun t ht => absurd ht List.not_mem_nil⟩
    · rintro ⟨⟨⟩, -⟩
      rfl
  | cons e es ih =>
    -- from the second element on, what is compared with does not change any more
    rw [types_checkElements_cons, contributions?]
    constructor
    · rintro ⟨t, us, ht, hfirst, hus, rfl⟩
      obtain ⟨hc, hall⟩ := (ih _ _ us).1 hus
      refine ⟨?_, List.forall_mem_cons.2 ⟨hfirst, hall⟩⟩
      rw [ht, Option.bind_some, hc, Option.map_some]
    · rintro ⟨h, hall⟩
      obtain ⟨t, ht, hrest⟩ := Option.bind_eq_some_iff.1 h
      obtain ⟨us, hc, rfl⟩ := Option.map_eq_some_iff.1 hrest
      obtain ⟨hfirst, hothers⟩ := List.forall_mem_cons.1 hall
      exact ⟨t, us, ht, hfirst, (ih _ _ us).2 ⟨hc, hothers⟩, rfl⟩

/-- An array literal is accepted exactly if its elements are, one after the other, and the types
that they contribute are compatible with the first of them, which is the type of its elements. -/
theorem checkExpr_array_iff (hint : Option Ty) (span : Span) (es : List Expr) (s : Checker)
    (t : Ty) :
    ((checkExpr hint (.array (.at span) es)).answer s).type = .ok t ↔
      ∃ ts, contributions? s es = some ts ∧ Ty.FitFirst ts ∧ t = .array (ts.headD .nil) := by
  have hnode : (Expr.array (.at span) es).type? = none := rfl
  have htypes := types_checkElements (Node.at span).span.start es none s
  rw [checkExpr, unlessKnown, hnode]
  dsimp only
  rw [answer_bind, ListOutcome.andThen]
  cases hts : ((checkElements (Node.at span).span.start none es).answer s).types with
  | error d =>
    constructor
    · rintro ⟨⟩
    · rintro ⟨ts, hc, hfit, -⟩
      cases hts.symm.trans ((htypes ts).2 ⟨hc, hfit⟩)
  | ok ts =>
    obtain ⟨hc, hfit⟩ := (htypes ts).1 hts
    constructor
    · rintro ⟨⟩
      exact ⟨ts, hc, hfit, rfl⟩
    · rintro ⟨us, hus, -, rfl⟩
      cases hc.symm.trans hus
      rfl

/-- An array literal is accepted exactly if its elements are, one after the other, and each type
that they contribute is compatible with the first one.  If all is known about the first type, each
is then compatible with each.  In any case the types fit together exactly if they would be accepted
in every order. -/
theorem array_elements_fit (hint : Option Ty) (span : Span) (es : List Expr) (s : Checker) :
    ((∃ t, ((checkExpr hint (.array (.at span) es)).answer s).type = .ok t) ↔
      ∃ ts, contributions? s es = some ts ∧ Ty.FitFirst ts) ∧
    ∀ t, ((checkExpr hint (.array (.at span) es)).answer s).type = .ok t →
      ∃ ts, contributions? s es = some ts ∧ t = .array (ts.headD .nil) ∧
        ((ts.headD .nil).NilFree → Ty.FitTogether ts) ∧
        (Ty.FitTogether ts ↔ ∀ us : List Ty, us.Perm ts → Ty.FitFirst us) := by
  refine ⟨⟨?_, ?_⟩, ?_⟩
  · rintro ⟨t, ht⟩
    obtain ⟨ts, hc, hfit, -⟩ := (checkExpr_array_iff hint span es s t).1 ht
    exact ⟨ts, hc, hfit⟩
  · rintro ⟨ts, hc, hfit⟩
    exact ⟨_, (checkExpr_array_iff hint span es s _).2 ⟨ts, hc, hfit, rfl⟩⟩
  · intro t ht
    obtain ⟨ts, hc, hfit, htype⟩ := (checkExpr_array_iff hint span es s t).1 ht
    exact ⟨ts, hc, htype, fun hfirst => Ty.fitTogether_of_nilFree hfirst hfit,
      Ty.fitTogether_iff_perm⟩

namespace Sample

/-- An array literal. -/
def array (elements : List Expr) : Expr := .array (.at span) elements

/-- `1` -/
def one : Expr := .literal (.at span) (.int 1)

/-- `{1}` -/
def ones : Expr := array [one]

/-- `{1..1}` -/
def upToOne : Expr := array [.range (.at span) one one]

/-- `{"a"}` -/
def letters : Expr := array [.literal (.at span) (.str "a")]

/-- The elements of `{{1}, {}, {1..1}}` -/
def numbers : List Expr := [ones, array [], upToOne]

theorem contributions_numbers :
    contributions? (after []) numbers = some [.array .int, .array .nil, .array .int] := by
  decide +kernel

end Sample

/-- An array of integers, an empty array and an array that is written with a range go together. -/
theorem array_elements_fit_numbers :
    ∃ ts, contributions? (Sample.after []) Sample.numbers = some ts ∧ (ts.headD .nil).NilFree ∧
      ((checkExpr none (Sample.array Sample.numbers)).answer (Sample.after [])).type =
        .ok (.array (ts.headD .nil)) ∧ Ty.FitTogether ts := by
  obtain ⟨haccepted, htypes⟩ := array_elements_fit none Sample.span Sample.numbers (Sample.after [])
  obtain ⟨t, ht⟩ := haccepted.2 ⟨_, Sample.contributions_numbers, by decide⟩
  obtain ⟨ts, hc, htype, hknown, -⟩ := htypes t ht
  cases Sample.contributions_numbers.symm.trans hc
  exact ⟨_, hc, by decide, htype ▸ ht, hknown (by decide)⟩

/-- An empty array goes together with an array of integers, and with an array of strings.  With the
empty array in front, both are accepted beside each other.  With the integers in front, they are
not. -/
theorem array_elements_unfit :
    let s := Sample.after []
    let check (es : List Expr) := ((checkExpr none (Sample.array es)).answer s).type.toOption
    Reachable [] s ∧
      check [Sample.array [], Sample.ones, Sample.letters] = some (.array (.array .nil)) ∧
      contributions? s [Sample.array [], Sample.ones, Sample.letters] =
        some [.array .nil, .array .int, .array .str] ∧
      ¬ Ty.FitTogether [.array .nil, .array .int, .array .str] ∧
      check [Sample.ones, Sample.array [], Sample.letters] = none := by
  refine ⟨Sample.reachable_after [], ?_, ?_, by decide, ?_⟩
  · decide +kernel
  · decide +kernel
  · decide +kernel

end ThreadRegions
