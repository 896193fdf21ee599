import ThreadRegions.Check.State

/-!
# The outcome of checking an expression

An expression that has been checked comes back with its annotations, and with its type or an error.

## Main Definitions

* `Outcome`: the annotated expression and its type
* `Outcome.andThen`: going on after a part of an expression
* `unlessKnown`: an expression whose type is known is not checked again

## Design Notes

Where a part of an expression has an error, the expression around it keeps the annotations of the
parts that came before.  `Outcome.andThen` is given the way to put a part back into its place.
-/

namespace ThreadRegions

/-- A checked expression. -/
structure Outcome where
  /-- The expression with all that was found out about it. -/
  expr : Expr
  /-- Its type, or what is wrong with it. -/
  type : Except Diagnostic Ty

/-- Checked expressions one after the other. -/
structure ListOutcome where
  /-- The expressions with all that was found out about them. -/
  exprs : List Expr
  /-- Their types, or the first thing that is wrong with one of them. -/
  types : Except Diagnostic (List Ty)

namespace Outcome

/-- Goes on with the type of a part, or stops with its error.  The part is put back by `wrap`. -/
def andThen (o : Outcome) (wrap : Expr → Expr) (next : Ty → Expr → CheckM Outcome) :
    CheckM Outcome :=
  match o.type with
  | .ok t => next t o.expr
  | .error d => pure ⟨wrap o.expr, .error d⟩

/-- The expression with its type noted down. -/
def succeed (e : Expr) (t : Ty) : CheckM Outcome := pure ⟨e.withType t, .ok t⟩

/-- The expression with an error at its beginning. -/
def fail (e : Expr) (cause : Cause) : CheckM Outcome := pure ⟨e, .error ⟨cause, e.start⟩⟩

/-- The expression with what a rule says about its type. -/
def settle (e : Expr) : Except Cause Ty → CheckM Outcome
  | .ok t => succeed e t
  | .error cause => fail e cause

/-- The outcome for an expression with a known type. -/
def known (e : Expr) (t : Ty) : CheckM Outcome := do
  CheckM.note .trace s!"using cached type {t.text}"
  return ⟨e, .ok t⟩

end Outcome

/-- Goes on with the types of the parts, or stops with the error of one of them. -/
def ListOutcome.andThen (o : ListOutcome) (wrap : List Expr → Expr)
    (next : List Ty → List Expr → CheckM Outcome) : CheckM Outcome :=
  match o.types with
  | .ok ts => next ts o.exprs
  | .error d => pure ⟨wrap o.exprs, .error d⟩

/-- Checks an expression, unless its type is known. -/
def unlessKnown (e : Expr) (check : CheckM Outcome) : CheckM Outcome :=
  match e.type? with
  | some t => Outcome.known e t
  | none => check

end ThreadRegions
