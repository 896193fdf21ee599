import ThreadRegions.Tree

/-!
# Assignments and the constructs around them

Which declaration the target of an assignment stands for, and which constructs stand around the two,
can be told from the tree of a program alone, without types and without a symbol table.  This module
walks over a tree and says so for each of its assignments.

A construct is *isolating* if it is a private block, the body of a loop that is not marked as
shared, or a private function or lambda with its parameters.

## Main Definitions

* `Declaration`, `Assigned`: a declaration and an assignment, with the isolating constructs around
* `Assigned.Separated`: an isolating construct is around the assignment but not around the
  declaration of its target
* `Lexical`: what can be seen at a place of the tree
* `assignmentsIn`: the assignments of a program

## Design Notes

The constructs are numbered in the order in which they begin, so that two of them are never taken
for the same one.  A name stands for its latest declaration in the innermost scope that has one; the
name of a namespace belongs to the global scope, wherever its import stands.
-/

namespace ThreadRegions

/-- The number of an isolating construct. -/
abbrev ConstructId := Nat

/-- A declaration of a name. -/
structure Declaration where
  /-- The name. -/
  name : String
  /-- The isolating constructs around the declaration, the innermost first. -/
  around : List ConstructId
  /-- Whether the name is that of a namespace. -/
  isSpace : Bool
  deriving DecidableEq, Repr

/-- An assignment `name = value`. -/
structure Assigned where
  /-- The name of its target. -/
  name : String
  /-- The value. -/
  value : Expr
  /-- The declaration that the name stands for. -/
  target : Option Declaration
  /-- The isolating constructs around the assignment, the innermost first. -/
  around : List ConstructId

/-- An isolating construct is around the assignment, but not around the declaration of its
target. -/
def Assigned.Separated (x : Assigned) : Prop :=
  ∃ d, x.target = some d ∧ ∃ r ∈ x.around, r ∉ d.around

instance (x : Assigned) : Decidable x.Separated :=
  match h : x.target with
  | none => .isFalse fun ⟨_, hd, _⟩ => nomatch h.symm.trans hd
  | some d => decidable_of_iff (∃ r ∈ x.around, r ∉ d.around)
      ⟨fun hr => ⟨d, h, hr⟩, fun ⟨_, hd, hr⟩ => Option.some.inj (h.symm.trans hd) ▸ hr⟩

/-- What can be seen at a place of the tree, and the assignments before it. -/
structure Lexical where
  /-- The declarations in the scopes around other than the global one, the innermost scope and the
  latest declaration first. -/
  inner : List (List Declaration)
  /-- The declarations in the global scope. -/
  global : List Declaration
  /-- The isolating constructs around, the innermost first. -/
  around : List ConstructId
  /-- The number of isolating constructs that have begun. -/
  next : ConstructId
  /-- The assignments so far. -/
  found : List Assigned

namespace Lexical

/-- At the beginning there is a function for output. -/
def initial : Lexical := ⟨[], [⟨"print", [], false⟩], [], 0, []⟩

/-- The declaration that a name stands for. -/
def lookup (l : Lexical) (name : String) : Option Declaration :=
  (l.inner ++ [l.global]).findSome? fun ds => ds.find? fun d => d.name = name

/-- A name is declared in the innermost scope. -/
def declare (l : Lexical) (name : String) : Lexical :=
  match l.inner with
  | [] => { l with global := ⟨name, l.around, false⟩ :: l.global }
  | ds :: outer => { l with inner := (⟨name, l.around, false⟩ :: ds) :: outer }

/-- The name of a namespace is declared. -/
def declareSpace (l : Lexical) (name : String) : Lexical :=
  { l with global := ⟨name, l.around, true⟩ :: l.global }

/-- Names are declared one after the other. -/
def declareAll (l : Lexical) (names : List String) : Lexical := names.foldl declare l

/-- A scope begins. -/
def openScope (l : Lexical) : Lexical := { l with inner := [] :: l.inner }

/-- The innermost scope ends. -/
def closeScope (l : Lexical) : Lexical := { l with inner := l.inner.tail }

/-- A construct begins, which may be an isolating one. -/
def isolate (l : Lexical) (isolating : Bool) : Lexical :=
  if isolating then { l with around := l.next :: l.around, next := l.next + 1 } else l

/-- A construct ends. -/
def release (l : Lexical) (isolating : Bool) : Lexical :=
  if isolating then { l with around := l.around.tail } else l

/-- A block begins. -/
def enterBlock (l : Lexical) (isolating : Bool) : Lexical := (l.isolate isolating).openScope

/-- A function or a lambda begins. -/
def enterFrame (l : Lexical) (isolating : Bool) (params : List Param) : Lexical :=
  (l.enterBlock isolating).declareAll (params.map Param.name)

/-- A block, a function or a lambda ends. -/
def leaveBlock (l : Lexical) (isolating : Bool) : Lexical := l.closeScope.release isolating

/-- A round of a loop with a scope of its own ends. -/
def leaveRound (l : Lexical) (isolating : Bool) : Lexical := (l.release isolating).closeScope

/-- There is an assignment. -/
def assign (l : Lexical) (name : String) (value : Expr) : Lexical :=
  { l with found := l.found ++ [⟨name, value, l.lookup name, l.around⟩] }

section

variable (l : Lexical) (isolating : Bool)

@[simp] theorem found_declare (name : String) : (l.declare name).found = l.found := by
  unfold declare
  split <;> rfl

@[simp] theorem found_declareAll (names : List String) : (l.declareAll names).found = l.found := by
  induction names generalizing l with
  | nil => rfl
  | cons name others ih => exact (ih (l.declare name)).trans (l.found_declare name)

@[simp] theorem found_isolate : (l.isolate isolating).found = l.found := by
  cases isolating <;> rfl

@[simp] theorem found_release : (l.release isolating).found = l.found := by
  cases isolating <;> rfl

@[simp] theorem found_enterBlock : (l.enterBlock isolating).found = l.found :=
  l.found_isolate isolating

@[simp] theorem found_leaveBlock : (l.leaveBlock isolating).found = l.found :=
  l.closeScope.found_release isolating

end

end Lexical

/-! ### The walk over a tree -/

mutual

/-- Goes on to the end of an expression. -/
def Expr.scan : Expr → Lexical → Lexical
  | .literal .., l | .var .., l => l
  | .unary _ _ e, l | .increment _ e, l | .decrement _ e, l | .member _ e _, l | .spawn _ e _, l
  | .sync _ e _, l => e.scan l
  | .binary _ _ a b, l | .access _ a b, l | .range _ a b, l => b.scan (a.scan l)
  | .assign _ name value, l => value.scan (l.assign name value)
  | .indexAssign _ a i value, l => value.scan (i.scan (a.scan l))
  | .call _ callee args, l => scanExprs args (callee.scan l)
  | .array _ elements, l => scanExprs elements l
  | .lambda _ head body, l =>
    (body.scan (l.enterFrame (head.modifier = .isolated) head.params)).leaveBlock
      (head.modifier = .isolated)

/-- Goes on to the end of several expressions. -/
def scanExprs : List Expr → Lexical → Lexical
  | [], l => l
  | e :: es, l => scanExprs es (e.scan l)

/-- Goes on to the end of an expression, if there is one. -/
def scanExpr? : Option Expr → Lexical → Lexical
  | none, l => l
  | some e, l => e.scan l

/-- Goes on to the end of the body of a lambda. -/
def Body.scan : Body → Lexical → Lexical
  | .expr value, l => value.scan l
  | .block statements, l => scanStmts statements l

/-- Goes on to the end of a statement. -/
def Stmt.scan : Stmt → Lexical → Lexical
  | .expression _ value, l => value.scan l
  | .declare _ head init, l => (scanExpr? init l).declare head.name
  | .function _ head body, l =>
    (scanStmts body
      ((l.declare head.name).enterFrame (head.modifier = .isolated) head.params)).leaveBlock
        (head.modifier = .isolated)
  | .ret _ value, l => scanExpr? value l
  | .block _ modifier body, l =>
    (scanStmts body (l.enterBlock (modifier = .isolated))).leaveBlock (modifier = .isolated)
  | .cond _ condition yes no, l => scanStmt? no (yes.scan (condition.scan l))
  | .whileLoop _ condition body shared, l =>
    (body.scan ((condition.scan l).isolate (!shared))).release (!shared)
  | .forLoop _ init condition step body shared, l =>
    (body.scan ((scanExpr? step (scanExpr? condition (scanStmt? init l.openScope))).isolate
      (!shared))).leaveRound (!shared)
  | .forEach _ name _ iterable body shared, l =>
    (body.scan (((iterable.scan l).openScope.declare name).isolate (!shared))).leaveRound (!shared)
  | .leave _, l | .next _, l => l
  | .importModule _ _ none statements, l => scanStmts statements l
  | .importModule _ _ (some space) statements, l =>
    (scanStmts statements (l.declareSpace space).openScope).closeScope

/-- Goes on to the end of a statement, if there is one. -/
def scanStmt? : Option Stmt → Lexical → Lexical
  | none, l => l
  | some st, l => st.scan l

/-- Goes on to the end of several statements. -/
def scanStmts : List Stmt → Lexical → Lexical
  | [], l => l
  | st :: sts, l => scanStmts sts (st.scan l)

end

/-- The assignments of a program, in the order in which they stand there. -/
def assignmentsIn (statements : List Stmt) : List Assigned :=
  (scanStmts statements .initial).found

/-- The type of an expression has no part in the walk. -/
@[simp] theorem Expr.scan_withType (e : Expr) (t : Ty) : (e.withType t).scan = e.scan := by
  cases e <;> rfl

/-! ### Constructs between a declaration and an assignment -/

/-- Where the constructs around a declaration are the outer ones of those around an assignment,
there is one between the two exactly if they are fewer. -/
theorem exists_separating_iff {outer around : List ConstructId} (hs : outer <:+ around)
    (hn : around.Nodup) : (∃ r ∈ around, r ∉ outer) ↔ outer.length < around.length := by
  obtain ⟨between, rfl⟩ := hs
  constructor
  · rintro ⟨r, hr, hout⟩
    rcases List.mem_append.1 hr with hr | hr
    · have hpos : 0 < between.length := List.length_pos_of_mem hr
      rw [List.length_append]
      omega
    · exact absurd hr hout
  · intro hlt
    cases between with
    | nil => simp at hlt
    | cons r between =>
      refine ⟨r, by simp, fun hout => ?_⟩
      rw [List.cons_append, List.nodup_cons] at hn
      exact hn.1 (List.mem_append_right between hout)

end ThreadRegions
