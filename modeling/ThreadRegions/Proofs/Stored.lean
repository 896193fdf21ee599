import ThreadRegions.Proofs.Isolation

/-!
# Values that are stored into arrays

An assignment `v[i]...[j] = value` stores a value into an array.  The elements of the array have a
type, and the value has to agree with it; that is all that is asked of the value.  In particular the
regions have no part in it, unlike in a plain assignment: a value of a region can be stored into an
array from outside whenever the elements of the array are such values.

## Main Definitions

* `Stored`: an assignment to an element of an array, with the isolating constructs around
* `storesIn`: those of a program
* `Expr.PathTyped`: each index of a path takes one array from the type

## Main Results

* `checkModule_stores`: what is stored in an accepted program
* `stored_across_region`: an array is stored into an array from outside of a private block
-/

namespace ThreadRegions

/-- An assignment `name[i]...[j] = value`. -/
structure Stored extends Assigned where
  /-- The array, which is `name` without the last index. -/
  array : Expr

/-- The assignment to an element of the array, if the array is that of a variable. -/
def Lexical.store (l : Lexical) (array value : Expr) : List Stored :=
  (array.root?.map fun name => ⟨⟨name, value, l.lookup name, l.around⟩, array⟩).toList

/-! ### The walk over a tree -/

mutual

/-- The assignments to elements of arrays inside of an expression. -/
def Expr.stores : Expr → Lexical → List Stored
  | .literal .., _ | .var .., _ => []
  | .unary _ _ e, l | .assign _ _ e, l | .increment _ e, l | .decrement _ e, l | .member _ e _, l
  | .spawn _ e _, l | .sync _ e _, l => e.stores l
  | .binary _ _ a b, l | .access _ a b, l | .range _ a b, l => a.stores l ++ b.stores (a.scan l)
  | .indexAssign _ a i value, l =>
    l.store a value ++ (a.stores l ++ (i.stores (a.scan l) ++ value.stores (i.scan (a.scan l))))
  | .call _ callee args, l => callee.stores l ++ exprsStores args (callee.scan l)
  | .array _ elements, l => exprsStores elements l
  | .lambda _ head body, l => body.stores (l.enterFrame (head.modifier = .isolated) head.params)

/-- Those inside of several expressions. -/
def exprsStores : List Expr → Lexical → List Stored
  | [], _ => []
  | e :: es, l => e.stores l ++ exprsStores es (e.scan l)

/-- Those inside of an expression, if there is one. -/
def exprStores? : Option Expr → Lexical → List Stored
  | none, _ => []
  | some e, l => e.stores l

/-- Those inside of the body of a lambda. -/
def Body.stores : Body → Lexical → List Stored
  | .expr value, l => value.stores l
  | .block statements, l => stmtsStores statements l

/-- Those inside of a statement. -/
def Stmt.stores : Stmt → Lexical → List Stored
  | .expression _ value, l => value.stores l
  | .declare _ _ init, l => exprStores? init l
  | .function _ head body, l =>
    stmtsStores body ((l.declare head.name).enterFrame (head.modifier = .isolated) head.params)
  | .ret _ value, l => exprStores? value l
  | .block _ modifier body, l => stmtsStores body (l.enterBlock (modifier = .isolated))
  | .cond _ condition yes no, l =>
    condition.stores l ++
      (yes.stores (condition.scan l) ++ stmtStores? no (yes.scan (condition.scan l)))
  | .whileLoop _ condition body shared, l =>
    condition.stores l ++ body.stores ((condition.scan l).isolate (!shared))
  | .forLoop _ init condition step body shared, l =>
    stmtStores? init l.openScope ++ (exprStores? condition (scanStmt? init l.openScope) ++
      (exprStores? step (scanExpr? condition (scanStmt? init l.openScope)) ++
        body.stores ((scanExpr? step (scanExpr? condition (scanStmt? init l.openScope))).isolate
          (!shared))))
  | .forEach _ name _ iterable body shared, l =>
    iterable.stores l ++
      body.stores (((iterable.scan l).openScope.declare name).isolate (!shared))
  | .leave _, _ | .next _, _ => []
  | .importModule _ _ none statements, l => stmtsStores statements l
  | .importModule _ _ (some space) statements, l =>
    stmtsStores statements (l.declareSpace space).openScope

/-- Those inside of a statement, if there is one. -/
def stmtStores? : Option Stmt → Lexical → List Stored
  | none, _ => []
  | some st, l => st.stores l

/-- Those inside of several statements. -/
def stmtsStores : List Stmt → Lexical → List Stored
  | [], _ => []
  | st :: sts, l => st.stores l ++ stmtsStores sts (st.scan l)

end

/-- The assignments to elements of arrays in a program, in the order in which they stand there. -/
def storesIn (statements : List Stmt) : List Stored := stmtsStores statements .initial

/-- The type of an expression has no part in the walk. -/
theorem Expr.stores_withType (e : Expr) (t : Ty) : (e.withType t).stores = e.stores := by
  cases e <;> rfl

/-! ### Types along a path -/

/-- The expression has the type, and if it is an element of an array, the array has the type of an
array of such elements. -/
def Expr.PathTyped : Expr → Ty → Prop
  | .access n whole _, t => n.type = some t ∧ whole.PathTyped (.array t)
  | e, t => e.type? = some t

/-- Only an array has elements. -/
theorem Ty.element?_eq_some {t element : Ty} (h : t.element? = some element) :
    t = .array element := by
  cases t with
  | array a => exact congrArg Ty.array (Option.some.inj h)
  | _ => cases h

/-- An expression carries its type. -/
theorem Expr.PathTyped.type?_eq {e : Expr} {t : Ty} (h : e.PathTyped t) : e.type? = some t := by
  cases e with
  | access n whole index => exact h.1
  | _ => exact h

/-- The array holds elements of a type that the value agrees with. -/
def Stored.Typed (x : Stored) : Prop :=
  ∃ element v, x.array.PathTyped (.array element) ∧ x.value.type? = some v ∧
    element.agrees v = true

/-- All that is stored has the type of its place, wherever the walk comes from. -/
def StoresTyped (stores : Lexical → List Stored) : Prop := ∀ l, ∀ x ∈ stores l, x.Typed

theorem StoresTyped.nil : StoresTyped fun _ => [] := fun _ => nofun

theorem StoresTyped.append {first others : Lexical → List Stored} (h₁ : StoresTyped first)
    (h₂ : StoresTyped others) (move : Lexical → Lexical) :
    StoresTyped fun l => first l ++ others (move l) := by
  intro l x hx
  rcases List.mem_append.1 hx with hx | hx
  · exact h₁ l x hx
  · exact h₂ (move l) x hx

theorem StoresTyped.enter {stores : Lexical → List Stored} (h : StoresTyped stores)
    (move : Lexical → Lexical) : StoresTyped fun l => stores (move l) :=
  fun l => h (move l)

/-- What is stored inside of the answer has the types of its places, and an expression has its type
along its path. -/
def Reply.Typed : Reply → Prop
  | .expr e t => StoresTyped e.stores ∧ e.PathTyped t
  | .exprs es _ => StoresTyped (exprsStores es)
  | .body b => StoresTyped b.stores
  | .stmt st => StoresTyped st.stores
  | .stmts sts => StoresTyped (stmtsStores sts)
  | .waited => True

/-- A part of a visit, which is without an error and has the right types. -/
def PartTyped (s : Checker) (v : Visit) (r : Reply) (s' : Checker) : Prop :=
  s.table.WellFormed ∧ Gives s v r s' ∧ r.Typed

section

variable {s s' : Checker}

theorem PartTyped.expr {hint : Option Ty} {e e' : Expr} {t : Ty}
    (h : PartTyped s (.expr hint e) (.expr e' t) s') : StoresTyped e'.stores := h.2.2.1

theorem MaybeExpr.storesTyped {e e' : Option Expr} {ps : List Point}
    (h : MaybeExpr PartTyped s e e' s' ps) : StoresTyped (exprStores? e') := by
  cases h with
  | none => exact .nil
  | some h₁ => exact h₁.expr

theorem MaybeStmt.storesTyped {ret : Ty} {st st' : Option Stmt} {ps : List Point}
    (h : MaybeStmt PartTyped s ret st st' s' ps) : StoresTyped (stmtStores? st') := by
  cases h with
  | none => exact .nil
  | some h₁ => exact h₁.2.2

/-- The handles of several threads are variables. -/
theorem storesTyped_of_vars {handles handles' : List Expr}
    (h : List.Forall₂ (fun e e' => ∃ k name t, e = .var k name ∧
      e' = (Expr.var k name).withType t) handles handles') :
    StoresTyped (exprsStores handles') := by
  induction h with
  | nil => exact .nil
  | cons hfirst _ ih =>
    obtain ⟨k, name, t, -, rfl⟩ := hfirst
    exact StoresTyped.nil.append ih _

/-- Each rule gives the right types, if the parts have them. -/
theorem typed_of_rule {v : Visit} {r : Reply} {ps : List Point}
    (h : Rule PartTyped s v r s' ps) : r.Typed := by
  cases h with
  | literal => exact ⟨.nil, rfl⟩
  | var _ _ _ => exact ⟨.nil, rfl⟩
  | binary h₁ h₂ _ => exact ⟨h₁.expr.append h₂.expr _, rfl⟩
  | unary h₁ _ => exact ⟨h₁.expr, rfl⟩
  | assign _ _ h₁ _ _ => exact ⟨h₁.expr, rfl⟩
  | indexAssign _ h₁ ha h₂ _ h₃ hv =>
    refine ⟨fun l x hx => ?_, rfl⟩
    rcases List.mem_append.1 hx with hx | hx
    · -- the assignment itself
      obtain ⟨name, -, rfl⟩ := Option.map_eq_some_iff.1 (Option.mem_toList.1 hx)
      obtain rfl := Ty.element?_eq_some ha
      exact ⟨_, _, h₁.2.2.2, h₃.2.2.2.type?_eq, hv⟩
    · exact h₁.expr.append (h₂.expr.append h₃.expr _) _ l x hx
  | len _ h₁ _ => exact ⟨StoresTyped.nil.append h₁.2.2 _, rfl⟩
  | call _ h₁ _ h₂ => exact ⟨h₁.expr.append h₂.2.2 _, rfl⟩
  | array h₁ => exact ⟨h₁.2.2, rfl⟩
  -- one index takes one array from the type
  | access h₁ ha h₂ _ =>
    refine ⟨h₁.expr.append h₂.expr _, rfl, ?_⟩
    obtain rfl := Ty.element?_eq_some ha
    exact h₁.2.2.2
  | range h₁ _ h₂ _ => exact ⟨h₁.expr.append h₂.expr _, rfl⟩
  | increment _ h₁ _ => exact ⟨h₁.expr, rfl⟩
  | decrement _ h₁ _ => exact ⟨h₁.expr, rfl⟩
  | spaceMember hspace _ =>
    obtain ⟨m, name, rfl, -, -⟩ := Table.namespaceOf?_eq_some hspace
    exact ⟨.nil, rfl⟩
  | valueMember _ h₁ _ => exact ⟨h₁.expr, rfl⟩
  | lambda _ _ _ _ h₁ => exact ⟨StoresTyped.enter h₁.2.2 _, rfl⟩
  | spawn h₁ _ h₂ => exact ⟨h₁.expr.append h₂.2.2 _, rfl⟩
  | sync _ _ => exact ⟨.nil, rfl⟩
  | syncAll _ _ hvars => exact ⟨storesTyped_of_vars hvars, rfl⟩
  | noArgs => exact .nil
  | arg h₁ _ h₂ => exact h₁.expr.append h₂.2.2 _
  | noElements => exact .nil
  | element h₁ _ _ h₂ => exact h₁.expr.append h₂.2.2 _
  | exprBody h₁ _ => exact h₁.expr
  | blockBody h₁ => exact h₁.2.2
  | expression h₁ => exact h₁.expr
  | declare _ => exact .nil
  | declareInit h₁ _ =>
    show StoresTyped (Expr.stores _)
    rw [Expr.stores_withType]
    exact h₁.expr
  | function _ _ _ h₁ => exact StoresTyped.enter h₁.2.2 _
  | ret h₁ => exact h₁.storesTyped
  | block h₁ => exact StoresTyped.enter h₁.2.2 _
  | cond h₁ _ h₂ h₃ => exact h₁.expr.append (StoresTyped.append h₂.2.2 h₃.storesTyped _) _
  | whileLoop h₁ _ h₂ _ => exact h₁.expr.append h₂.2.2 _
  | @forLoop _ _ _ _ _ _ shared init' condition' step' _ _ _ _ _ _ _ _ h₁ h₂ h₃ h₄ _ =>
    -- the parts of the head come first, and then the body
    have hstep := h₃.storesTyped.append h₄.2.2 fun l => (scanExpr? step' l).isolate (!shared)
    have hcondition := h₂.storesTyped.append hstep (scanExpr? condition')
    exact (h₁.storesTyped.append hcondition (scanStmt? init')).enter Lexical.openScope
  | forEach h₁ _ h₂ _ => exact h₁.expr.append h₂.2.2 _
  | leave => exact .nil
  | next => exact .nil
  | importMerged => exact .nil
  | importSpace _ _ h₁ => exact StoresTyped.enter h₁.2.2 _
  | noStmts => exact .nil
  | stmt h₁ h₂ => exact StoresTyped.append h₁.2.2 h₂.2.2 _
  | wait => trivial

/-- In a visit without an error, everything is stored where it has the type of its place. -/
theorem typed_of_gives {v : Visit} {r : Reply} (h : Gives s v r s') (hf : v.Fresh)
    (hw : s.table.WellFormed) : r.Typed :=
  h.induct (motive := fun _ _ r _ => r.Typed) (fun _ _ _ hr => typed_of_rule hr) hf hw

end

/-- Of two types that agree, both can leave a region or none of them, unless one is not known. -/
theorem Ty.canEscape_eq_of_agrees {a b : Ty} (h : a.agrees b = true) (ha : a ≠ .nil)
    (hb : b ≠ .nil) : b.canEscape = a.canEscape := by
  cases a <;> cases b <;> first
    | rfl
    | exact absurd rfl ha
    | exact absurd rfl hb
    | exact absurd h Bool.false_ne_true

/-- In an accepted program, a value that is stored into an array agrees with the elements of the
array, whatever isolating constructs stand between the assignment and the declaration of the array.
Each index on the way takes one array from the type of the variable.  So a value that cannot leave a
region is stored exactly where the elements of the array cannot, unless one of the types is not
known. -/
theorem checkModule_stores (d : Nat) (m : Module) (hm : m.IsProgram)
    (h : (checkModule d m).1.accepted) :
    ∀ x ∈ storesIn (checkModule d m).2.statements, ∃ element v,
      x.array.PathTyped (.array element) ∧ x.value.type? = some v ∧ element.agrees v = true ∧
      (element ≠ .nil → v ≠ .nil → v.canEscape = element.canEscape) := by
  intro x hx
  have htyped := typed_of_gives (gives_of_accepted h) hm.fresh (wellFormed_initial d)
  obtain ⟨element, v, hpath, hvalue, hagrees⟩ := htyped .initial x hx
  exact ⟨element, v, hpath, hvalue, hagrees, Ty.canEscape_eq_of_agrees hagrees⟩

/-- A program in which a private block changes an array of arrays from outside, first an element of
an element and then a whole element. -/
def Sample.grid? : Option Module :=
  Module.ofSource? []
    "var rows: int[][] = {{1}}; private { rows[0][0] = 2; rows[0] = {3}; }" "main.sn"

theorem Sample.any_grid? :
    Sample.grid?.any fun m =>
      (checkModule defaultSuggestionDistance m).1.accepted &&
        ((storesIn (checkModule defaultSuggestionDistance m).2.statements).map
          fun x => (x.name, decide x.Separated, x.value.type?)) =
            [("rows", true, some .int), ("rows", true, some (.array .int))] := by
  decide +kernel

def Sample.grid : Module :=
  Sample.grid?.get ((Option.any_eq_true_iff_get _ _).1 Sample.any_grid?).fst

theorem Sample.isProgram_grid : Sample.grid.IsProgram :=
  Module.isProgram_of_source (Option.some_get _).symm

/-- The program is accepted, with two assignments across the private block. -/
theorem Sample.accepted_grid :
    (checkModule defaultSuggestionDistance Sample.grid).1.accepted ∧
      ((storesIn (checkModule defaultSuggestionDistance Sample.grid).2.statements).map
        fun x => (x.name, decide x.Separated, x.value.type?)) =
          [("rows", true, some .int), ("rows", true, some (.array .int))] := by
  obtain ⟨haccepted, hfound⟩ :=
    Bool.and_eq_true_iff.1 ((Option.any_eq_true_iff_get _ _).1 Sample.any_grid?).snd
  exact ⟨haccepted, of_decide_eq_true hfound⟩

/-- What is stored has the type of its place both times. -/
theorem checkModule_stores_grid :
    Sample.grid.IsProgram ∧ (checkModule defaultSuggestionDistance Sample.grid).1.accepted ∧
      (storesIn (checkModule defaultSuggestionDistance Sample.grid).2.statements).length = 2 ∧
      ∀ x ∈ storesIn (checkModule defaultSuggestionDistance Sample.grid).2.statements,
        ∃ element v, x.array.PathTyped (.array element) ∧ x.value.type? = some v ∧
          element.agrees v = true ∧
          (element ≠ .nil → v ≠ .nil → v.canEscape = element.canEscape) := by
  obtain ⟨haccepted, hfound⟩ := Sample.accepted_grid
  refine ⟨Sample.isProgram_grid, haccepted, ?_,
    checkModule_stores _ _ Sample.isProgram_grid haccepted⟩
  simpa using congrArg List.length hfound

/-- An array that is made in a private block is stored into an array from outside of it, and the
program is accepted. -/
theorem stored_across_region :
    Sample.grid.IsProgram ∧ (checkModule defaultSuggestionDistance Sample.grid).1.accepted ∧
      ∃ x ∈ storesIn (checkModule defaultSuggestionDistance Sample.grid).2.statements,
        x.Separated ∧ x.value.type? = some (.array .int) ∧ (Ty.array .int).canEscape = false := by
  obtain ⟨haccepted, hfound⟩ := Sample.accepted_grid
  have hmem : ("rows", true, some (Ty.array .int)) ∈
      (storesIn (checkModule defaultSuggestionDistance Sample.grid).2.statements).map
        fun x => (x.name, decide x.Separated, x.value.type?) := by
    rw [hfound]
    simp
  obtain ⟨x, hx, heq⟩ := List.mem_map.1 hmem
  have hseparated : decide x.Separated = true := congrArg (fun y => y.2.1) heq
  have htype : x.value.type? = some (.array .int) := congrArg (fun y => y.2.2) heq
  exact ⟨Sample.isProgram_grid, haccepted, x, hx, of_decide_eq_true hseparated, htype, rfl⟩

end ThreadRegions
