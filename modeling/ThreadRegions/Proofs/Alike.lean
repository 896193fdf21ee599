import ThreadRegions.Proofs.Likeness

/-!
# Trees that are alike

Two walks that go in step note down their findings in trees that differ in places, and perhaps in
the numbers of symbols.  What a rule asks of such trees is the same, and trees that are put together
from parts that are alike are alike.

## Main Definitions

* `Likeness.Alike`, `Likeness.AlikeStmt`: trees that are alike

## Main Results

* `Likeness.Alike.type?`, `Likeness.Alike.name?` and others like them: what the rules ask
* `Likeness.Alike.binary`, `Likeness.AlikeStmt.declare` and others like them: putting trees together
-/

namespace ThreadRegions

namespace Likeness

variable (v : Likeness)

/-- The second expression is the first one at other places, up to what is overlooked. -/
def Alike (e e' : Expr) : Prop := e'.strip v.rough = (e.relocate v.place).strip v.rough

/-- The second expressions are the first ones at other places, up to what is overlooked. -/
def Alikes (es es' : List Expr) : Prop :=
  exprsStrip v.rough es' = exprsStrip v.rough (exprsRelocate v.place es)

/-- The second parameters are the first ones at other places, up to what is overlooked. -/
def AlikeParams (ps ps' : List Param) : Prop :=
  ps'.map (Param.strip v.rough) = (ps.map (Param.relocate v.place)).map (Param.strip v.rough)

/-- The second body is the first one at other places, up to what is overlooked. -/
def AlikeBody (b b' : Body) : Prop := b'.strip v.rough = (b.relocate v.place).strip v.rough

/-- The second statement is the first one at other places, up to what is overlooked. -/
def AlikeStmt (st st' : Stmt) : Prop := st'.strip v.rough = (st.relocate v.place).strip v.rough

/-- The second statements are the first ones at other places, up to what is overlooked. -/
def AlikeStmts (sts sts' : List Stmt) : Prop :=
  stmtsStrip v.rough sts' = stmtsStrip v.rough (stmtsRelocate v.place sts)

/-- The number of a symbol that has been declared is the same where it is noted down, unless it is
overlooked. -/
theorem strip_symbol {id id' : SymbolId} (h : v.Same id id') :
    (if v.rough then none else some id') = if v.rough then none else some id := by
  cases hr : v.rough with
  | true => rfl
  | false => rw [h, v.number_of_exact hr]

namespace Alike

variable {v} {e e' a a' b b' c c' : Expr} {es es' : List Expr} {n : Node}

/-- What has only been moved is alike: this is how the walk of the second program starts. -/
theorem refl (e : Expr) : v.Alike e (e.relocate v.place) := rfl

/-- What does not depend on places and numbers is the same. -/
theorem read {α : Type} (h : v.Alike e e') (f : Expr → α) (hs : ∀ e, f (e.strip v.rough) = f e)
    (hp : ∀ e, f (e.relocate v.place) = f e) : f e' = f e := by
  rw [← hs e', h, hs, hp]

theorem start (h : v.Alike e e') : e'.start = v.place e.start := by
  rw [← e'.start_strip v.rough, h, Expr.start_strip, Expr.start_relocate]

/-- The type that has been noted down does not depend on where the expression stands. -/
theorem type? (h : v.Alike e e') : e'.type? = e.type? :=
  h.read _ (Expr.type?_strip _) (Expr.type?_relocate _)

theorem name? (h : v.Alike e e') : e'.name? = e.name? :=
  h.read _ (Expr.name?_strip _) (Expr.name?_relocate _)

theorem isSpawn (h : v.Alike e e') : e'.isSpawn = e.isSpawn :=
  h.read _ (Expr.isSpawn_strip _) (Expr.isSpawn_relocate _)

theorem isRange (h : v.Alike e e') : e'.isRange = e.isRange :=
  h.read _ (Expr.isRange_strip _) (Expr.isRange_relocate _)

theorem calleeName (h : v.Alike e e') : e'.calleeName = e.calleeName :=
  h.read _ (Expr.calleeName_strip _) (Expr.calleeName_relocate _)

theorem mutation? (h : v.Alike e e') : e'.mutation? = e.mutation? :=
  h.read _ (Expr.mutation?_strip _) (Expr.mutation?_relocate _)

/-- Whether the length of an array is asked for is a matter of the name alone. -/
theorem callsLen (h : v.Alike e e') (t : Table) : t.callsLen e' = t.callsLen e := by
  rw [Table.callsLen, h.name?, Table.callsLen]

/-- The modifier of a function is found by its name, or by those of its namespace and its member. -/
theorem declaredModifier (h : v.Alike e e') (t : Table) :
    ThreadRegions.declaredModifier t e' = ThreadRegions.declaredModifier t e := by
  refine h.read _ (declaredModifier_strip _ t) fun e => ?_
  -- only a member is looked up in two steps
  cases e with
  | member n object name => simp [ThreadRegions.declaredModifier]
  | _ => rfl

/-- The walk notes the same type in both programs. -/
theorem withType (h : v.Alike e e') (t : Ty) : v.Alike (e.withType t) (e'.withType t) := by
  rw [Alike, Expr.strip_withType, h, Expr.relocate_withType, Expr.strip_withType]

/-- The element type that is known from outside is written into both array literals. -/
theorem refineArray (h : v.Alike e e') (t : Ty) :
    v.Alike (e.refineArray t) (e'.refineArray t) := by
  rw [Alike, Expr.strip_refineArray, h, Expr.relocate_refineArray, Expr.strip_refineArray]

theorem binary (op : BinaryOp) (ha : v.Alike a a') (hb : v.Alike b b') :
    v.Alike (.binary n op a b) (.binary (n.relocate v.place) op a' b') :=
  congrArg₂ (Expr.binary _ op) ha hb

theorem unary (op : UnaryOp) (h : v.Alike e e') :
    v.Alike (.unary n op e) (.unary (n.relocate v.place) op e') :=
  congrArg (Expr.unary _ op) h

theorem assign (name : String) (h : v.Alike e e') :
    v.Alike (.assign n name e) (.assign (n.relocate v.place) name e') :=
  congrArg (Expr.assign _ name) h

/-- The only expression with three parts, so its equation is rewritten part by part. -/
theorem indexAssign (ha : v.Alike a a') (hb : v.Alike b b') (hc : v.Alike c c') :
    v.Alike (.indexAssign n a b c) (.indexAssign (n.relocate v.place) a' b' c') := by
  show Expr.indexAssign _ _ _ _ = Expr.indexAssign _ _ _ _
  rw [ha, hb, hc]

/-- The arguments have been visited by the loop over lists, so they are compared as a list. -/
theorem call (h : v.Alike e e') (hs : v.Alikes es es') :
    v.Alike (.call n e es) (.call (n.relocate v.place) e' es') :=
  congrArg₂ (Expr.call _) h hs

theorem array (hs : v.Alikes es es') : v.Alike (.array n es) (.array (n.relocate v.place) es') :=
  congrArg (Expr.array _) hs

theorem access (ha : v.Alike a a') (hb : v.Alike b b') :
    v.Alike (.access n a b) (.access (n.relocate v.place) a' b') :=
  congrArg₂ (Expr.access _) ha hb

theorem range (ha : v.Alike a a') (hb : v.Alike b b') :
    v.Alike (.range n a b) (.range (n.relocate v.place) a' b') :=
  congrArg₂ (Expr.range _) ha hb

theorem increment (h : v.Alike e e') :
    v.Alike (.increment n e) (.increment (n.relocate v.place) e') :=
  congrArg (Expr.increment _) h

theorem decrement (h : v.Alike e e') :
    v.Alike (.decrement n e) (.decrement (n.relocate v.place) e') :=
  congrArg (Expr.decrement _) h

theorem member (name : String) (h : v.Alike e e') :
    v.Alike (.member n e name) (.member (n.relocate v.place) e' name) :=
  congrArg (Expr.member _ · name) h

/-- The head is compared on its own: its parameters may have been given their numbers. -/
theorem lambda {head head' : LambdaHead} {body body' : Body}
    (hh : head'.strip v.rough = (head.relocate v.place).strip v.rough)
    (hb : v.AlikeBody body body') :
    v.Alike (.lambda n head body) (.lambda (n.relocate v.place) head' body') :=
  congrArg₂ (Expr.lambda _) hh hb

theorem spawn (mode : Option Modifier) (h : v.Alike e e') :
    v.Alike (.spawn n e mode) (.spawn (n.relocate v.place) e' mode) :=
  congrArg (Expr.spawn _ · mode) h

theorem sync (isArray : Bool) (h : v.Alike e e') :
    v.Alike (.sync n e isArray) (.sync (n.relocate v.place) e' isArray) :=
  congrArg (Expr.sync _ · isArray) h

end Alike

variable {v} in
/-- Expressions that have only been moved are alike. -/
theorem Alikes.refl (es : List Expr) : v.Alikes es (exprsRelocate v.place es) := rfl

variable {v} in
theorem Alikes.cons {e e' : Expr} {es es' : List Expr} (h : v.Alike e e') (hs : v.Alikes es es') :
    v.Alikes (e :: es) (e' :: es') :=
  congrArg₂ List.cons h hs

variable {v} in
theorem Alikes.length_eq {es es' : List Expr} (h : v.Alikes es es') : es'.length = es.length := by
  rw [← length_exprsStrip v.rough, h, length_exprsStrip, length_exprsRelocate]

variable {v} in
theorem strip_option {o o' : Option Expr} (h : Option.Rel v.Alike o o') :
    exprStrip? v.rough o' = exprStrip? v.rough (exprRelocate? v.place o) := by
  cases h with
  | none => rfl
  | some h => exact congrArg some h

variable {v} in
theorem strip_optionStmt {o o' : Option Stmt} (h : Option.Rel v.AlikeStmt o o') :
    stmtStrip? v.rough o' = stmtStrip? v.rough (stmtRelocate? v.place o) := by
  cases h with
  | none => rfl
  | some h => exact congrArg some h

variable {v} in
/-- Statements are visited one after the other, and compared in the same order. -/
theorem AlikeStmts.cons {st st' : Stmt} {sts sts' : List Stmt} (h : v.AlikeStmt st st')
    (hs : v.AlikeStmts sts sts') : v.AlikeStmts (st :: sts) (st' :: sts') :=
  congrArg₂ List.cons h hs

variable {v} in
theorem AlikeParams.cons (p : Param) {id id' : SymbolId} (h : v.Same id id') {ps ps' : List Param}
    (hs : v.AlikeParams ps ps') :
    v.AlikeParams ({ p with symbol := some id } :: ps)
      ({ p.relocate v.place with symbol := some id' } :: ps') := by
  refine congrArg₂ List.cons ?_ hs
  dsimp only [Param.strip, Param.relocate]
  rw [v.strip_symbol h]

namespace AlikeStmt

variable {v} {e e' : Expr} {o o' : Option Expr} {st st' yes yes' : Stmt} {q q' : Option Stmt}
  {sts sts' : List Stmt} {span : Span}

/-- A statement that has only been moved is alike, as it is where the walk gives it up unread. -/
theorem refl (st : Stmt) : v.AlikeStmt st (st.relocate v.place) := rfl

theorem expression (h : v.Alike e e') :
    v.AlikeStmt (.expression span e) (.expression (span.relocate v.place) e') :=
  congrArg (Stmt.expression _) h

theorem declare (head : VariableHead) (h : Option.Rel v.Alike o o') :
    v.AlikeStmt (.declare span head o) (.declare (span.relocate v.place) head o') :=
  congrArg (Stmt.declare _ _) (strip_option h)

theorem declared {name : String} {type : Option Ty} {q : Qualifier} {id id' : SymbolId}
    (hid : v.Same id id') (h : Option.Rel v.Alike o o') :
    v.AlikeStmt (.declare span ⟨name, type, q, some id⟩ o)
      (.declare (span.relocate v.place) ⟨name, type, q, some id'⟩ o') := by
  refine congrArg₂ (Stmt.declare _) ?_ (strip_option h)
  dsimp only [VariableHead.strip]
  rw [v.strip_symbol hid]

/-- A function that has been declared: it and its parameters have got their numbers. -/
theorem function (head : FunctionHead) {id id' : SymbolId} (hid : v.Same id id')
    {ps ps' : List Param} (hp : v.AlikeParams ps ps') (h : v.AlikeStmts sts sts') :
    v.AlikeStmt (.function span { head with params := ps, symbol := some id } sts)
      (.function (span.relocate v.place) { head with params := ps', symbol := some id' } sts') := by
  refine congrArg₂ (Stmt.function _) ?_ h
  dsimp only [FunctionHead.strip, FunctionHead.relocate]
  rw [v.strip_symbol hid, hp]

theorem ret (h : Option.Rel v.Alike o o') :
    v.AlikeStmt (.ret span o) (.ret (span.relocate v.place) o') :=
  congrArg (Stmt.ret _) (strip_option h)

theorem block (modifier : Modifier) (h : v.AlikeStmts sts sts') :
    v.AlikeStmt (.block span modifier sts) (.block (span.relocate v.place) modifier sts') :=
  congrArg (Stmt.block _ modifier) h

theorem cond (h : v.Alike e e') (hy : v.AlikeStmt yes yes') (hn : Option.Rel v.AlikeStmt q q') :
    v.AlikeStmt (.cond span e yes q) (.cond (span.relocate v.place) e' yes' q') := by
  show Stmt.cond _ _ _ _ = Stmt.cond _ _ _ _
  rw [h, hy, strip_optionStmt hn]

theorem whileLoop (shared : Bool) (h : v.Alike e e') (hb : v.AlikeStmt st st') :
    v.AlikeStmt (.whileLoop span e st shared)
      (.whileLoop (span.relocate v.place) e' st' shared) := by
  show Stmt.whileLoop _ _ _ _ = Stmt.whileLoop _ _ _ _
  rw [h, hb]

/-- All three parts of the head may be missing. -/
theorem forLoop (shared : Bool) {step step' : Option Expr} (hi : Option.Rel v.AlikeStmt q q')
    (hc : Option.Rel v.Alike o o') (hs : Option.Rel v.Alike step step') (hb : v.AlikeStmt st st') :
    v.AlikeStmt (.forLoop span q o step st shared)
      (.forLoop (span.relocate v.place) q' o' step' st' shared) := by
  show Stmt.forLoop _ _ _ _ _ _ = Stmt.forLoop _ _ _ _ _ _
  rw [strip_optionStmt hi, strip_option hc, strip_option hs, hb]

theorem forEach (name : String) (symbol : Option SymbolId) (shared : Bool) (h : v.Alike e e')
    (hb : v.AlikeStmt st st') :
    v.AlikeStmt (.forEach span name symbol e st shared)
      (.forEach (span.relocate v.place) name symbol e' st' shared) := by
  show Stmt.forEach _ _ _ _ _ _ = Stmt.forEach _ _ _ _ _ _
  rw [h, hb]

theorem forEachDeclared (name : String) {id id' : SymbolId} (hid : v.Same id id') (shared : Bool)
    (h : v.Alike e e') (hb : v.AlikeStmt st st') :
    v.AlikeStmt (.forEach span name (some id) e st shared)
      (.forEach (span.relocate v.place) name (some id') e' st' shared) := by
  show Stmt.forEach _ _ _ _ _ _ = Stmt.forEach _ _ _ _ _ _
  rw [v.strip_symbol hid, h, hb]

/-- The statements that have been brought in are compared like those of a block. -/
theorem importModule (module : String) (space : Option String) (h : v.AlikeStmts sts sts') :
    v.AlikeStmt (.importModule span module space sts)
      (.importModule (span.relocate v.place) module space sts') :=
  congrArg (Stmt.importModule _ module space) h

end AlikeStmt

end Likeness

end ThreadRegions
