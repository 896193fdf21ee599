import ThreadRegions.Proofs.Accept

/-!
# The annotations of accepted programs

What the checker finds out about a program is noted down in its tree: the type of each expression,
the type and the symbol of each declaration, how a thread is started and how a function works.  In
a program that is accepted nothing is missing, but for two places that stand for no value: the name
of a namespace in front of its member, and the brackets around handles that are waited for.

## Main Definitions

* `Expr.Annotated`, `Body.Annotated`, `Stmt.Annotated`: a tree, and the same tree with all
  annotations

## Main Results

* `annotated_of_gives`: a visit without an error leaves no annotation out
* `checkModule_annotated`: neither does the check of a module that is accepted
-/

namespace ThreadRegions

open CheckM

/-- A namespace of the table has the name. -/
def Table.HasSpace (t : Table) (name : String) : Prop :=
  ∃ id, t.Knows (some id) name ∧ (t.symbol id).isNamespace = true

mutual

/-- The second expression is the first one with all annotations, where symbols are those of `t`. -/
inductive Expr.Annotated (t : Table) : Expr → Expr → Prop
  | literal {n v a} : Expr.Annotated t (.literal n v) ((Expr.literal n v).withType a)
  | var {n name a} : Expr.Annotated t (.var n name) ((Expr.var n name).withType a)
  | binary {n op left right left' right' a} : Expr.Annotated t left left' →
      Expr.Annotated t right right' →
      Expr.Annotated t (.binary n op left right) ((Expr.binary n op left' right').withType a)
  | unary {n op operand operand' a} : Expr.Annotated t operand operand' →
      Expr.Annotated t (.unary n op operand) ((Expr.unary n op operand').withType a)
  | assign {n name value value' a} : Expr.Annotated t value value' →
      Expr.Annotated t (.assign n name value) ((Expr.assign n name value').withType a)
  | indexAssign {n array index value array' index' value' a} : Expr.Annotated t array array' →
      Expr.Annotated t index index' → Expr.Annotated t value value' →
      Expr.Annotated t (.indexAssign n array index value)
        ((Expr.indexAssign n array' index' value').withType a)
  | call {n callee args callee' args' a} : Expr.Annotated t callee callee' →
      List.Forall₂ (Expr.Annotated t) args args' →
      Expr.Annotated t (.call n callee args) ((Expr.call n callee' args').withType a)
  | array {n elements elements' a} : List.Forall₂ (Expr.Annotated t) elements elements' →
      Expr.Annotated t (.array n elements) ((Expr.array n elements').withType a)
  | access {n array index array' index' a} : Expr.Annotated t array array' →
      Expr.Annotated t index index' →
      Expr.Annotated t (.access n array index) ((Expr.access n array' index').withType a)
  | range {n first last first' last' a} : Expr.Annotated t first first' →
      Expr.Annotated t last last' →
      Expr.Annotated t (.range n first last) ((Expr.range n first' last').withType a)
  | increment {n operand operand' a} : Expr.Annotated t operand operand' →
      Expr.Annotated t (.increment n operand) ((Expr.increment n operand').withType a)
  | decrement {n operand operand' a} : Expr.Annotated t operand operand' →
      Expr.Annotated t (.decrement n operand) ((Expr.decrement n operand').withType a)
  | member {n object name object' a} : Expr.Annotated t object object' →
      Expr.Annotated t (.member n object name) ((Expr.member n object' name).withType a)
  /-- The name of a namespace has no type. -/
  | spaceMember {n m space name a} : m.type = none → t.HasSpace space →
      Expr.Annotated t (.member n (.var m space) name)
        ((Expr.member n (.var m space) name).withType a)
  | lambda {n head body head' body' a} : head'.modifier = head.modifier →
      t.DeclaresParams head.params head'.params → Body.Annotated t body body' →
      Expr.Annotated t (.lambda n head body) ((Expr.lambda n head' body').withType a)
  | spawn {n call mode call' started a} : Expr.Annotated t call call' →
      Expr.Annotated t (.spawn n call mode) ((Expr.spawn n call' (some started)).withType a)
  | sync {n handle handle' a} : Expr.Annotated t handle handle' →
      Expr.Annotated t (.sync n handle false) ((Expr.sync n handle' false).withType a)
  /-- An array of handles has no type. -/
  | syncAll {n m handles handles' a} : m.type = none →
      List.Forall₂ (Expr.Annotated t) handles handles' →
      Expr.Annotated t (.sync n (.array m handles) true)
        ((Expr.sync n (.array m handles') true).withType a)

/-- The second body is the first one with all annotations. -/
inductive Body.Annotated (t : Table) : Body → Body → Prop
  | expr {value value'} : Expr.Annotated t value value' →
      Body.Annotated t (.expr value) (.expr value')
  | block {sts sts'} : List.Forall₂ (Stmt.Annotated t) sts sts' →
      Body.Annotated t (.block sts) (.block sts')

/-- The second statement is the first one with all annotations. -/
inductive Stmt.Annotated (t : Table) : Stmt → Stmt → Prop
  | expression {span value value'} : Expr.Annotated t value value' →
      Stmt.Annotated t (.expression span value) (.expression span value')
  | declare {span head init init' a symbol} : t.Knows symbol head.name →
      Option.Rel (Expr.Annotated t) init init' →
      Stmt.Annotated t (.declare span head init)
        (.declare span { head with type := some a, symbol := symbol } init')
  | function {span head body params effective symbol body'} : t.Knows symbol head.name →
      t.DeclaresParams head.params params → List.Forall₂ (Stmt.Annotated t) body body' →
      Stmt.Annotated t (.function span head body)
        (.function span
          { head with params := params, effective := some effective, symbol := symbol } body')
  | ret {span value value'} : Option.Rel (Expr.Annotated t) value value' →
      Stmt.Annotated t (.ret span value) (.ret span value')
  | block {span modifier body body'} : List.Forall₂ (Stmt.Annotated t) body body' →
      Stmt.Annotated t (.block span modifier body) (.block span modifier body')
  | cond {span condition yes no condition' yes' no'} : Expr.Annotated t condition condition' →
      Stmt.Annotated t yes yes' → Option.Rel (Stmt.Annotated t) no no' →
      Stmt.Annotated t (.cond span condition yes no) (.cond span condition' yes' no')
  | whileLoop {span condition body shared condition' body'} :
      Expr.Annotated t condition condition' → Stmt.Annotated t body body' →
      Stmt.Annotated t (.whileLoop span condition body shared)
        (.whileLoop span condition' body' shared)
  | forLoop {span init condition step body shared init' condition' step' body'} :
      Option.Rel (Stmt.Annotated t) init init' →
      Option.Rel (Expr.Annotated t) condition condition' →
      Option.Rel (Expr.Annotated t) step step' → Stmt.Annotated t body body' →
      Stmt.Annotated t (.forLoop span init condition step body shared)
        (.forLoop span init' condition' step' body' shared)
  | forEach {span name symbol iterable body shared symbol' iterable' body'} :
      t.Knows symbol' name → Expr.Annotated t iterable iterable' → Stmt.Annotated t body body' →
      Stmt.Annotated t (.forEach span name symbol iterable body shared)
        (.forEach span name symbol' iterable' body' shared)
  | leave {span} : Stmt.Annotated t (.leave span) (.leave span)
  | next {span} : Stmt.Annotated t (.next span) (.next span)
  | importModule {span module space sts sts'} : List.Forall₂ (Stmt.Annotated t) sts sts' →
      Stmt.Annotated t (.importModule span module space sts) (.importModule span module space sts')

end

/-- The last type counts. -/
@[simp] theorem Expr.withType_withType (e : Expr) (a b : Ty) :
    (e.withType a).withType b = e.withType b := by
  cases e <;> rfl

/-- Another type is an annotation as well. -/
theorem Expr.Annotated.withType {t : Table} {e e' : Expr} (h : e.Annotated t e') (b : Ty) :
    e.Annotated t (e'.withType b) := by
  cases h with
  | spaceMember hm hs => exact .spaceMember hm hs
  | syncAll hm hs => exact .syncAll hm hs
  | _ =>
    rw [Expr.withType_withType]
    constructor <;> assumption

/-- What a visit has answered is what it walks over, with all annotations. -/
def Reply.Annotated (t : Table) : Visit → Reply → Prop
  | .expr _ e, .expr e' _ => e.Annotated t e'
  | .args _ _ _ es, .exprs es' _ => List.Forall₂ (Expr.Annotated t) es es'
  | .elements _ _ es, .exprs es' _ => List.Forall₂ (Expr.Annotated t) es es'
  | .body _ _ b, .body b' => b.Annotated t b'
  | .stmt _ st, .stmt st' => st.Annotated t st'
  | .stmts _ sts, .stmts sts' => List.Forall₂ (Stmt.Annotated t) sts sts'
  | .wait .., .waited => True
  | _, _ => False

/-! ### Going through the rules -/

/-- The answer has all annotations, in every table that comes later. -/
def StaysAnnotated (_ : Checker) (v : Visit) (r : Reply) (s' : Checker) : Prop :=
  ∀ final, s'.table.Lasts final → r.Annotated final v

/-- What is known about the parts of a visit. -/
def PartAnnotated (s : Checker) (v : Visit) (r : Reply) (s' : Checker) : Prop :=
  s.table.WellFormed ∧ Gives s v r s' ∧ StaysAnnotated s v r s'

namespace PartAnnotated

variable {s s' : Checker} {v : Visit} {r : Reply}

theorem lasts (h : PartAnnotated s v r s') : s.table.Lasts s'.table := h.2.1.lasts h.1

theorem wellFormed (h : PartAnnotated s v r s') : s'.table.WellFormed := h.2.1.wellFormed h.1

theorem annotated (h : PartAnnotated s v r s') {final : Table} (hl : s'.table.Lasts final) :
    r.Annotated final v := h.2.2 final hl

end PartAnnotated

theorem MaybeExpr.annotated {s s' : Checker} {e e' : Option Expr} {ps : List Point}
    (h : MaybeExpr PartAnnotated s e e' s' ps) {final : Table} (hl : s'.table.Lasts final) :
    s.table.Lasts s'.table ∧ Option.Rel (Expr.Annotated final) e e' := by
  cases h with
  | none => exact ⟨.refl _, .none⟩
  | some h => exact ⟨h.lasts, .some (h.annotated hl)⟩

theorem MaybeStmt.annotated {s s' : Checker} {ret : Ty} {st st' : Option Stmt} {ps : List Point}
    (h : MaybeStmt PartAnnotated s ret st st' s' ps) {final : Table} (hl : s'.table.Lasts final) :
    s.table.Lasts s'.table ∧ Option.Rel (Stmt.Annotated final) st st' := by
  cases h with
  | none => exact ⟨.refl _, .none⟩
  | some h => exact ⟨h.lasts, .some (h.annotated hl)⟩

/-- The object of a member of a namespace names the namespace. -/
theorem Table.hasSpace_of_lookup {t : Table} {name : String} {space : SymbolId}
    (hw : t.WellFormed) (hl : t.lookup name = some space)
    (hspace : (t.symbol space).isNamespace = true) : t.HasSpace name := by
  obtain ⟨c, -, -, hn⟩ := lookup_eq_some hl
  exact ⟨space, ⟨space, rfl, hw.lookup_lt hl, hn⟩, hspace⟩

/-- A namespace stays one. -/
theorem Table.HasSpace.mono {t t' : Table} {name : String} (h : t.HasSpace name)
    (hl : t.Lasts t') : t'.HasSpace name := by
  obtain ⟨id, hk, hspace⟩ := h
  refine ⟨id, hk.mono hl, ?_⟩
  obtain ⟨a, ha, hlt, -⟩ := hk
  cases ha
  rwa [Symbol.isNamespace, hl.kind_eq hlt]

/-- Inferring the types of a lambda changes no name. -/
theorem LambdaHead.names_infer (head : LambdaHead) (hint : Option Ty) :
    (head.infer hint).params.map Param.name = head.params.map Param.name ∧
      (head.infer hint).modifier = head.modifier := by
  unfold LambdaHead.infer
  split
  · split
    · next hlength =>
      refine ⟨?_, rfl⟩
      apply List.ext_getElem
      · simp [hlength]
      · intro i h₁ h₂
        simp only [List.getElem_map, List.getElem_zipWith, Param.infer]
        split <;> rfl
    · exact ⟨rfl, rfl⟩
  · exact ⟨rfl, rfl⟩

/-- Each rule gives all annotations, if the parts have them. -/
theorem staysAnnotated_of_rule {s s' : Checker} {v : Visit} {r : Reply} {ps : List Point}
    (hf : v.Fresh) (hw : s.table.WellFormed) (h : Rule PartAnnotated s v r s' ps) :
    StaysAnnotated s v r s' := by
  intro final hl
  cases h with
  | literal => exact .literal
  | var _ _ _ => exact .var
  | binary h₁ h₂ _ => exact .binary (h₁.annotated (h₂.lasts.trans hl)) (h₂.annotated hl)
  | unary h₁ _ => exact .unary (h₁.annotated hl)
  | assign _ _ h₁ _ _ => exact .assign (h₁.annotated hl)
  | indexAssign _ h₁ _ h₂ _ h₃ _ =>
    exact .indexAssign (h₁.annotated ((h₂.lasts.trans h₃.lasts).trans hl))
      (h₂.annotated (h₃.lasts.trans hl)) (h₃.annotated hl)
  | len _ h₁ _ => exact .call .var (h₁.annotated hl)
  | call _ h₁ _ h₂ => exact .call (h₁.annotated (h₂.lasts.trans hl)) (h₂.annotated hl)
  | array h₁ => exact .array (h₁.annotated hl)
  | access h₁ _ h₂ _ => exact .access (h₁.annotated (h₂.lasts.trans hl)) (h₂.annotated hl)
  | range h₁ _ h₂ _ => exact .range (h₁.annotated (h₂.lasts.trans hl)) (h₂.annotated hl)
  | increment _ h₁ _ => exact .increment (h₁.annotated hl)
  | decrement _ h₁ _ => exact .decrement (h₁.annotated hl)
  | spaceMember hspace _ =>
    obtain ⟨m, name, rfl, hlookup, hs⟩ := Table.namespaceOf?_eq_some hspace
    exact .spaceMember hf.2 ((Table.hasSpace_of_lookup hw hlookup hs).mono hl)
  | valueMember _ h₁ _ => exact .member (h₁.annotated hl)
  | @lambda hint _ head _ _ _ _ _ _ _ _ _ _ hparams _ h₁ =>
    -- the parameters have got types, and the names are those of the text
    obtain ⟨hnames, hmodifier⟩ := head.names_infer hint
    have hl₁ := (lasts_leaveLambda _ _).trans hl
    refine .lambda hmodifier ?_ (h₁.annotated hl₁)
    have hdeclares := (hparams.declares h₁.1).mono (h₁.lasts.trans hl₁)
    exact ⟨hdeclares.names.trans hnames, hdeclares.known⟩
  | spawn h₁ _ h₂ =>
    exact .spawn (.call (h₁.annotated (h₂.lasts.trans hl)) (h₂.annotated hl))
  | sync _ _ => exact .sync .var
  | syncAll _ _ hvars =>
    refine .syncAll hf.2.1 (hvars.imp ?_)
    rintro e e' ⟨k, name, t, rfl, rfl⟩
    exact .var
  | noArgs => exact .nil
  | arg h₁ _ h₂ => exact .cons (h₁.annotated (h₂.lasts.trans hl)) (h₂.annotated hl)
  | noElements => exact .nil
  | element h₁ _ _ h₂ => exact .cons (h₁.annotated (h₂.lasts.trans hl)) (h₂.annotated hl)
  | exprBody h₁ _ => exact .expr (h₁.annotated hl)
  | blockBody h₁ => exact .block (h₁.annotated hl)
  | expression h₁ => exact .expression (h₁.annotated hl)
  | declare hsame =>
    have hl₁ := (Table.Lasts.of_sameButThreads hsame).trans hl
    exact .declare ((Table.knows_addQualified hw _ _ _ _).mono hl₁) .none
  | declareInit h₁ hsame =>
    have hl₁ := (Table.Lasts.of_sameButThreads hsame).trans hl
    have hinit := h₁.annotated ((Table.Lasts.addQualified _ _ _ _).trans hl₁)
    refine .declare ?_ (.some (hinit.withType _))
    exact (Table.knows_addQualified h₁.wellFormed _ _ _ _).mono hl₁
  | @function _ span head _ _ _ _ _ _ hs₀ hs₁ hparams h₁ =>
    have hleave := (lasts_leaveBlock _ _).trans hl
    have hl₁ := h₁.lasts.trans hleave
    refine .function ?_ ((hparams.declares h₁.1).mono hl₁) (h₁.annotated hleave)
    -- the function is declared before its body is visited
    subst hs₀ hs₁
    have hw₀ := (Table.Lasts.stable.toStable.reportHead span head hw).1
    exact (Table.knows_addFunction hw₀ _ _ _ _).mono ((lasts_enterFunction _ _).trans hl₁)
  | ret h₁ => exact .ret (h₁.annotated hl).2
  | block h₁ => exact .block (h₁.annotated ((lasts_leaveBlock _ _).trans hl))
  | cond h₁ _ h₂ h₃ =>
    obtain ⟨hl₃, hno⟩ := h₃.annotated hl
    have hl₂ := hl₃.trans hl
    exact .cond (h₁.annotated (h₂.lasts.trans hl₂)) (h₂.annotated hl₂) hno
  | whileLoop h₁ _ h₂ _ =>
    have hl₂ := (lasts_exitRegionIf _ _).trans hl
    have hl₁ := (lasts_enterRegionIf _ _).trans (h₂.lasts.trans hl₂)
    exact .whileLoop (h₁.annotated hl₁) (h₂.annotated hl₂)
  | forLoop h₁ h₂ h₃ h₄ _ =>
    -- from behind: each part is annotated in the table in which the next one begins
    have hl₄ := (lasts_leaveRound _ _).trans hl
    have hl₃ := (lasts_enterRegionIf _ _).trans (h₄.lasts.trans hl₄)
    obtain ⟨hs₃, hstep⟩ := h₃.annotated hl₃
    obtain ⟨hs₂, hcondition⟩ := h₂.annotated (hs₃.trans hl₃)
    obtain ⟨-, hinit⟩ := h₁.annotated (hs₂.trans (hs₃.trans hl₃))
    exact .forLoop hinit hcondition hstep (h₄.annotated hl₄)
  | forEach h₁ _ h₂ _ =>
    have hl₂ := (lasts_leaveRound _ _).trans hl
    have hl₁ := h₂.lasts.trans hl₂
    refine .forEach ((knows_enterRound h₁.wellFormed _ _ _).mono hl₁) (h₁.annotated ?_)
      (h₂.annotated hl₂)
    exact (lasts_enterRound _ _ _ _).trans hl₁
  | leave => exact .leave
  | next => exact .next
  | importMerged => exact .importModule .nil
  | importSpace _ _ h₁ => exact .importModule (h₁.annotated ((lasts_leaveModule _).trans hl))
  | noStmts => exact .nil
  | stmt h₁ h₂ => exact .cons (h₁.annotated (h₂.lasts.trans hl)) (h₂.annotated hl)
  | wait => trivial

/-- A visit without an error leaves no annotation out. -/
theorem annotated_of_gives {s s' : Checker} {v : Visit} {r : Reply} (h : Gives s v r s')
    (hf : v.Fresh) (hw : s.table.WellFormed) : r.Annotated s'.table v :=
  h.induct (fun hf hw _ hr => staysAnnotated_of_rule hf hw hr) hf hw s'.table (.refl _)

/-- In an accepted program no annotation is missing, and nothing but annotations has been added. -/
theorem checkModule_annotated (d : Nat) (m : Module) (hm : m.IsProgram)
    (h : (checkModule d m).1.accepted) :
    List.Forall₂ (Stmt.Annotated (checkModule d m).1.table) m.statements
      (checkModule d m).2.statements :=
  annotated_of_gives (gives_of_accepted h) hm.fresh (wellFormed_initial d)

/-- A program with a namespace, a loop and two threads that are waited for together. -/
def Sample.threads? : Option Module :=
  Module.ofSource? [("m", "fn twice(x: int): int { return x * 2; }")]
    ("import \"m\" as m; " ++
      "fn sum(xs: int[]): int { var n = 0; for x in xs { n = n + x; } return n; } " ++
      "var data: int[] = {1}; var a = &sum(data); var b = &sum(data); [a, b]!; print(m.twice(a));")
    "main.sn"

theorem Sample.any_threads? :
    Sample.threads?.any fun m => (checkModule defaultSuggestionDistance m).1.accepted := by
  decide +kernel

def Sample.threads : Module :=
  Sample.threads?.get ((Option.any_eq_true_iff_get _ _).1 Sample.any_threads?).fst

theorem Sample.isProgram_threads : Sample.threads.IsProgram :=
  Module.isProgram_of_source (Option.some_get _).symm

theorem Sample.accepted_threads :
    (checkModule defaultSuggestionDistance Sample.threads).1.accepted :=
  ((Option.any_eq_true_iff_get _ _).1 Sample.any_threads?).snd

/-- The program is accepted, and no annotation is missing. -/
theorem checkModule_annotated_threads :
    Sample.threads.IsProgram ∧
      (checkModule defaultSuggestionDistance Sample.threads).1.accepted ∧
      List.Forall₂ (Stmt.Annotated (checkModule defaultSuggestionDistance Sample.threads).1.table)
        Sample.threads.statements
        (checkModule defaultSuggestionDistance Sample.threads).2.statements :=
  ⟨Sample.isProgram_threads, Sample.accepted_threads,
    checkModule_annotated _ _ Sample.isProgram_threads Sample.accepted_threads⟩

end ThreadRegions
