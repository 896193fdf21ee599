import ThreadRegions.Proofs.ScopeStack

/-!
# Leaving a scope restores the names around it

What a table shows, whatever has been done to it, is a stack of finite maps.  This module says what
that means for those who use the table: the answers to all questions about names, and the names that
are in force again when a scope has been left.

## Main Definitions

* `Table.Shows`: the answers of the table are those of the stack
* `Operation.balanced`: operations that leave every scope they enter, and no other
* `Table.SameBinding`: a name stands for the same symbol in a scope, with the same type
* `Table.Restores`: what is around a scope that has been entered and left

## Main Results

* `Table.SameBinding.apply`: one operation in an inner scope
* `Table.sameBinding_run`: balanced operations in an inner scope
* `Table.run_shows_stack`: every sequence of operations

## Design Notes

Two operations reach through all open scopes to the global one: a namespace is added there, and a
name is taken away there.  They are the only exceptions to what is restored.
-/

namespace ThreadRegions

namespace Table

/-! ### What can be seen of a table -/

/-- The answers of the table are those of the stack. -/
structure Shows (t : Table) (s : ScopeStack) : Prop where
  /-- No scope holds two symbols of one name, be it open or not. -/
  names_nodup : ∀ c, (t.namesOf (t.scope c).symbols).Nodup
  /-- The open scopes hold the maps of the stack, level by level. -/
  levels : List.Forall₂ (fun c m => ∀ name, t.findIn c name = m.lookup name) t.open_ s.levels
  /-- Each open scope lies in the next one, -/
  parents : t.open_.IsChain fun c d => (t.scope c).parent = some d
  /-- and the last one, which lies in none, is the global scope. -/
  root : globalId ∉ t.inner ∧ t.open_ = t.inner ++ [globalId] ∧ (t.scope globalId).parent = none
  /-- The global scope is not left. -/
  global_stays : t.isGlobal → t.popScope = t
  /-- A name stands for its binding in the innermost scope that has one. -/
  lookup : ∀ name, t.lookup name = s.lookup name
  /-- A name is a namespace if its binding in the global scope is one. -/
  isNamespace : ∀ name, t.isNamespace name ↔
    ∃ b, s.global.lookup name = some b ∧ (t.symbol b).isNamespace
  /-- The members of a namespace are those of the stack. -/
  lookupIn : ∀ space name, t.lookupIn space name = s.member space name
  /-- No namespace has two members of one name. -/
  members_nodup : ∀ b, (t.namesOf (t.symbol b).members).Nodup
  /-- No member can be seen without its namespace. -/
  members_hidden : ∀ b, ∀ a ∈ (t.symbol b).members, ∀ name, t.lookup name ≠ some a

/-- A table that refines a stack shows nothing else than the stack. -/
theorem Refines.shows {t : Table} {s : ScopeStack} (h : t.Refines s) : t.Shows s where
  names_nodup := h.names
  levels := h.open_.imp fun _ _ hm => hm.findLast_eq
  parents := h.parents
  root := ⟨fun hmem => h.wellFormed.ne_globalId hmem rfl, rfl, h.root⟩
  global_stays hg := by
    unfold Table.popScope
    rw [List.isEmpty_iff.1 hg]
  lookup := h.lookup_eq
  isNamespace name := by
    rw [Table.isNamespace, h.findNamespace_eq, Option.isSome_map, ScopeStack.space?]
    cases hl : s.global.lookup name with
    | none => simp
    | some b =>
      have hb := ((h.global name b).1 hl).1
      rw [Option.bind_some, Option.isSome_map, Finmap.lookup_isSome, h.spaces]
      simp [(h.wellFormed.linked _ b hb).1]
  lookupIn := h.lookupIn_eq
  members_nodup := h.memberNames
  members_hidden b a ha name hl := by
    obtain ⟨c, -, hc, -⟩ := lookup_eq_some hl
    exact (h.wellFormed.members b a ha).2 c hc

end Table

/-! ### Operations inside of a scope -/

namespace Operation

/-- The number of scopes that are open inside of a scope, after an operation, if the scope itself
has not been left. -/
def depthAfter (d : Nat) : Operation → Option Nat
  | .pushScope | .pushFrame => some (d + 1)
  | .popScope => if d = 0 then none else some (d - 1)
  | _ => some d

/-- With `d` scopes open inside of a scope, the operations leave these and all that they enter, but
not the scope itself. -/
def balanced (d : Nat) : List Operation → Bool
  | [] => d = 0
  | op :: ops =>
    match op.depthAfter d with
    | none => false
    | some d' => balanced d' ops

/-- The operation may change what a name stands for in the global scope, whatever scope is open. -/
def reachesGlobal (name : String) : Operation → Bool
  | .addNamespace other | .removeFromGlobal other => other = name
  | _ => false

end Operation

namespace Table

/-- What holds of the table and of every table that an operation answers with. -/
theorem of_answer {P : Table → Prop} {t : Table} {answer : Option (Table × SymbolId)} (ht : P t)
    (h : ∀ t' id, answer = some (t', id) → P t') : P ((answer.map Prod.fst).getD t) := by
  cases answer with
  | none => exact ht
  | some pair => exact h pair.1 pair.2 rfl

/-- A name stands for the same symbol in a scope, and the symbol has the same type. -/
structure SameBinding (t t' : Table) (c : ScopeId) (name : String) : Prop where
  findIn_eq : t'.findIn c name = t.findIn c name
  type_eq : ∀ a, t.findIn c name = some a → (t'.symbol a).type = (t.symbol a).type

namespace SameBinding

variable {t t₁ t₂ : Table} {c : ScopeId} {name : String}

theorem refl (t : Table) (c : ScopeId) (name : String) : SameBinding t t c name :=
  ⟨rfl, fun _ _ => rfl⟩

theorem trans (h : SameBinding t t₁ c name) (h' : SameBinding t₁ t₂ c name) :
    SameBinding t t₂ c name := by
  refine ⟨h'.findIn_eq.trans h.findIn_eq, fun a ha => ?_⟩
  rw [h'.type_eq a (h.findIn_eq.trans ha), h.type_eq a ha]

theorem of_untouched (h : Untouched t t₁ c) (name : String) : SameBinding t t₁ c name :=
  ⟨h.findIn_eq name, fun a ha => h.type a (findIn_eq_some ha).1⟩

theorem addNamespace {s : ScopeStack} (h : t.Refines s) {other : String}
    (hne : c = globalId → other ≠ name) : SameBinding t (t.apply (.addNamespace other)) c name := by
  have hr := h.addNamespace other
  refine of_answer (P := fun t' => SameBinding t t' c name) (.refl t c name) fun t' id ha => ?_
  rw [ha] at hr
  change t'.Refines _ at hr
  obtain ⟨-, -, ht'⟩ := addNamespace_eq_some ha
  have hpush := Untouched.pushSymbol h.wellFormed (.fresh other .nil .namespace_ globalId) c
  have hsymbol : ∀ a, t'.symbol a =
      (t.pushSymbol (.fresh other .nil .namespace_ globalId)).symbol a := fun a => by
    rw [ht', symbol_modifyScope]
  refine ⟨?_, fun a hf => by rw [hsymbol, hpush.type a (findIn_eq_some hf).1]⟩
  by_cases hc : c = globalId
  · subst hc
    rw [hr.findIn_global, h.findIn_global, s.lookup_declareSpace_of_ne (hne rfl)]
  · refine Untouched.findIn_eq ⟨?_, fun a ha => ?_, fun a ha => ?_⟩ name
    · rw [ht', scope_modifyScope_of_ne hc, scope_pushSymbol]
    · rw [hsymbol, hpush.name a ha]
    · rw [hsymbol, hpush.type a ha]

theorem removeFromGlobal {s : ScopeStack} (h : t.Refines s) {other : String}
    (hne : c = globalId → other ≠ name) : SameBinding t (t.removeFromGlobal other).1 c name := by
  have hr := h.removeFromGlobal other
  have hsymbol : ∀ a, (t.removeFromGlobal other).1.symbol a = t.symbol a := by
    intro a
    unfold Table.removeFromGlobal
    dsimp only
    split <;> rfl
  refine ⟨?_, fun a _ => by rw [hsymbol]⟩
  by_cases hc : c = globalId
  · subst hc
    rw [hr.findIn_global, h.findIn_global, s.lookup_remove_of_ne (hne rfl)]
  · refine Untouched.findIn_eq ⟨?_, fun a _ => by rw [hsymbol], fun a _ => by rw [hsymbol]⟩ name
    unfold Table.removeFromGlobal
    dsimp only
    split
    · rw [scope_modifyScope_of_ne hc]
    · rfl

theorem apply {s : ScopeStack} (h : t.Refines s) (hlt : c < t.scopes.size) (hc : c ≠ t.current)
    {op : Operation} (hop : c = globalId → ¬ op.reachesGlobal name) :
    SameBinding t (t.apply op) c name := by
  have hw := h.wellFormed
  cases op with
  | pushScope => exact of_untouched (.openScope hlt) name
  | pushFrame => exact of_untouched (.openScope hlt) name
  | popScope => exact of_untouched (.popScope t c) name
  | add other type kind => exact of_untouched (.add hw hc other type kind) name
  | addQualified other type kind q =>
    exact of_untouched (.addQualified hw hc other type kind q) name
  | addFunction other type modifier declared =>
    exact of_untouched (.addFunction hw hc other type modifier declared) name
  | addNamespace other =>
    exact addNamespace h fun hg heq => hop hg (by simpa [Operation.reachesGlobal] using heq)
  | addToNamespace space other type =>
    exact of_answer (P := fun t' => SameBinding t t' c name) (.refl t c name) fun _ _ ha =>
      of_untouched (.addToNamespace hw ha c) name
  | addFunctionToNamespace space other type modifier declared =>
    exact of_answer (P := fun t' => SameBinding t t' c name) (.refl t c name) fun _ _ ha =>
      of_untouched (.addFunctionToNamespace hw ha c) name
  | removeFromGlobal other =>
    exact removeFromGlobal h fun hg heq => hop hg (by simpa [Operation.reachesGlobal] using heq)

end SameBinding

/-! ### Balanced operations -/

/-- An operation that does not leave the scope `new` ends with keeps the scopes further out. -/
theorem inner_apply {t : Table} {new outer : List ScopeId} {d d' : Nat} {op : Operation}
    (hi : t.inner = new ++ outer) (hlen : new.length = d + 1) (hd : op.depthAfter d = some d') :
    ∃ new', (t.apply op).inner = new' ++ outer ∧ new'.length = d' + 1 := by
  -- all but two operations leave the open scopes as they are
  have hkept : ∀ t' : Table, t'.inner = t.inner → ∀ {e}, some d = some e →
      ∃ new', t'.inner = new' ++ outer ∧ new'.length = e + 1 := by
    rintro t' ht' e ⟨⟩
    exact ⟨new, ht'.trans hi, hlen⟩
  cases op with
  | pushScope | pushFrame =>
    cases hd
    refine ⟨t.scopes.size :: new, ?_, by simp [hlen]⟩
    rw [List.cons_append, ← hi]
    rfl
  | popScope =>
    simp only [Operation.depthAfter] at hd
    split at hd
    · cases hd
    · next hne =>
      cases hd
      obtain ⟨x, rest, rfl⟩ := List.exists_cons_of_length_pos (l := new) (by omega)
      refine ⟨rest, ?_, by simp at hlen; omega⟩
      show t.popScope.inner = _
      rw [inner_popScope, hi, List.cons_append, List.tail_cons]
  | add name type kind => exact hkept _ (inner_add ..) hd
  | addQualified name type kind q => exact hkept _ (inner_addQualified ..) hd
  | addFunction name type modifier declared => exact hkept _ (inner_add ..) hd
  | addNamespace name =>
    refine hkept _ (of_answer (P := fun t' => t'.inner = t.inner) rfl fun t' _ ha => ?_) hd
    obtain ⟨-, -, ht'⟩ := addNamespace_eq_some ha
    rw [ht', inner_modifyScope, inner_pushSymbol]
  | addToNamespace space name type =>
    exact hkept _ (of_answer (P := fun t' => t'.inner = t.inner) rfl fun _ _ ha =>
      (addToNamespace_eq_some ha).1) hd
  | addFunctionToNamespace space name type modifier declared =>
    exact hkept _ (of_answer (P := fun t' => t'.inner = t.inner) rfl fun _ _ ha =>
      (addFunctionToNamespace_eq_some ha).1) hd
  | removeFromGlobal name =>
    refine hkept _ ?_ hd
    show (t.removeFromGlobal name).1.inner = t.inner
    unfold Table.removeFromGlobal
    dsimp only
    split <;> rfl

/-- Balanced operations in an inner scope keep what names stand for in the scopes around it. -/
theorem sameBinding_run {t : Table} {s : ScopeStack} (h : t.Refines s) {new outer : List ScopeId}
    {d : Nat} {ops : List Operation} (hi : t.inner = new ++ outer) (hlen : new.length = d + 1)
    (hops : Operation.balanced d ops) :
    (∃ c, (t.run ops).inner = c :: outer) ∧
      ∀ c ∈ outer ++ [globalId], ∀ name,
        (c = globalId → ∀ op ∈ ops, ¬ op.reachesGlobal name) →
          SameBinding t (t.run ops) c name := by
  induction ops generalizing t s new d with
  | nil =>
    have hd : d = 0 := by simpa [Operation.balanced] using hops
    obtain ⟨c, rfl⟩ := List.length_eq_one_iff.1 (hd ▸ hlen)
    exact ⟨⟨c, hi⟩, fun c _ name _ => .refl t c name⟩
  | cons op ops ih =>
    unfold Operation.balanced at hops
    cases hd : op.depthAfter d with
    | none => simp [hd] at hops
    | some d' =>
      rw [hd] at hops
      obtain ⟨new', hi', hlen'⟩ := inner_apply hi hlen hd
      obtain ⟨hinner, hrest⟩ := ih (h.apply op) hi' hlen' hops
      refine ⟨hinner, fun c hc name hname => ?_⟩
      -- the scope lies around the current one
      obtain ⟨x, others, rfl⟩ := List.exists_cons_of_length_pos (l := new) (by omega)
      have htail : c ∈ t.open_.tail := by
        rw [open_, hi, List.cons_append, List.cons_append, List.tail_cons, List.append_assoc]
        exact List.mem_append_right _ hc
      have hopen : c ∈ t.open_ := List.mem_of_mem_tail htail
      have hstep : SameBinding t (t.apply op) c name :=
        .apply h (h.wellFormed.open_lt hopen) (h.wellFormed.ne_current_of_mem_tail htail)
          fun hg => hname hg op List.mem_cons_self
      exact hstep.trans (hrest c hc name fun hg o ho => hname hg o (List.mem_cons_of_mem _ ho))

/-- What is around a scope that has been entered and left, with the given operations in between. -/
structure Restores (t : Table) (body : List Operation) (t' : Table) : Prop where
  /-- The same scopes are open. -/
  inner : t'.inner = t.inner
  /-- All names of the scopes other than the global one stand for the same symbols. -/
  scopes : ∀ c ∈ t.inner, ∀ name, SameBinding t t' c name
  /-- So do those of the global scope that no operation has reached. -/
  global : ∀ name, (∀ op ∈ body, ¬ op.reachesGlobal name) → SameBinding t t' globalId name

theorem Refines.restores {t : Table} {s : ScopeStack} (h : t.Refines s) {opening : Operation}
    (ho : opening = .pushScope ∨ opening = .pushFrame) {body : List Operation}
    (hb : Operation.balanced 0 body) :
    t.Restores body (t.run (opening :: body ++ [.popScope])) := by
  have hi : (t.apply opening).inner = [t.scopes.size] ++ t.inner := by
    rcases ho with rfl | rfl <;> rfl
  -- on entry, the scopes around are not touched
  have hin : ∀ c ∈ t.open_, ∀ name, SameBinding t (t.apply opening) c name := by
    intro c hc name
    have hopen : ∀ sc, SameBinding t (t.openScope sc) c name := fun sc =>
      .of_untouched (.openScope (h.wellFormed.open_lt hc)) name
    rcases ho with rfl | rfl
    · exact hopen _
    · exact hopen _
  obtain ⟨⟨c, hinner⟩, hbody⟩ := sameBinding_run (h.apply opening) hi rfl hb
  have hrun : t.run (opening :: body ++ [.popScope]) = ((t.apply opening).run body).popScope := by
    rw [List.cons_append, run_cons, run_append]
    rfl
  have hout : ∀ c ∈ t.open_, ∀ name, (c = globalId → ∀ op ∈ body, ¬ op.reachesGlobal name) →
      SameBinding t (t.run (opening :: body ++ [.popScope])) c name := by
    intro c hc name hname
    rw [hrun]
    exact ((hin c hc name).trans (hbody c hc name hname)).trans
      (.of_untouched (.popScope _ c) name)
  refine ⟨?_, fun c hc name => hout c (List.mem_append_left _ hc) name ?_, fun name hname =>
    hout globalId (List.mem_append_right _ (List.mem_singleton_self _)) name fun _ => hname⟩
  · rw [hrun, inner_popScope, hinner, List.tail_cons]
  · exact fun hg => absurd hg (h.wellFormed.ne_globalId hc)

/-- A table is a stack of finite maps.  Whatever is done to a new table, its answers are those of
the stack to which the same has been done, and a scope that is then entered and left gives back what
the names around it stood for. -/
theorem run_shows_stack (ops : List Operation) :
    (empty.run ops).Shows (ScopeStack.empty.run ops) ∧
      ∀ opening, opening = Operation.pushScope ∨ opening = .pushFrame → ∀ body : List Operation,
        Operation.balanced 0 body →
          (empty.run ops).Restores body (empty.run (ops ++ (opening :: body ++ [.popScope]))) := by
  have h := refines_empty.run ops
  refine ⟨h.shows, fun opening ho body hb => ?_⟩
  rw [run_append]
  exact h.restores ho hb

namespace Sample

/-- A variable and a namespace with a member. -/
def around : List Operation :=
  [.add "x" .int .global, .addNamespace "m", .addToNamespace "m" "f" .int]

/-- The variable is hidden twice, and a namespace is added meanwhile. -/
def shadows : List Operation :=
  [.add "x" .str .local_, .pushFrame, .add "x" .bool .param, .addNamespace "n", .popScope]

end Sample

/-- The variable is found again when the scope has been left. -/
theorem run_shows_stack_shadows :
    (empty.run (Sample.around ++ .pushScope :: Sample.shadows)).lookup "x" = some 3 ∧
      (empty.run Sample.around).Restores Sample.shadows
        (empty.run (Sample.around ++ (.pushScope :: Sample.shadows ++ [.popScope]))) ∧
      (empty.run (Sample.around ++ (.pushScope :: Sample.shadows ++ [.popScope]))).lookup "x" =
        some 0 :=
  ⟨by decide +kernel, (run_shows_stack Sample.around).2 .pushScope (.inl rfl) Sample.shadows rfl,
    by decide +kernel⟩

end Table

end ThreadRegions
