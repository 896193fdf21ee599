import ThreadRegions.Proofs.Fresh

/-!
# Types that can be read

Not every type can be written.  The grammar answers with types that have a name, without a variable
number of parameters, and with a list of qualifiers only if it says something.

## Main Definitions

* `Ty.parts`: the types that occur in a type
* `Ty.Readable`: types that the grammar can answer with
* `Ty.HasFunctionArray`: an array of functions occurs in the type

## Main Results

* `Grammar.readable_type`: the grammar answers with readable types only
-/

namespace ThreadRegions

namespace Ty

mutual

/-- The types that occur in a type, with the type itself. -/
def parts : Ty → List Ty
  | array element => array element :: element.parts
  | fn params quals ret variadic => fn params quals ret variadic :: (partsOf params ++ ret.parts)
  | t => [t]

/-- The types that occur in one of the given types. -/
def partsOf : List Ty → List Ty
  | [] => []
  | t :: ts => t.parts ++ partsOf ts

end

theorem mem_partsOf {s : Ty} {ts : List Ty} : s ∈ partsOf ts ↔ ∃ t ∈ ts, s ∈ t.parts := by
  induction ts with
  | nil => simp [partsOf]
  | cons t ts ih => simp [partsOf, ih]

theorem forall_mem_partsOf {p : Ty → Prop} {ts : List Ty} :
    (∀ s ∈ partsOf ts, p s) ↔ ∀ t ∈ ts, ∀ s ∈ t.parts, p s := by
  simp only [mem_partsOf]
  exact ⟨fun h t ht s hs => h s ⟨t, ht, hs⟩, fun h s ⟨t, ht, hs⟩ => h t ht s hs⟩

/-- Apart from its parts, the grammar can answer with the type: the type has a name, and it says
something about its parameters only if one of them has a qualifier. -/
def isPlain : Ty → Bool
  | nil | any => false
  | fn params quals _ variadic =>
    !variadic && quals.all fun qs => qs.length = params.length && qs.any (· ≠ .default)
  | _ => true

/-- The grammar can answer with the type. -/
def Readable (t : Ty) : Prop := ∀ s ∈ t.parts, s.isPlain

instance (t : Ty) : Decidable t.Readable :=
  inferInstanceAs (Decidable (∀ s ∈ t.parts, s.isPlain = true))

/-- An array has no text of its own that could go wrong. -/
@[simp] theorem readable_array {element : Ty} : (array element).Readable ↔ element.Readable := by
  simp [Readable, parts, isPlain]

@[simp] theorem readable_fn {params : List Ty} {quals : Option (List Qualifier)} {ret : Ty}
    {variadic : Bool} : (fn params quals ret variadic).Readable ↔
      (fn params quals ret variadic).isPlain ∧ (∀ p ∈ params, p.Readable) ∧ ret.Readable := by
  rw [Readable, parts, List.forall_mem_cons, List.forall_mem_append, forall_mem_partsOf]
  rfl

/-- What it means that a function is plain. -/
theorem isPlain_fn {params : List Ty} {quals : Option (List Qualifier)} {ret : Ty}
    {variadic : Bool} (h : (fn params quals ret variadic).isPlain) : variadic = false ∧
      ∀ qs, quals = some qs → qs.length = params.length ∧ qs.any (· ≠ .default) := by
  simp only [isPlain, Bool.and_eq_true, Bool.not_eq_true', Option.all_eq_true,
    decide_eq_true_eq] at h
  exact h

/-- The type is an array of functions. -/
def isFunctionArray : Ty → Bool
  | array (fn ..) => true
  | _ => false

/-- An array of functions occurs in the type. -/
def HasFunctionArray (t : Ty) : Prop := ∃ s ∈ t.parts, s.isFunctionArray

instance (t : Ty) : Decidable t.HasFunctionArray :=
  inferInstanceAs (Decidable (∃ s ∈ t.parts, s.isFunctionArray = true))

/-- An array of functions, or an array in the element. -/
@[simp] theorem hasFunctionArray_array {element : Ty} : (array element).HasFunctionArray ↔
    (array element).isFunctionArray ∨ element.HasFunctionArray := by
  simp [HasFunctionArray, parts]

/-- A function is no array itself. -/
@[simp] theorem hasFunctionArray_fn {params : List Ty} {quals : Option (List Qualifier)} {ret : Ty}
    {variadic : Bool} : (fn params quals ret variadic).HasFunctionArray ↔
      (∃ p ∈ params, p.HasFunctionArray) ∨ ret.HasFunctionArray := by
  have hhead : ¬ (fn params quals ret variadic).isFunctionArray := nofun
  simp only [HasFunctionArray, parts, List.mem_cons, List.mem_append, mem_partsOf]
  constructor
  · rintro ⟨s, rfl | ⟨p, hp, hs⟩ | hs, hf⟩
    · exact absurd hf hhead
    · exact .inl ⟨p, hp, s, hs, hf⟩
    · exact .inr ⟨s, hs, hf⟩
  · rintro (⟨p, hp, s, hs, hf⟩ | ⟨s, hs, hf⟩)
    · exact ⟨s, .inr (.inl ⟨p, hp, hs⟩), hf⟩
    · exact ⟨s, .inr (.inr hs), hf⟩

end Ty

namespace Grammar

open Step

theorem readable_builtinType (c : Cursor) : (builtinType c).Yields Ty.Readable := by
  unfold builtinType
  split
  · exact yields_fail _
  · split
    · next ty hty =>
      show ty.Readable
      unfold Ty.ofKind? at hty
      split at hty <;> cases hty <;> decide
    · trivial

theorem readable_arrayType {element : Ty} (h : element.Readable) (c : Cursor) :
    (arrayType element c).Yields Ty.Readable :=
  yields_andThen fun _ _ _ => yields_map fun _ => Ty.readable_array.2 h

/-- Brackets make arrays of what stands before them. -/
theorem readable_typeSuffixes (tables : Tables) (bp : BindingPower) {left : Ty}
    (h : left.Readable) (c : Cursor) : (typeSuffixes tables bp left c).Yields Ty.Readable := by
  rw [typeSuffixes]
  split
  · exact yields_pure h
  · exact ((readable_arrayType h c).andThen fun left rest _ hleft =>
      readable_typeSuffixes tables bp hleft rest).any
termination_by c.remaining

/-- A list of qualifiers is there only if it says something. -/
theorem isPlain_fn_qualifiersOf (params : List (Ty × Qualifier)) (ret : Ty) :
    (Ty.fn (params.map Prod.fst) (Ty.qualifiersOf (params.map Prod.snd)) ret false).isPlain := by
  unfold Ty.qualifiersOf
  split
  · next hany => simpa [Ty.isPlain] using hany
  · rfl

mutual

/-- The grammar answers with readable types only. -/
theorem readable_type (tables : Tables) (bp : BindingPower) (c : Cursor) :
    (type tables bp c).Yields Ty.Readable := by
  rw [type]
  exact (readable_startType tables c).andThen fun left rest _ hleft =>
    readable_typeSuffixes tables bp hleft rest
termination_by 4 * c.remaining + 2

/-- A type begins with a word or is that of a function.  A name is refused. -/
theorem readable_startType (tables : Tables) (c : Cursor) :
    (startType tables c).Yields Ty.Readable := by
  rw [startType]
  split
  · exact yields_fail _
  · exact readable_builtinType c
  · exact yields_andThen fun _ _ _ => yields_fail _
  · exact readable_functionType tables c
termination_by 4 * c.remaining + 1

/-- The result of a function is `void` if none is given. -/
theorem readable_functionType (tables : Tables) (c : Cursor) :
    (functionType tables c).Yields Ty.Readable := by
  rw [functionType]
  refine yields_read rfl fun _ rest _ hrest => ?_
  refine yields_read rfl fun _ rest _ hrest' => ?_
  refine (readable_parameterTypes tables rest).andThen fun params rest _ hparams => ?_
  -- whatever the result is, the function is put together in the same way
  have hmake (ret : Ty) (hret : ret.Readable) : (Ty.fn (params.map Prod.fst)
      (Ty.qualifiersOf (params.map Prod.snd)) ret false).Readable :=
    Ty.readable_fn.2 ⟨isPlain_fn_qualifiersOf params ret, List.forall_mem_map.2 hparams, hret⟩
  refine yields_andThen fun _ rest _ => yields_andThen fun found rest _ => ?_
  dsimp only
  split
  · exact ((readable_type tables .default rest).map hmake).any
  · exact yields_pure (hmake .void (by decide))
termination_by 4 * c.remaining

theorem readable_parameterTypes (tables : Tables) (c : Cursor) :
    (parameterTypes tables c).Yields fun params => ∀ p ∈ params, p.1.Readable := by
  rw [parameterTypes]
  split
  · exact yields_pure nofun
  · refine ((readable_type tables .default c).andThen fun param rest _ hparam => ?_).any
    refine yields_andThen fun q rest _ => yields_andThen fun more rest _ => ?_
    split
    · exact (readable_parameterTypes tables rest).map fun _ hparams =>
        List.forall_mem_cons.2 ⟨hparam, hparams⟩
    · exact yields_pure (List.forall_mem_singleton.2 hparam)
termination_by 4 * c.remaining + 3

end

end Grammar

end ThreadRegions
