import Mathlib.Data.List.Forall2
import ThreadRegions.Proofs.ReadableType

/-!
# Compatible types and their common instances

Compatibility of types is no equivalence: the type `nil` is compatible with every type.  A type that
is not known in all its parts stands for all types that it could turn out to be, its instances, and
two types are compatible if they could turn out to be the same.

## Main Definitions

* `Ty.NilFree`: all parts of a type are known
* `Ty.Matches`: a type could turn out to be another one
* `Ty.settled`: an instance of a type

## Main Results

* `Ty.agrees_iff_common_instance`: two types are compatible if they have a common instance
* `Ty.agrees_of_nilFree`: types that are compatible with a type all parts of which are known are
  compatible with each other

## Design Notes

A byte turns out to be an integer.  So the two have the instance `int` in common, and a type that is
known has one instance, apart from the qualifiers of functions.
-/

namespace ThreadRegions

namespace Ty

/-! ### Instances -/

/-- Neither an array nor a function. -/
def isSimple : Ty → Bool
  | array _ | fn .. => false
  | _ => true

/-- No part of the type is unknown. -/
def NilFree (t : Ty) : Prop := nil ∉ t.parts

instance (t : Ty) : Decidable t.NilFree := inferInstanceAs (Decidable (nil ∉ t.parts))

/-- The type on the left can turn out to be the type on the right.  An unknown type can turn out to
be any type, and a byte is taken for an integer.  Qualifiers and a variable number of parameters
make no difference. -/
inductive Matches : Ty → Ty → Prop
  | nil (c : Ty) : Matches .nil c
  | byte : Matches .byte .int
  | simple {t : Ty} : t.isSimple → t ≠ .nil → t ≠ .byte → Matches t t
  | array {t c : Ty} : Matches t c → Matches (.array t) (.array c)
  | fn {params cs : List Ty} {quals quals' : Option (List Qualifier)} {ret c : Ty}
      {variadic variadic' : Bool} :
      List.Forall₂ Matches params cs → Matches ret c →
        Matches (.fn params quals ret variadic) (.fn cs quals' c variadic')

/-- Induction over the arrays and functions that a type is made of. -/
@[elab_as_elim]
theorem inductParts {motive : Ty → Prop} (simple : ∀ t, t.isSimple → motive t)
    (array : ∀ element, motive element → motive (.array element))
    (fn : ∀ params quals ret variadic, (∀ p ∈ params, motive p) → motive ret →
      motive (.fn params quals ret variadic)) (t : Ty) : motive t := by
  refine @Ty.rec motive (fun ts => ∀ t ∈ ts, motive t) ?_ ?_ ?_ ?_ ?_ ?_ ?_ ?_ ?_ ?_ array fn
    (fun t ht => absurd ht List.not_mem_nil) (fun _ _ ht hts => List.forall_mem_cons.2 ⟨ht, hts⟩) t
  all_goals exact simple _ rfl

/-! ### Types that match and types that are matched -/

namespace Matches

variable {a c t ret : Ty} {params cs : List Ty} {quals : Option (List Qualifier)} {variadic : Bool}

/-- What can turn out to be a type without parts. -/
theorem simple_right (h : a.Matches c) (hc : c.isSimple) :
    a = .nil ∨ a = c ∨ a = .byte ∧ c = .int := by
  cases h with
  | nil => exact .inl rfl
  | byte => exact .inr (.inr ⟨rfl, rfl⟩)
  | simple => exact .inr (.inl rfl)
  | array | fn => cases hc

/-- What can turn out to be an array. -/
theorem array_right (h : a.Matches (.array c)) :
    a = .nil ∨ ∃ t : Ty, a = .array t ∧ t.Matches c := by
  cases h with
  | nil => exact .inl rfl
  | simple h => cases h
  | array h => exact .inr ⟨_, rfl, h⟩

/-- What can turn out to be a function. -/
theorem fn_right (h : a.Matches (.fn cs quals c variadic)) :
    a = .nil ∨ ∃ params quals' ret variadic', a = .fn params quals' ret variadic' ∧
      List.Forall₂ Matches params cs ∧ ret.Matches c := by
  cases h with
  | nil => exact .inl rfl
  | simple h => cases h
  | fn hps hr => exact .inr ⟨_, _, _, _, rfl, hps, hr⟩

/-- An array turns out to be an array. -/
theorem array_left (h : (Ty.array t).Matches c) : ∃ c' : Ty, c = .array c' ∧ t.Matches c' := by
  cases h with
  | simple h => cases h
  | array h => exact ⟨_, rfl, h⟩

/-- A function turns out to be a function. -/
theorem fn_left (h : (Ty.fn params quals ret variadic).Matches c) :
    ∃ cs quals' c' variadic', c = .fn cs quals' c' variadic' ∧ List.Forall₂ Matches params cs ∧
      ret.Matches c' := by
  cases h with
  | simple h => cases h
  | fn hps hr => exact ⟨_, _, _, _, rfl, hps, hr⟩

end Matches

/-! ### An instance for every type -/

@[simp] theorem nilFree_array {element : Ty} : (array element).NilFree ↔ element.NilFree := by
  simp [NilFree, parts]

@[simp] theorem nilFree_fn {params : List Ty} {quals : Option (List Qualifier)} {ret : Ty}
    {variadic : Bool} :
    (fn params quals ret variadic).NilFree ↔ (∀ p ∈ params, p.NilFree) ∧ ret.NilFree := by
  simp [NilFree, parts, mem_partsOf]

mutual

/-- An instance of a type, with integers for what is not known. -/
def settled : Ty → Ty
  | nil | byte => int
  | array element => array element.settled
  | fn params quals ret variadic => fn (settledAll params) quals ret.settled variadic
  | t => t

/-- An instance of each of the given types. -/
def settledAll : List Ty → List Ty
  | [] => []
  | t :: ts => t.settled :: settledAll ts

end

theorem settledAll_eq_map (ts : List Ty) : settledAll ts = ts.map settled := by
  induction ts with
  | nil => rfl
  | cons t ts ih => rw [settledAll, ih, List.map_cons]

/-- A known type without parts is its own instance, unless it is a byte. -/
theorem settled_eq_self {t : Ty} (h : t.isSimple) (hnil : t ≠ nil) (hbyte : t ≠ byte) :
    t.settled = t := by
  cases t with
  | array | fn => cases h
  | nil => exact absurd rfl hnil
  | byte => exact absurd rfl hbyte
  | _ => rfl

/-- In an instance, all parts are known. -/
theorem nilFree_settled (t : Ty) : t.settled.NilFree := by
  induction t using inductParts with
  | simple t h =>
    cases t with
    | array | fn => cases h
    | _ => decide
  | array element ih => exact nilFree_array.2 ih
  | fn params quals ret variadic hparams hret =>
    refine nilFree_fn.2 ⟨?_, hret⟩
    rw [settledAll_eq_map]
    exact List.forall_mem_map.2 hparams

/-- Every type can turn out to be its instance. -/
theorem matches_settled (t : Ty) : t.Matches t.settled := by
  induction t using inductParts with
  | simple t h =>
    cases t with
    | array | fn => cases h
    | nil => exact .nil _
    | byte => exact .byte
    | _ => exact .simple rfl (by decide) (by decide)
  | array element ih => exact .array ih
  | fn params quals ret variadic hparams hret =>
    refine .fn ?_ hret
    rw [settledAll_eq_map, List.forall₂_map_right_iff]
    exact List.forall₂_same.2 hparams

/-! ### Common instances -/

theorem agreesList_iff {as bs : List Ty} :
    agreesList as bs = true ↔ List.Forall₂ (fun a b => a.agrees b = true) as bs := by
  induction as generalizing bs with
  | nil => cases bs <;> simp [agreesList]
  | cons a as ih => cases bs <;> simp [agreesList, ih]

theorem agrees_nil (a : Ty) : a.agrees nil = true := by
  cases a <;> rfl

/-- Two compatible types that are known have the same instance, unless they have parts. -/
theorem settled_eq_of_agrees {a b : Ty} (h : a.agrees b = true) (ha : a.isSimple) (hna : a ≠ nil)
    (hnb : b ≠ nil) : a.settled = b.settled := by
  cases a <;> cases b <;> simp_all [agrees, settled, isSimple]

/-- Types that are compatible one by one have common instances. -/
theorem exists_instances {as bs : List Ty}
    (ih : ∀ a ∈ as, ∀ b : Ty, a.agrees b = true → ∃ c : Ty, c.NilFree ∧ a.Matches c ∧ b.Matches c)
    (h : List.Forall₂ (fun a b => a.agrees b = true) as bs) :
    ∃ cs : List Ty, (∀ c ∈ cs, c.NilFree) ∧ List.Forall₂ Matches as cs ∧
      List.Forall₂ Matches bs cs := by
  induction h with
  | nil => exact ⟨[], by simp, .nil, .nil⟩
  | cons hab _ ihs =>
    obtain ⟨hfirst, hothers⟩ := List.forall_mem_cons.1 ih
    obtain ⟨c, hc, hac, hbc⟩ := hfirst _ hab
    obtain ⟨cs, hcs, has, hbs⟩ := ihs hothers
    exact ⟨c :: cs, List.forall_mem_cons.2 ⟨hc, hcs⟩, .cons hac has, .cons hbc hbs⟩

/-- Compatible types have a common instance. -/
theorem exists_instance (a : Ty) : ∀ b : Ty, a.agrees b = true →
    ∃ c : Ty, c.NilFree ∧ a.Matches c ∧ b.Matches c := by
  induction a using inductParts with
  | simple a ha =>
    intro b h
    -- an unknown type takes any instance of the other one
    by_cases hna : a = nil
    · subst hna
      exact ⟨b.settled, b.nilFree_settled, .nil _, b.matches_settled⟩
    by_cases hnb : b = nil
    · subst hnb
      exact ⟨a.settled, a.nilFree_settled, a.matches_settled, .nil _⟩
    refine ⟨a.settled, a.nilFree_settled, a.matches_settled, ?_⟩
    rw [settled_eq_of_agrees h ha hna hnb]
    exact b.matches_settled
  | array element ih =>
    intro b h
    cases b with
    | nil => exact ⟨_, nilFree_settled _, matches_settled _, .nil _⟩
    | array other =>
      obtain ⟨c, hc, hac, hbc⟩ := ih other h
      exact ⟨.array c, nilFree_array.2 hc, .array hac, .array hbc⟩
    | _ => cases h
  | fn params quals ret variadic hparams hret =>
    intro b h
    cases b with
    | nil => exact ⟨_, nilFree_settled _, matches_settled _, .nil _⟩
    | fn params' quals' ret' variadic' =>
      obtain ⟨hr, hps⟩ := Bool.and_eq_true_iff.1 h
      obtain ⟨c, hc, hac, hbc⟩ := hret ret' hr
      obtain ⟨cs, hcs, has, hbs⟩ := exists_instances hparams (agreesList_iff.1 hps)
      -- any qualifiers would do
      exact ⟨.fn cs none c false, nilFree_fn.2 ⟨hcs, hc⟩, .fn has hac, .fn hbs hbc⟩
    | _ => cases h

theorem agrees_self_of_isSimple {t : Ty} (h : t.isSimple) : t.agrees t = true := by
  cases t with
  | array | fn => cases h
  | _ => rfl

/-- Types that match the same types one by one are compatible one by one. -/
theorem forall₂_agrees_of_matches {as bs cs : List Ty}
    (ih : ∀ c ∈ cs, ∀ a b : Ty, a.Matches c → b.Matches c → a.agrees b = true)
    (has : List.Forall₂ Matches as cs) (hbs : List.Forall₂ Matches bs cs) :
    List.Forall₂ (fun a b => a.agrees b = true) as bs := by
  induction has generalizing bs with
  | nil =>
    cases hbs
    exact .nil
  | cons hac _ ihs =>
    obtain ⟨hfirst, hothers⟩ := List.forall_mem_cons.1 ih
    cases hbs with
    | cons hbc hbs => exact .cons (hfirst _ _ hac hbc) (ihs hothers hbs)

/-- Types with a common instance are compatible. -/
theorem agrees_of_matches (c : Ty) : ∀ a b : Ty, a.Matches c → b.Matches c → a.agrees b = true := by
  induction c using inductParts with
  | simple c hc =>
    intro a b ha hb
    -- each of the two is unknown, the type itself, or a byte for an integer
    obtain rfl | rfl | ⟨rfl, rfl⟩ := ha.simple_right hc
    · rfl
    · obtain rfl | rfl | ⟨rfl, rfl⟩ := hb.simple_right hc
      · exact agrees_nil _
      · exact agrees_self_of_isSimple hc
      · rfl
    · obtain rfl | rfl | ⟨rfl, -⟩ := hb.simple_right hc <;> rfl
  | array element ih =>
    intro a b ha hb
    obtain rfl | ⟨t, rfl, ht⟩ := ha.array_right
    · rfl
    obtain rfl | ⟨u, rfl, hu⟩ := hb.array_right
    · rfl
    rw [agrees]
    exact ih t u ht hu
  | fn cs quals c variadic hcs hc =>
    intro a b ha hb
    obtain rfl | ⟨ps, _, r, _, rfl, hps, hr⟩ := ha.fn_right
    · rfl
    obtain rfl | ⟨ps', _, r', _, rfl, hps', hr'⟩ := hb.fn_right
    · rfl
    rw [agrees, Bool.and_eq_true, agreesList_iff]
    exact ⟨hc r r' hr hr', forall₂_agrees_of_matches hcs hps hps'⟩

/-- Two types are compatible if there is one that both could turn out to be. -/
theorem agrees_iff {a b : Ty} :
    a.agrees b = true ↔ ∃ c : Ty, c.NilFree ∧ a.Matches c ∧ b.Matches c := by
  constructor
  · exact exists_instance a b
  · rintro ⟨c, -, ha, hb⟩
    exact agrees_of_matches c a b ha hb

theorem agrees_self (a : Ty) : a.agrees a = true :=
  agrees_iff.2 ⟨a.settled, a.nilFree_settled, a.matches_settled, a.matches_settled⟩

theorem agrees_comm (a b : Ty) : a.agrees b = b.agrees a := by
  rw [Bool.eq_iff_iff, agrees_iff, agrees_iff]
  exact exists_congr fun c => and_congr_right fun _ => and_comm

/-- Two types are compatible exactly if there is a type without unknown parts that both could turn
out to be.  Every type is compatible with itself, and the order of the two makes no difference. -/
theorem agrees_iff_common_instance :
    (∀ a b : Ty, a.agrees b = true ↔ ∃ c : Ty, c.NilFree ∧ a.Matches c ∧ b.Matches c) ∧
      (∀ a : Ty, a.agrees a = true) ∧ ∀ a b : Ty, a.agrees b = b.agrees a :=
  ⟨fun _ _ => agrees_iff, agrees_self, agrees_comm⟩

/-- Compatibility does not go from one type to the next. -/
example : int.agrees nil ∧ nil.agrees str ∧ ¬ int.agrees str := by decide

/-! ### Types all parts of which are known -/

/-- A known type without parts has one instance. -/
theorem Matches.simple_left {t c : Ty} (h : t.Matches c) (ht : t.isSimple) (hknown : t.NilFree) :
    c = t.settled := by
  cases h with
  | nil => exact absurd hknown (by decide)
  | byte => rfl
  | simple _ hnil hbyte => exact (settled_eq_self ht hnil hbyte).symm
  | array | fn => cases ht

/-- Whatever matches one instance of each of some known types matches the others as well. -/
theorem forall₂_matches_of_nilFree {fs as cs ds : List Ty}
    (ih : ∀ f ∈ fs, f.NilFree → ∀ a c d : Ty, f.Matches c → f.Matches d → a.Matches c → a.Matches d)
    (hf : ∀ f ∈ fs, f.NilFree) (hc : List.Forall₂ Matches fs cs) (hd : List.Forall₂ Matches fs ds)
    (ha : List.Forall₂ Matches as cs) : List.Forall₂ Matches as ds := by
  induction hc generalizing as ds with
  | nil =>
    cases hd
    cases ha
    exact .nil
  | cons hfc _ ihs =>
    obtain ⟨hfirst, hothers⟩ := List.forall_mem_cons.1 ih
    obtain ⟨hknown, hrest⟩ := List.forall_mem_cons.1 hf
    cases hd with
    | cons hfd hd =>
      cases ha with
      | cons hac ha => exact .cons (hfirst hknown _ _ _ hfc hfd hac) (ihs hothers hrest hd ha)

/-- A known type has one instance only, apart from what makes no difference: whatever matches one of
its instances matches all of them. -/
theorem matches_of_nilFree (f : Ty) : f.NilFree → ∀ a c d : Ty, f.Matches c → f.Matches d →
    a.Matches c → a.Matches d := by
  induction f using inductParts with
  | simple f hf =>
    intro hknown a c d hc hd ha
    rwa [hd.simple_left hf hknown, ← hc.simple_left hf hknown]
  | array element ih =>
    intro hknown a c d hc hd ha
    obtain ⟨c', rfl, hc'⟩ := hc.array_left
    obtain ⟨d', rfl, hd'⟩ := hd.array_left
    obtain rfl | ⟨t, rfl, ht⟩ := ha.array_right
    · exact .nil _
    · exact .array (ih (nilFree_array.1 hknown) t c' d' hc' hd' ht)
  | fn params quals ret variadic hparams hret =>
    intro hknown a c d hc hd ha
    obtain ⟨hps, hr⟩ := nilFree_fn.1 hknown
    obtain ⟨cs, _, c', _, rfl, hcs, hc'⟩ := hc.fn_left
    obtain ⟨ds, _, d', _, rfl, hds, hd'⟩ := hd.fn_left
    obtain rfl | ⟨as, _, r, _, rfl, has, ha'⟩ := ha.fn_right
    · exact .nil _
    · exact .fn (forall₂_matches_of_nilFree hparams hps hcs hds has) (hret hr r c' d' hc' hd' ha')

/-- Types that are compatible with a known type are compatible with each other. -/
theorem agrees_of_nilFree {f a b : Ty} (hf : f.NilFree) (ha : f.agrees a = true)
    (hb : f.agrees b = true) : a.agrees b = true := by
  obtain ⟨c, -, hfc, hac⟩ := agrees_iff.1 ha
  obtain ⟨d, hd, hfd, hbd⟩ := agrees_iff.1 hb
  -- both `c` and `d` are instances of the known type, so `a` matches `d` as well
  exact agrees_iff.2 ⟨d, hd, matches_of_nilFree f hf a c d hfc hfd hac, hbd⟩

end Ty

end ThreadRegions
