/-!
# Types

The types of the language, how they are written, and when a value of one type may stand where
another is wanted.

## Main Definitions

* `Qualifier`, `Modifier`: the marks on parameters, functions and blocks
* `Ty`: the types, with `Ty.text` as their spelling
* `Ty.agrees`: compatibility of two types
* `Ty.promote`: the wider of two number types

## Design Notes

Compatibility is not equality.  The type `nil` stands for one that is not known and is compatible
with every type, and `int` and `byte` are compatible with each other; so compatibility is reflexive
and symmetric, but `int` agrees with `nil` and `nil` with `str` while `int` does not agree with
`str`.
-/

namespace ThreadRegions

/-- How a variable or a parameter holds its value. -/
inductive Qualifier where
  | default
  /-- Written `as val`: a copy. -/
  | asVal
  /-- Written `as ref`: a reference. -/
  | asRef
  deriving DecidableEq, Repr, Inhabited

/-- The spelling of a qualifier. -/
def Qualifier.text : Qualifier → String
  | default => "default"
  | asVal => "as val"
  | asRef => "as ref"

/-- Which memory region a function or a block works in. -/
inductive Modifier where
  | default
  /-- Written `shared`: the region around it. -/
  | shared
  /-- Written `private`: a region of its own. -/
  | isolated
  deriving DecidableEq, Repr, Inhabited

/-- The spelling of a modifier. -/
def Modifier.text : Modifier → String
  | default => "default"
  | shared => "shared"
  | isolated => "private"

/-- The types of the language. -/
inductive Ty where
  | int
  | long
  | double
  | char
  | str
  | bool
  | byte
  | void
  /-- A type that is not known, such as that of the elements of an empty array literal. -/
  | nil
  /-- The type of a parameter that takes every printable value. -/
  | any
  | array (element : Ty)
  /-- A function.  The list of qualifiers is there only if some parameter has one. -/
  | fn (params : List Ty) (quals : Option (List Qualifier)) (ret : Ty) (variadic : Bool)
  deriving Repr, Inhabited

namespace Ty

mutual

/-- Whether two types are the same, qualifiers included. -/
def same : Ty → Ty → Bool
  | int, int => true
  | long, long => true
  | double, double => true
  | char, char => true
  | str, str => true
  | bool, bool => true
  | byte, byte => true
  | void, void => true
  | nil, nil => true
  | any, any => true
  | array a, array b => same a b
  | fn ps qs r v, fn ps' qs' r' v' => sameList ps ps' && qs == qs' && same r r' && v == v'
  | _, _ => false

/-- Whether two lists hold the same types. -/
def sameList : List Ty → List Ty → Bool
  | [], [] => true
  | a :: as, b :: bs => same a b && sameList as bs
  | _, _ => false

end

mutual

theorem eq_of_same {a b : Ty} (h : same a b = true) : a = b := by
  match a, b with
  | int, int | long, long | double, double | char, char | str, str | bool, bool | byte, byte
  | void, void | nil, nil | any, any => rfl
  | array a, array b => rw [eq_of_same (a := a) (b := b) (by simpa [same] using h)]
  | fn ps qs r v, fn ps' qs' r' v' =>
    simp only [same, Bool.and_eq_true, beq_iff_eq] at h
    -- qualifiers and the variable number of parameters are compared as they are
    obtain ⟨⟨⟨hps, rfl⟩, hr⟩, rfl⟩ := h
    rw [eq_of_sameList hps, eq_of_same hr]

theorem eq_of_sameList {as bs : List Ty} (h : sameList as bs = true) : as = bs := by
  match as, bs with
  | [], [] => rfl
  | a :: as, b :: bs =>
    simp only [sameList, Bool.and_eq_true] at h
    rw [eq_of_same h.1, eq_of_sameList h.2]

end

mutual

theorem same_refl (a : Ty) : same a a = true := by
  match a with
  | int | long | double | char | str | bool | byte | void | nil | any => rfl
  | array a => simpa [same] using same_refl a
  | fn ps qs r v => simp [same, sameList_refl ps, same_refl r]

theorem sameList_refl (as : List Ty) : sameList as as = true := by
  match as with
  | [] => rfl
  | a :: as => simp [sameList, same_refl a, sameList_refl as]

end

instance : DecidableEq Ty := fun a b =>
  decidable_of_iff (same a b = true) ⟨eq_of_same, fun h => h ▸ same_refl a⟩

/-- An ordinary function type. -/
def function (ret : Ty) (params : List Ty) : Ty := .fn params none ret false

/-- The qualifiers of a parameter list, if any of them says something. -/
def qualifiersOf (quals : List Qualifier) : Option (List Qualifier) :=
  if quals.any (· ≠ .default) then some quals else none

/-- The qualifier of the parameter at `index`. -/
def qualifierAt (quals : Option (List Qualifier)) (index : Nat) : Qualifier :=
  ((quals.getD [])[index]?).getD .default

/-- What is written after a parameter type for its qualifier. -/
def qualifierSuffix : Qualifier → String
  | .default => ""
  | .asVal => " as val"
  | .asRef => " as ref"

mutual

/-- The spelling of a type. -/
def text : Ty → String
  | int => "int"
  | long => "long"
  | double => "double"
  | char => "char"
  | str => "str"
  | bool => "bool"
  | byte => "byte"
  | void => "void"
  | nil => "nil"
  | any => "any"
  | array element => element.text ++ "[]"
  | fn params quals ret _ => "fn(" ++ paramsText quals 0 params ++ "): " ++ ret.text

/-- The spelling of the parameters from number `index` on, separated by commas. -/
def paramsText (quals : Option (List Qualifier)) (index : Nat) : List Ty → String
  | [] => ""
  | param :: others =>
    (if index = 0 then "" else ", ") ++ param.text ++ qualifierSuffix (qualifierAt quals index) ++
      paramsText quals (index + 1) others

end

/-- Number of bytes of a value, before alignment. -/
def size : Ty → Nat
  | char | bool | byte => 1
  | _ => 8

/-- Values of a fixed size that are copied.  The type `void` is one of them, so that an isolated
function may return nothing. -/
def isPrimitive : Ty → Bool
  | int | long | double | char | bool | byte | void => true
  | _ => false

/-- Values that live in a memory region. -/
def isReference : Ty → Bool
  | str | array _ | fn .. => true
  | _ => false

/-- The number types that arithmetic widens to. -/
def isNumeric : Ty → Bool
  | int | long | double => true
  | _ => false

/-- The number types, bytes included. -/
def isNumber : Ty → Bool
  | int | long | double | byte => true
  | _ => false

/-- The number types without a fraction. -/
def isIntegral : Ty → Bool
  | int | long | byte => true
  | _ => false

/-- Values that can be printed. -/
def isPrintable : Ty → Bool
  | int | long | double | char | str | bool | byte | array _ => true
  | _ => false

/-- Values that may leave the region they were made in. -/
def canEscape (t : Ty) : Bool := t.isPrimitive

/-- Arrays and strings: what a thread can share with its starter. -/
def isHeap : Ty → Bool
  | str | array _ => true
  | _ => false

/-- The type of the elements of an array. -/
def element? : Ty → Option Ty
  | array element => some element
  | _ => none

/-- The type that is not known. -/
def isNil : Ty → Bool
  | nil => true
  | _ => false

mutual

/-- Whether a value of the one type may stand where the other is wanted. -/
def agrees : Ty → Ty → Bool
  | nil, _ => true
  | _, nil => true
  | int, byte => true
  | byte, int => true
  | array a, array b => agrees a b
  | fn ps _ r _, fn ps' _ r' _ => agrees r r' && agreesList ps ps'
  | int, int => true
  | long, long => true
  | double, double => true
  | char, char => true
  | str, str => true
  | bool, bool => true
  | byte, byte => true
  | void, void => true
  | any, any => true
  | _, _ => false

/-- Compatibility of two lists of the same length, type by type. -/
def agreesList : List Ty → List Ty → Bool
  | [], [] => true
  | a :: as, b :: bs => agrees a b && agreesList as bs
  | _, _ => false

end

/-- The type of an arithmetic result: the wider one of `int`, `long` and `double`. -/
def promote (a b : Ty) : Option Ty :=
  if a.agrees b then some a
  else if a.isNumeric && b.isNumeric then
    if a = .double ∨ b = .double then some .double
    else if a = .long ∨ b = .long then some .long
    else some a
  else none

end Ty

end ThreadRegions
