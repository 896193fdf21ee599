import Mathlib.Data.List.Induction
import Mathlib.Order.Bounds.Defs
import ThreadRegions.Text.EditDistance

/-!
# The nearest name

For a misspelt name the checker suggests the nearest of the names that it knows.  The distance of
two words is worked out row by row; what it means is the least number of letters that have to be put
in, taken out or replaced to get from one word to the other.

## Main Definitions

* `Edit`, `Edits`: a change of one letter, and several of them one after the other
* `FirstNearest`: the first of the nearest among some candidates
* `nearestAmong`: the search for it, with any condition on the candidates
* `InReach`, `SimilarLength`: the conditions on a suggestion

## Main Results

* `editDistance_isLeast`: the distance is the least number of changes
* `closest_firstNearest`: the suggestion is the first of the nearest candidates

## Design Notes

That no shorter way exists is shown from the other end: a single change in one word changes its
distance to any other word by at most one (`Edit.editDistance_le`).  The bound by the difference of
the lengths comes from the changes as well, since each changes the length by at most one.
-/

namespace ThreadRegions

/-! ### Rows of distances -/

section

variable (a b : Char) (as bs : List Char)

/-- The rows for a longer word have one more entry in front. -/
theorem tail_distances : (distances (b :: bs) as).tail = distances bs as := by
  induction as with
  | nil => rfl
  | cons a as ih => rw [distances, distances, addLetter, List.tail_cons, ih]

/-- All letters have to be put in. -/
@[simp] theorem editDistance_nil_left : editDistance [] bs = bs.length := by
  cases bs <;> rfl

/-- All letters have to be taken out. -/
@[simp] theorem editDistance_nil_right : editDistance as [] = as.length := by
  induction as with
  | nil => rfl
  | cons a as ih => exact congrArg (· + 1) ih

/-- A letter in front of both words is left alone if it is the same.  Otherwise it is taken out, put
in or replaced, whichever is best. -/
theorem editDistance_cons_cons : editDistance (a :: as) (b :: bs) =
    if a = b then editDistance as bs
    else
      min (min (editDistance as (b :: bs)) (editDistance (a :: as) bs))
        (editDistance as bs) + 1 := by
  simp only [editDistance, distances, addLetter, List.headD_cons, tail_distances]

theorem editDistance_self : editDistance as as = 0 := by
  induction as with
  | nil => rfl
  | cons a as ih => rw [editDistance_cons_cons, if_pos rfl, ih]

end

/-- One letter more in front of either word changes their distance by at most one. -/
structure OneApart (as bs : List Char) (c : Char) : Prop where
  le_left : editDistance as bs ≤ editDistance (c :: as) bs + 1
  left_le : editDistance (c :: as) bs ≤ editDistance as bs + 1
  le_right : editDistance as bs ≤ editDistance as (c :: bs) + 1
  right_le : editDistance as (c :: bs) ≤ editDistance as bs + 1

section

variable {as bs : List Char}

/-- A letter more in front of the first word, if a letter is added to the second one. -/
theorem OneApart.left_cons (h : ∀ c, OneApart as bs c) (b c : Char) :
    editDistance as (b :: bs) ≤ editDistance (c :: as) (b :: bs) + 1 ∧
      editDistance (c :: as) (b :: bs) ≤ editDistance as (b :: bs) + 1 := by
  have hle := (h b).le_right
  have hge := (h b).right_le
  have hleft := (h c).le_left
  rw [editDistance_cons_cons]
  split <;> omega

/-- A letter more in front of the second word, if a letter is added to the first one. -/
theorem OneApart.right_cons (h : ∀ c, OneApart as bs c) (a c : Char) :
    editDistance (a :: as) bs ≤ editDistance (a :: as) (c :: bs) + 1 ∧
      editDistance (a :: as) (c :: bs) ≤ editDistance (a :: as) bs + 1 := by
  have hle := (h a).le_left
  have hge := (h a).left_le
  have hright := (h c).le_right
  rw [editDistance_cons_cons]
  split <;> omega

end

/-- What is said about one of the words needs what is said about the other for shorter words, so all
four bounds go through one induction. -/
theorem oneApart (as bs : List Char) : ∀ c, OneApart as bs c := by
  induction as generalizing bs with
  | nil =>
    induction bs with
    | nil => exact fun c => ⟨by simp, by simp, by simp, by simp⟩
    | cons b bs ih =>
      intro c
      obtain ⟨hle, hge⟩ := OneApart.left_cons ih b c
      exact ⟨hle, hge, by simp, by simp⟩
  | cons a as iha =>
    induction bs with
    | nil =>
      intro c
      obtain ⟨hle, hge⟩ := OneApart.right_cons (iha []) a c
      exact ⟨by simp, by simp, hle, hge⟩
    | cons b bs ihb =>
      intro c
      obtain ⟨hle, hge⟩ := OneApart.left_cons ihb b c
      obtain ⟨hle', hge'⟩ := OneApart.right_cons (iha (b :: bs)) a c
      exact ⟨hle, hge, hle', hge'⟩

/-! ### Changes of one letter -/

/-- One letter is put in, taken out or replaced. -/
inductive Edit : List Char → List Char → Prop
  | insert (front back : List Char) (c : Char) : Edit (front ++ back) (front ++ c :: back)
  | delete (front back : List Char) (c : Char) : Edit (front ++ c :: back) (front ++ back)
  | replace (front back : List Char) (c d : Char) : Edit (front ++ c :: back) (front ++ d :: back)

/-- So many changes of one letter lead from the one word to the other. -/
inductive Edits : Nat → List Char → List Char → Prop
  | none (as : List Char) : Edits 0 as as
  | more {n : Nat} {as bs cs : List Char} : Edit as bs → Edits n bs cs → Edits (n + 1) as cs

theorem Edit.cons {as bs : List Char} (c : Char) (h : Edit as bs) : Edit (c :: as) (c :: bs) := by
  cases h with
  | insert front back d => exact .insert (c :: front) back d
  | delete front back d => exact .delete (c :: front) back d
  | replace front back d e => exact .replace (c :: front) back d e

theorem Edits.cons {n : Nat} {as bs : List Char} (c : Char) (h : Edits n as bs) :
    Edits n (c :: as) (c :: bs) := by
  induction h with
  | none as => exact .none (c :: as)
  | more hedit _ ih => exact .more (hedit.cons c) ih

theorem Edits.insertAll (bs : List Char) : Edits bs.length [] bs := by
  induction bs with
  | nil => exact .none []
  | cons b bs ih => exact .more (.insert [] [] b) (ih.cons b)

theorem Edits.deleteAll (as : List Char) : Edits as.length as [] := by
  induction as with
  | nil => exact .none []
  | cons a as ih => exact .more (.delete [] as a) ih

theorem Edits.shorter {m n : Nat} {as bs : List Char} (hm : Edits (m + 1) as bs)
    (hn : Edits (n + 1) as bs) : Edits (min m n + 1) as bs := by
  rcases Nat.le_total m n with h | h
  · rwa [Nat.min_eq_left h]
  · rwa [Nat.min_eq_right h]

/-- The distance can be gone, one letter at a time. -/
theorem edits_editDistance (as bs : List Char) : Edits (editDistance as bs) as bs := by
  induction as generalizing bs with
  | nil =>
    rw [editDistance_nil_left]
    exact .insertAll bs
  | cons a as iha =>
    induction bs with
    | nil =>
      rw [editDistance_nil_right]
      exact .deleteAll (a :: as)
    | cons b bs ihb =>
      rw [editDistance_cons_cons]
      split
      · next h =>
        subst h
        exact (iha bs).cons a
      · -- a letter is put in before the others are dealt with, so that changes are added in front
        -- only
        have hdelete : Edits (editDistance as (b :: bs) + 1) (a :: as) (b :: bs) :=
          .more (.delete [] as a) (iha (b :: bs))
        have hinsert : Edits (editDistance (a :: as) bs + 1) (a :: as) (b :: bs) :=
          .more (.insert [] (a :: as) b) (ihb.cons b)
        have hreplace : Edits (editDistance as bs + 1) (a :: as) (b :: bs) :=
          .more (.replace [] as a b) ((iha bs).cons b)
        exact (hdelete.shorter hinsert).shorter hreplace

/-- What holds for the words without their first letter, which is the same, holds for the words. -/
theorem editDistance_cons_le {as bs : List Char}
    (h : ∀ cs, editDistance as cs ≤ editDistance bs cs + 1) (c : Char) (cs : List Char) :
    editDistance (c :: as) cs ≤ editDistance (c :: bs) cs + 1 := by
  induction cs with
  | nil => simpa using h []
  | cons d cs ih =>
    have hfull := h (d :: cs)
    have hrest := h cs
    rw [editDistance_cons_cons, editDistance_cons_cons]
    split <;> omega

theorem editDistance_replace_le (as : List Char) (c d : Char) (cs : List Char) :
    editDistance (c :: as) cs ≤ editDistance (d :: as) cs + 1 := by
  induction cs with
  | nil => simp
  | cons b cs ih =>
    have hleft := (oneApart as cs d).le_left
    have hright := (oneApart as cs b).le_right
    rw [editDistance_cons_cons, editDistance_cons_cons]
    split <;> split <;> omega

/-- A change of one letter in a word changes its distance to other words by at most one. -/
theorem Edit.editDistance_le {as bs : List Char} (h : Edit as bs) :
    ∀ cs, editDistance as cs ≤ editDistance bs cs + 1 := by
  cases h with
  | insert front back c =>
    induction front with
    | nil => exact fun cs => (oneApart back cs c).le_left
    | cons d front ih => exact editDistance_cons_le ih d
  | delete front back c =>
    induction front with
    | nil => exact fun cs => (oneApart back cs c).left_le
    | cons d front ih => exact editDistance_cons_le ih d
  | replace front back c d =>
    induction front with
    | nil => exact editDistance_replace_le back c d
    | cons e front ih => exact editDistance_cons_le ih e

/-- No way is shorter than the distance. -/
theorem Edits.editDistance_le {n : Nat} {as bs : List Char} (h : Edits n as bs) :
    editDistance as bs ≤ n := by
  induction h with
  | none as => exact Nat.le_of_eq (editDistance_self as)
  | more hedit _ ih => exact Nat.le_trans (hedit.editDistance_le _) (Nat.add_le_add_right ih 1)

/-- The distance of two words is the least number of changes that lead from one to the other. -/
theorem editDistance_isLeast (as bs : List Char) :
    IsLeast {n | Edits n as bs} (editDistance as bs) :=
  ⟨edits_editDistance as bs, fun _ h => Edits.editDistance_le h⟩

/-- Each change takes the length up or down by at most one. -/
theorem Edits.length_le {n : Nat} {as bs : List Char} (h : Edits n as bs) :
    as.length ≤ bs.length + n ∧ bs.length ≤ as.length + n := by
  induction h with
  | none as => simp
  | more hedit _ ih =>
    cases hedit <;> simp only [List.length_append, List.length_cons] at ih ⊢ <;> omega

/-- The lengths of two words differ by no more than their distance. -/
theorem length_le_editDistance (as bs : List Char) :
    as.length ≤ bs.length + editDistance as bs ∧ bs.length ≤ as.length + editDistance as bs :=
  (edits_editDistance as bs).length_le

/-! ### The first of the nearest -/

/-- The first of the candidates at the least distance `d` among those that satisfy `p`. -/
def FirstNearest (d : String → Nat) (p : String → Prop) (candidates : List String) (c : String) :
    Prop :=
  ∃ before after, candidates = before ++ c :: after ∧ p c ∧ (∀ x ∈ before, p x → d c < d x) ∧
    ∀ x ∈ after, p x → d c ≤ d x

namespace FirstNearest

variable {d : String → Nat} {p : String → Prop} {candidates : List String} {c x : String}

theorem le (h : FirstNearest d p candidates c) : ∀ x ∈ candidates, p x → d c ≤ d x := by
  obtain ⟨before, after, rfl, -, hbefore, hafter⟩ := h
  intro x hx hp
  rcases List.mem_append.1 hx with hx | hx
  · exact Nat.le_of_lt (hbefore x hx hp)
  · rcases List.mem_cons.1 hx with rfl | hx
    · exact Nat.le_refl _
    · exact hafter x hx hp

theorem unique (h : FirstNearest d p candidates c) (hx : FirstNearest d p candidates x) :
    c = x := by
  have hle := h.le
  have hle' := hx.le
  obtain ⟨before, after, rfl, hc, hbefore, -⟩ := h
  obtain ⟨before', after', heq, hx, hbefore', -⟩ := hx
  -- if one stood in front of the other, the other would be nearer, but each is as near as any
  rcases List.append_eq_append_iff.1 heq with ⟨front, rfl, hfront⟩ | ⟨front, rfl, hfront⟩
  · rcases List.cons_eq_append_iff.1 hfront with ⟨-, hsame⟩ | ⟨front', rfl, -⟩
    · exact (List.cons.inj hsame).1.symm
    · exact absurd (hbefore' c (by simp) hc) (Nat.not_lt.2 (hle x (by simp [heq]) hx))
  · rcases List.cons_eq_append_iff.1 hfront with ⟨-, hsame⟩ | ⟨front', rfl, -⟩
    · exact (List.cons.inj hsame).1
    · exact absurd (hbefore x (by simp) hx) (Nat.not_lt.2 (hle' c (by simp) hc))

theorem concat (h : FirstNearest d p candidates c) (hx : p x → d c ≤ d x) :
    FirstNearest d p (candidates ++ [x]) c := by
  obtain ⟨before, after, rfl, hc, hbefore, hafter⟩ := h
  refine ⟨before, after ++ [x], by simp, hc, hbefore, ?_⟩
  intro y hy
  rcases List.mem_append.1 hy with hy | hy
  · exact hafter y hy
  · rw [List.mem_singleton.1 hy]
    exact hx

/-- A candidate that is better than all before it takes their place. -/
theorem last (hp : p x) (h : ∀ y ∈ candidates, p y → d x < d y) :
    FirstNearest d p (candidates ++ [x]) x :=
  ⟨candidates, [], rfl, hp, h, fun _ hy => absurd hy List.not_mem_nil⟩

end FirstNearest

/-- The distance of a candidate to a name. -/
def distanceTo (name candidate : String) : Nat := editDistance name.toList candidate.toList

/-- The nearest to `name` of the candidates that satisfy `p`. -/
def nearestAmong (name : String) (p : String → Bool) (candidates : List String) : Option String :=
  (candidates.filter p).foldl (nearer name.toList) none

theorem nearestAmong_concat (name : String) (p : String → Bool) (candidates : List String)
    (x : String) :
    nearestAmong name p (candidates ++ [x]) =
      if p x then nearer name.toList (nearestAmong name p candidates) x
      else nearestAmong name p candidates := by
  rw [nearestAmong, List.filter_append, List.foldl_append]
  by_cases h : p x
  · rw [if_pos h, List.filter_cons_of_pos h]
    rfl
  · rw [if_neg h, List.filter_cons_of_neg h]
    rfl

/-- What a search among the candidates may end with: nothing if none of them satisfies `p`, and the
first of the nearest otherwise. -/
def Found (d : String → Nat) (p : String → Prop) (candidates : List String) : Option String → Prop
  | none => ∀ x ∈ candidates, ¬ p x
  | some c => FirstNearest d p candidates c

/-- The search goes through the candidates in order, and keeps the best one so far. -/
theorem found_nearestAmong (name : String) (p : String → Bool) (candidates : List String) :
    Found (distanceTo name) (p · = true) candidates (nearestAmong name p candidates) := by
  induction candidates using List.reverseRecOn with
  | nil => exact fun _ hx => absurd hx List.not_mem_nil
  | append_singleton candidates x ih =>
    rw [nearestAmong_concat]
    -- the best candidate so far is all that the next step looks at
    generalize nearestAmong name p candidates = best at ih
    by_cases hp : p x
    · rw [if_pos hp]
      cases best with
      | none => exact .last hp fun y hy hpy => absurd hpy (ih y hy)
      | some b =>
        have hb : FirstNearest (distanceTo name) (p · = true) candidates b := ih
        -- only a candidate that is strictly nearer takes the place of an earlier one
        by_cases hlt : distanceTo name x < distanceTo name b
        · have hnearer : nearer name.toList (some b) x = some x := if_pos hlt
          rw [hnearer]
          exact .last hp fun y hy hpy => Nat.lt_of_lt_of_le hlt (hb.le y hy hpy)
        · have hnearer : nearer name.toList (some b) x = some b := if_neg hlt
          rw [hnearer]
          exact hb.concat fun _ => Nat.le_of_not_lt hlt
    · rw [if_neg hp]
      cases best with
      | none =>
        refine List.forall_mem_append.2 ⟨ih, ?_⟩
        rwa [List.forall_mem_singleton]
      | some b =>
        have hb : FirstNearest (distanceTo name) (p · = true) candidates b := ih
        exact hb.concat fun hpx => absurd hpx hp

section

variable {name : String} {p : String → Bool} {candidates : List String}

/-- A candidate is the result exactly if it is the first of the nearest. -/
theorem nearestAmong_eq_some_iff {c : String} : nearestAmong name p candidates = some c ↔
    FirstNearest (distanceTo name) (p · = true) candidates c := by
  have hfound := found_nearestAmong name p candidates
  generalize nearestAmong name p candidates = best at hfound ⊢
  constructor
  · rintro rfl
    exact hfound
  · intro h
    cases best with
    | none =>
      obtain ⟨before, after, rfl, hc, -⟩ := h
      exact absurd hc (hfound c (by simp))
    | some b =>
      have hb : FirstNearest (distanceTo name) (p · = true) candidates b := hfound
      rw [hb.unique h]

/-- There is no result exactly if no candidate satisfies the condition. -/
theorem nearestAmong_eq_none_iff :
    nearestAmong name p candidates = none ↔ ∀ x ∈ candidates, ¬ p x := by
  have hfound := found_nearestAmong name p candidates
  generalize nearestAmong name p candidates = best at hfound ⊢
  constructor
  · rintro rfl
    exact hfound
  · intro h
    cases best with
    | none => rfl
    | some b =>
      obtain ⟨before, after, rfl, hb, -⟩ := hfound
      exact absurd hb (h b (by simp))

end

/-! ### Suggestions -/

/-- The distance of the candidate to the name is at least one and at most `most`. -/
def InReach (name : String) (most : Nat) (candidate : String) : Prop :=
  1 ≤ distanceTo name candidate ∧ distanceTo name candidate ≤ most

instance (name : String) (most : Nat) (candidate : String) :
    Decidable (InReach name most candidate) :=
  inferInstanceAs (Decidable (_ ∧ _))

/-- The candidate has up to two letters more or less than the name. -/
def SimilarLength (name candidate : String) : Prop :=
  candidate.length ≤ name.length + 2 ∧ name.length ≤ candidate.length + 2

instance (name candidate : String) : Decidable (SimilarLength name candidate) :=
  inferInstanceAs (Decidable (_ ∧ _))

theorem isNear_iff {name candidate : String} {most : Nat} :
    isNear name.toList most candidate.toList = true ↔
      InReach name most candidate ∧ SimilarLength name candidate := by
  simp only [isNear, InReach, SimilarLength, distanceTo, String.length_toList, Bool.and_eq_true,
    decide_eq_true_eq]
  omega

/-- No candidate in reach is left out for its length, if the reach is no more than two. -/
theorem InReach.similarLength {name candidate : String} {most : Nat}
    (h : InReach name most candidate) (hmost : most ≤ 2) : SimilarLength name candidate := by
  obtain ⟨hle, hge⟩ := length_le_editDistance name.toList candidate.toList
  have hdistance : editDistance name.toList candidate.toList ≤ most := h.2
  rw [String.length_toList, String.length_toList] at hle hge
  constructor <;> omega

/-- The suggestion for a name is the first of the nearest candidates among those in reach and of
similar length, where the distance is the least number of letters that have to be changed.  There is
none exactly if no candidate is in reach and of similar length.  Up to a reach of two, the lengths
make no difference. -/
theorem closest_firstNearest (name : String) (candidates : List String) (most : Nat) :
    (∀ as bs : List Char, IsLeast {n | Edits n as bs} (editDistance as bs)) ∧
    (∀ c, closest name candidates most = some c ↔
      FirstNearest (distanceTo name) (fun x => InReach name most x ∧ SimilarLength name x)
        candidates c) ∧
    (closest name candidates most = none ↔
      ∀ x ∈ candidates, ¬ (InReach name most x ∧ SimilarLength name x)) ∧
    (most ≤ 2 → closest name candidates most =
      nearestAmong name (fun x => InReach name most x) candidates) := by
  -- the test of the checker, in the words of the statement
  have hnear : (fun c : String => isNear name.toList most c.toList) =
      fun x => decide (InReach name most x ∧ SimilarLength name x) := by
    funext x
    rw [Bool.eq_iff_iff, isNear_iff, decide_eq_true_eq]
  have hclosest : closest name candidates most =
      nearestAmong name (fun x => InReach name most x ∧ SimilarLength name x) candidates :=
    congrArg (nearestAmong name · candidates) hnear
  rw [hclosest]
  refine ⟨editDistance_isLeast, fun c => ?_, ?_, fun hmost => ?_⟩
  · simp only [nearestAmong_eq_some_iff, decide_eq_true_eq]
  · simp only [nearestAmong_eq_none_iff, decide_eq_true_eq]
  · refine congrArg (nearestAmong name · candidates) (funext fun x => ?_)
    exact decide_eq_decide.2 (and_iff_left_of_imp fun h => h.similarLength hmost)

namespace Sample

/-- Names near to `cat`: itself, one that is too far away, and three of the same distance. -/
def pets : List String := ["cat", "camel", "bat", "cart", "ca"]

end Sample

/-- Of three names at distance one, the first is suggested. -/
theorem closest_firstNearest_pets :
    closest "cat" Sample.pets 2 = some "bat" ∧
      FirstNearest (distanceTo "cat") (fun x => InReach "cat" 2 x ∧ SimilarLength "cat" x)
        Sample.pets "bat" ∧
      nearestAmong "cat" (fun x => InReach "cat" 2 x) Sample.pets = some "bat" := by
  have hclosest : closest "cat" Sample.pets 2 = some "bat" := by decide +kernel
  obtain ⟨-, hsome, -, hreach⟩ := closest_firstNearest "cat" Sample.pets 2
  exact ⟨hclosest, (hsome "bat").1 hclosest, hreach (by decide) ▸ hclosest⟩

end ThreadRegions
