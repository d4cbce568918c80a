import TemplateCheck.Proofs.Path.Visits

/-!
This module contains the removal of nodes that were met before, and where in an evaluation it can be
done without changing what is left in the end: what was removed before a step would have been
removed after it.
-/

namespace TemplateCheck

namespace Spot

def fresh (seen : List Place) : List Spot → List Spot
  | [] => []
  | x :: xs => if seen.contains x.1 then fresh seen xs else x :: fresh (x.1 :: seen) xs

def firsts (xs : List Spot) : List Spot :=
  xs.eraseDupsBy fun x y => x.1 == y.1

variable {seen seen' : List Place} {xs ys : List Spot}

theorem fresh_of_mem {x : Spot} (hx : x.1 ∈ seen) : fresh seen (x :: xs) = fresh seen xs := by
  rw [fresh, if_pos (List.contains_iff_mem.mpr hx)]

theorem fresh_of_not_mem {x : Spot} (hx : x.1 ∉ seen) :
    fresh seen (x :: xs) = x :: fresh (x.1 :: seen) xs := by
  rw [fresh, if_neg (by simpa using hx)]

theorem fresh_eq_firsts_filter (seen : List Place) (xs : List Spot) :
    fresh seen xs = firsts (xs.filter fun x => x.1 ∉ seen) := by
  unfold firsts
  induction xs generalizing seen with
  | nil => rfl
  | cons x xs ih =>
    by_cases hx : x.1 ∈ seen
    . rw [fresh_of_mem hx, ih]
      rw [List.filter_cons_of_neg (by simpa using hx)]
    . rw [fresh_of_not_mem hx, ih]
      rw [List.filter_cons_of_pos (by simpa using hx)]
      rw [List.eraseDupsBy_cons, List.filter_filter]
      congr 2
      apply List.filter_congr
      intro y _
      simp

theorem fresh_nil_eq_firsts (xs : List Spot) : fresh [] xs = firsts xs := by
  rw [fresh_eq_firsts_filter]
  congr 1
  rw [List.filter_eq_self]
  simp

theorem fresh_congr (h : ∀ x ∈ xs, x.1 ∈ seen ↔ x.1 ∈ seen') : fresh seen xs = fresh seen' xs := by
  rw [fresh_eq_firsts_filter, fresh_eq_firsts_filter]
  congr 1
  apply List.filter_congr
  intro x hx
  simp only [h x hx]

theorem fresh_eq_nil (h : ∀ x ∈ xs, x.1 ∈ seen) : fresh seen xs = [] := by
  induction xs with
  | nil => rfl
  | cons x xs ih =>
    rw [List.forall_mem_cons] at h
    rw [fresh_of_mem h.1]
    exact ih h.2

theorem mem_of_mem_fresh {x : Spot} (h : x ∈ fresh seen xs) : x ∈ xs := by
  induction xs generalizing seen with
  | nil => contradiction
  | cons y xs ih =>
    unfold fresh at h
    split at h
    . exact List.mem_cons_of_mem _ (ih h)
    . rw [List.mem_cons] at h
      cases h with
      | inl h =>
        rw [h]
        exact List.mem_cons_self
      | inr h => exact List.mem_cons_of_mem _ (ih h)

theorem mem_places_fresh_append (seen : List Place) (xs : List Spot) (p : Place) :
    p ∈ (fresh seen xs).map Prod.fst ++ seen ↔ p ∈ xs.map Prod.fst ++ seen := by
  induction xs generalizing seen with
  | nil => rfl
  | cons x xs ih =>
    by_cases hx : x.1 ∈ seen
    . rw [fresh_of_mem hx, ih]
      simp only [List.map_cons, List.mem_append, List.mem_cons]
      grind
    . rw [fresh_of_not_mem hx]
      have := ih (x.1 :: seen)
      simp only [List.map_cons, List.mem_append, List.mem_cons] at this ⊢
      grind

theorem fresh_append (seen : List Place) (xs ys : List Spot) :
    fresh seen (xs ++ ys) = fresh seen xs ++ fresh ((fresh seen xs).map Prod.fst ++ seen) ys := by
  induction xs generalizing seen with
  | nil => rfl
  | cons x xs ih =>
    by_cases hx : x.1 ∈ seen
    . rw [List.cons_append, fresh_of_mem hx, fresh_of_mem hx]
      exact ih seen
    . rw [List.cons_append, fresh_of_not_mem hx, fresh_of_not_mem hx, ih, List.cons_append]
      congr 2
      apply fresh_congr
      intro y _
      simp only [List.map_cons, List.mem_append, List.mem_cons]
      grind

theorem fresh_eq_nil_iff : fresh [] xs = [] ↔ xs = [] := by
  cases xs with
  | nil => exact Iff.rfl
  | cons x xs =>
    rw [fresh_of_not_mem List.not_mem_nil]
    simp

theorem nodup_fresh (seen : List Place) (xs : List Spot) :
    ((fresh seen xs).map Prod.fst).Nodup ∧ ∀ x ∈ fresh seen xs, x.1 ∉ seen := by
  induction xs generalizing seen with
  | nil => exact ⟨List.nodup_nil, nofun⟩
  | cons x xs ih =>
    by_cases hx : x.1 ∈ seen
    . rw [fresh_of_mem hx]
      exact ih seen
    . rw [fresh_of_not_mem hx]
      obtain ⟨hnodup, hnot⟩ := ih (x.1 :: seen)
      constructor
      . rw [List.map_cons, List.nodup_cons]
        refine ⟨?_, hnodup⟩
        intro hmem
        rw [List.mem_map] at hmem
        obtain ⟨y, hy, heq⟩ := hmem
        apply hnot y hy
        rw [heq]
        exact List.mem_cons_self
      . intro y hy
        rw [List.mem_cons] at hy
        cases hy with
        | inl hy =>
          rw [hy]
          exact hx
        | inr hy =>
          intro hseen
          exact hnot y hy (List.mem_cons_of_mem _ hseen)

def Functional (xs : List Spot) : Prop :=
  ∀ x ∈ xs, ∀ y ∈ xs, x.1 = y.1 → x = y

theorem functional_of_of {d : Data} (h : ∀ x ∈ xs, x.Of d) : Functional xs := by
  intro x hx y hy heq
  have h₁ := h x hx
  have h₂ := h y hy
  unfold Of at h₁ h₂
  rw [heq, h₂, Option.some.injEq] at h₁
  exact Prod.ext heq h₁.symm

theorem Functional.tail {x : Spot} (h : Functional (x :: xs)) : Functional xs :=
  fun y hy z hz => h y (List.mem_cons_of_mem _ hy) z (List.mem_cons_of_mem _ hz)

theorem filter_fresh (hxs : Functional xs) (f : Spot → Bool) :
    (fresh seen xs).filter f = fresh seen (xs.filter f) := by
  induction xs generalizing seen with
  | nil => rfl
  | cons x xs ih =>
    by_cases hx : x.1 ∈ seen
    . rw [fresh_of_mem hx, ih hxs.tail]
      by_cases hf : f x = true
      . rw [List.filter_cons_of_pos hf, fresh_of_mem hx]
      . rw [List.filter_cons_of_neg hf]
    . rw [fresh_of_not_mem hx]
      by_cases hf : f x = true
      . rw [List.filter_cons_of_pos hf, List.filter_cons_of_pos hf, fresh_of_not_mem hx]
        rw [ih hxs.tail]
      . rw [List.filter_cons_of_neg hf, List.filter_cons_of_neg hf, ih hxs.tail]
        -- the dropped node is the only one of its place, so its place need not be seen
        apply fresh_congr
        intro y hy
        rw [List.mem_filter] at hy
        rw [List.mem_cons]
        have hne : y.1 ≠ x.1 := by
          intro heq
          apply hf
          rw [← hxs y (List.mem_cons_of_mem _ hy.1) x List.mem_cons_self heq]
          exact hy.2
        simp [hne]

theorem fresh_flatMap_fresh (g : Spot → List Spot) (hxs : Functional xs)
    (hseen : ∀ x ∈ xs, x.1 ∈ seen → ∀ y ∈ g x, y.1 ∈ seen') :
    fresh seen' ((fresh seen xs).flatMap g) = fresh seen' (xs.flatMap g) := by
  induction xs generalizing seen seen' with
  | nil => rfl
  | cons x xs ih =>
    rw [List.forall_mem_cons] at hseen
    by_cases hx : x.1 ∈ seen
    -- the node is dropped, and all that replaces it was seen and is dropped then
    . rw [fresh_of_mem hx, ih hxs.tail hseen.2]
      rw [List.flatMap_cons, fresh_append, fresh_eq_nil (hseen.1 hx)]
      rfl
    . rw [fresh_of_not_mem hx, List.flatMap_cons, List.flatMap_cons]
      rw [fresh_append, fresh_append]
      congr 1
      apply ih hxs.tail
      intro y hy hmem z hz
      rw [mem_places_fresh_append, List.mem_append]
      rw [List.mem_cons] at hmem
      cases hmem with
      | inl heq =>
        -- another occurrence of the node is replaced by the same nodes
        rw [hxs y (List.mem_cons_of_mem _ hy) x List.mem_cons_self heq] at hz
        exact .inl (List.mem_map_of_mem hz)
      | inr hmem => exact .inr (hseen.2 y hy hmem z hz)

end Spot

end TemplateCheck
