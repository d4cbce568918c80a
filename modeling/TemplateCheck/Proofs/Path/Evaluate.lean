import TemplateCheck.Proofs.Path.Fresh

/-!
This module contains the comparison of the two evaluations of a path: what the evaluator selects,
with its two removals of nodes met before and the positions that it carries along, is what the naive
evaluation visits, each node once.
-/

namespace TemplateCheck

namespace Located

def of (x : Spot) : Located :=
  ⟨x.1, x.2, x.1.getLast?.bind Branch.index?⟩

theorem of_concat (p : Place) (b : Branch) (d : Data) :
    of (p ++ [b], d) = ⟨p ++ [b], d, b.index?⟩ := by
  unfold of
  simp

theorem places_map_of (xs : List Spot) : places (xs.map of) = xs.map Prod.fst := by
  unfold places
  rw [List.map_map]
  rfl

theorem distinct_map_of (seen : List Place) (xs : List Spot) :
    distinct seen (xs.map of) = (Spot.fresh seen xs).map of := by
  induction xs generalizing seen with
  | nil => rfl
  | cons x xs ih =>
    rw [List.map_cons, distinct]
    by_cases hx : x.1 ∈ seen
    . rw [if_pos (show (of x).place ∈ seen from hx), Spot.fresh_of_mem hx]
      exact ih seen
    . rw [if_neg (show (of x).place ∉ seen from hx), Spot.fresh_of_not_mem hx]
      rw [List.map_cons]
      congr 1
      exact ih (x.1 :: seen)

theorem pick_of (selector : Selector) (x : Spot) :
    selector.pick (of x) = (selector.choose x).map of := by
  cases selector with
  | current => rfl
  | key k =>
    unfold Selector.pick Selector.choose under?
    dsimp only
    change ((x.2.get? k).map _).toList = _
    cases x.2.get? k with
    | none => rfl
    | some c =>
      change [_] = [of (x.1 ++ [.key k], c)]
      rw [of_concat]
      rfl
  | anyChild =>
    unfold Selector.pick Selector.choose Data.isScalar
    change (if x.2.isContainer = true then inside (of x) else [of x]) = _
    cases x.2.isContainer with
    | false => rfl
    | true =>
      change (x.2.branches.map _) = (x.2.branches.map _).map of
      rw [List.map_map]
      apply List.map_congr_left
      intro b _
      exact (of_concat x.1 b.1 b.2).symm

theorem accepts_of (filter : Filter) (x : Spot) : filter.accepts (of x) = filter.holds x := by
  cases filter with
  | numberEq v => rfl
  | textEq s => rfl
  | index i =>
    unfold Filter.accepts Filter.holds of
    dsimp only
    cases x.1.getLast? with
    | none => rfl
    | some b =>
      cases b with
      | key k => rfl
      | index j =>
        rw [Bool.eq_iff_iff]
        simp [Branch.index?]

def descendBranches (place : Place) (seen : List Place) : List (Branch × Data) → List Located
  | [] => []
  | b :: bs =>
    let found := descend b.2 (place ++ [b.1]) b.1.index? seen
    found ++ descendBranches place (places found ++ seen) bs

theorem descendItems_eq (items : List Data) (i : Nat) (place : Place) (seen : List Place) :
    descendItems items i place seen
      = descendBranches place seen ((items.zipIdx i).map fun x => (.index x.2, x.1)) := by
  induction items generalizing i seen with
  | nil => rfl
  | cons d ds ih =>
    rw [List.zipIdx_cons, List.map_cons]
    unfold descendItems descendBranches
    dsimp only
    rw [ih]
    rfl

theorem descendEntries_eq (entries : List (String × Data)) (place : Place) (seen : List Place) :
    descendEntries entries place seen
      = descendBranches place seen (entries.map fun e => (.key e.1, e.2)) := by
  induction entries generalizing seen with
  | nil => rfl
  | cons e es ih =>
    rw [List.map_cons]
    unfold descendEntries descendBranches
    dsimp only
    rw [ih]
    rfl

theorem descend_of_mem (d : Data) {place : Place} (index? : Option Nat) {seen : List Place}
    (h : place ∈ seen) : descend d place index? seen = [] := by
  unfold descend
  rw [if_pos h]

theorem descend_of_not_mem (d : Data) {place : Place} (index? : Option Nat) {seen : List Place}
    (h : place ∉ seen) :
    descend d place index? seen
      = ⟨place, d, index?⟩ :: descendBranches place (place :: seen) d.branches := by
  unfold descend
  rw [if_neg h]
  congr 1
  cases d with
  | sequence items => exact descendItems_eq items 0 place (place :: seen)
  | mapping entries => exact descendEntries_eq entries place (place :: seen)
  | _ => rfl

end Located

namespace Spot

/--
With every place at or below `place` that was seen, all the places below it in the tree `d` were
seen too, if `d` is what lies at `place`.
-/
def Closed (d : Data) (place : Place) (seen : List Place) : Prop :=
  ∀ p q, place ++ p ∈ seen → (d.at? (p ++ q)).isSome → place ++ (p ++ q) ∈ seen

theorem Closed.branch {d c : Data} {place : Place} {seen : List Place}
    (h : Closed d place seen) {b : Branch} (hc : d.step? b = some c) :
    Closed c (place ++ [b]) seen := by
  intro p q hp hq
  rw [List.append_assoc] at hp ⊢
  apply h (b :: p) q hp
  rw [List.cons_append, Data.at?_cons, hc]
  exact hq

theorem Closed.append_preorder {c e : Data} {place : Place} {seen : List Place} {b b' : Branch}
    (hne : b ≠ b') (he : e.keysDistinct = true) (h : Closed c (place ++ [b]) seen) :
    Closed c (place ++ [b])
      ((fresh seen (preorder (place ++ [b']) e)).map Prod.fst ++ seen) := by
  intro p q hp hq
  rw [mem_places_fresh_append, List.mem_append] at hp ⊢
  cases hp with
  | inr hp => exact .inr (h p q hp hq)
  | inl hp =>
    rw [List.mem_map] at hp
    obtain ⟨y, hy, heq⟩ := hp
    obtain ⟨r, hr, _⟩ := exists_of_mem_preorder he hy
    rw [hr, List.append_assoc, List.append_assoc] at heq
    have := List.append_cancel_left heq
    rw [List.singleton_append, List.singleton_append, List.cons.injEq] at this
    exact absurd this.1.symm hne

theorem fresh_preorder_of_mem {d : Data} (hd : d.keysDistinct = true) {place : Place}
    {seen : List Place} (hclosed : Closed d place seen) (h : place ∈ seen) :
    fresh seen (preorder place d) = [] := by
  apply fresh_eq_nil
  intro y hy
  obtain ⟨p, hp, hat⟩ := exists_of_mem_preorder hd hy
  rw [hp]
  apply hclosed [] p
  . rw [List.append_nil]
    exact h
  . rw [List.nil_append, hat]
    rfl

end Spot

namespace Located

open Spot

theorem descendBranches_eq_fresh {place : Place} {bs : List (Branch × Data)} {seen : List Place}
    (hdescend : ∀ b ∈ bs, ∀ seen, Closed b.2 (place ++ [b.1]) seen →
      descend b.2 (place ++ [b.1]) b.1.index? seen
        = (fresh seen (preorder (place ++ [b.1]) b.2)).map of)
    (hkeys : ∀ b ∈ bs, b.2.keysDistinct = true) (hnodup : (bs.map Prod.fst).Nodup)
    (hclosed : ∀ b ∈ bs, Closed b.2 (place ++ [b.1]) seen) :
    descendBranches place seen bs
      = (fresh seen (bs.flatMap fun b => preorder (place ++ [b.1]) b.2)).map of := by
  induction bs generalizing seen with
  | nil => rfl
  | cons b bs ih =>
    rw [List.forall_mem_cons] at hdescend hkeys hclosed
    rw [List.map_cons, List.nodup_cons] at hnodup
    unfold descendBranches
    dsimp only
    rw [hdescend.1 seen hclosed.1, places_map_of]
    rw [List.flatMap_cons, fresh_append, List.map_append]
    congr 1
    -- what was found behind this step does not lie behind another, so there nothing has changed
    apply ih hdescend.2 hkeys.2 hnodup.2
    intro c hc
    apply Closed.append_preorder _ hkeys.1 (hclosed.2 c hc)
    intro heq
    apply hnodup.1
    rw [← heq]
    exact List.mem_map_of_mem hc

theorem descend_eq_fresh {d : Data} (hd : d.keysDistinct = true) (place : Place)
    {seen : List Place} (hclosed : Closed d place seen) :
    descend d place (place.getLast?.bind Branch.index?) seen
      = (fresh seen (preorder place d)).map of := by
  induction d using Data.induction_branches generalizing place seen with
  | h d ih =>
    by_cases hmem : place ∈ seen
    . rw [descend_of_mem d _ hmem, fresh_preorder_of_mem hd hclosed hmem]
      rfl
    . rw [descend_of_not_mem d _ hmem, preorder_eq, fresh_of_not_mem hmem, List.map_cons]
      congr 1
      apply descendBranches_eq_fresh
      . intro b hb seen hseen
        have hlast : b.1.index? = (place ++ [b.1]).getLast?.bind Branch.index? := by simp
        rw [hlast]
        exact ih b.1 b.2 hb (Data.keysDistinct_of_mem_branches hd hb) _ hseen
      . intro b hb
        exact Data.keysDistinct_of_mem_branches hd hb
      . exact Data.nodup_branches hd
      . intro b hb p q hp hq
        -- the place of the node itself is not below the next step, so it was seen before
        have hne : place ++ [b.1] ++ p ≠ place := by simp
        rw [List.mem_cons] at hp ⊢
        have hbranch := hclosed.branch ((Data.mem_branches_iff hd).mp hb)
        exact .inr (hbranch p q (hp.resolve_left hne) hq)

theorem descendAll_eq_fresh {d : Data} (hd : d.keysDistinct = true) {xs : List Spot}
    (hxs : ∀ x ∈ xs, x.Of d) {seen : List Place} (hclosed : Closed d [] seen) :
    descendAll seen (xs.map of) = (fresh seen (xs.flatMap fun x => preorder x.1 x.2)).map of := by
  induction xs generalizing seen with
  | nil => rfl
  | cons x xs ih =>
    rw [List.forall_mem_cons] at hxs
    have hx : d.at? x.1 = some x.2 := hxs.1
    have hkeys := Data.keysDistinct_of_at? hd hx
    have hbelow : Closed x.2 x.1 seen := by
      intro p q hp hq
      rw [← List.append_assoc]
      apply hclosed (x.1 ++ p) q hp
      rw [List.append_assoc, Data.at?_append, hx]
      exact hq
    have hfound : descend (of x).node (of x).place (of x).index? seen
        = (fresh seen (preorder x.1 x.2)).map of :=
      descend_eq_fresh hkeys x.1 hbelow
    rw [List.map_cons]
    unfold descendAll
    dsimp only
    rw [hfound, places_map_of, List.flatMap_cons, fresh_append, List.map_append]
    congr 1
    -- a place is now seen because it was before, or because it lies below `x`, with all below it
    apply ih hxs.2
    intro p q hp hq
    rw [List.nil_append, mem_places_fresh_append, List.mem_append] at hp ⊢
    cases hp with
    | inr hp => exact .inr (hclosed p q hp hq)
    | inl hp =>
      rw [List.mem_map] at hp
      obtain ⟨y, hy, rfl⟩ := hp
      obtain ⟨r, hr, _⟩ := exists_of_mem_preorder hkeys hy
      rw [hr, List.append_assoc, Data.at?_append, hx] at hq
      obtain ⟨c, hc⟩ := Option.isSome_iff_exists.mp hq
      rw [hr, List.append_assoc]
      exact .inl (List.mem_map_of_mem (mem_preorder_of_at? hkeys hc x.1))

end Located

open Spot

theorem Axis.context_map_of {d : Data} (hd : d.keysDistinct = true) (axis : Axis) {xs : List Spot}
    (hxs : ∀ x ∈ xs, x.Of d) (selector : Selector) :
    Located.distinct [] ((axis.context (xs.map .of)).flatMap selector.pick)
      = (fresh [] ((xs.flatMap axis.reach).flatMap selector.choose)).map .of := by
  have hpick : ∀ ys : List Spot, (ys.map Located.of).flatMap selector.pick
      = (ys.flatMap selector.choose).map .of := by
    intro ys
    rw [List.flatMap_map, List.map_flatMap]
    congr 1
    funext y
    exact Located.pick_of selector y
  cases axis with
  | child =>
    change Located.distinct [] ((xs.map .of).flatMap selector.pick) = _
    rw [hpick, Located.distinct_map_of]
    congr 3
    exact (List.flatMap_singleton' xs).symm
  | descendantOrSelf =>
    change Located.distinct [] ((Located.descendAll [] (xs.map .of)).flatMap selector.pick) = _
    rw [Located.descendAll_eq_fresh hd hxs (fun _ _ h => by contradiction)]
    rw [hpick, Located.distinct_map_of]
    congr 1
    apply fresh_flatMap_fresh
    . apply functional_of_of (d := d)
      intro y hy
      rw [List.mem_flatMap] at hy
      obtain ⟨x, hx, hy⟩ := hy
      exact of_mem_preorder hd (hxs x hx) hy
    . intro y _ hy
      contradiction

theorem Step.apply_map_of {d : Data} (hd : d.keysDistinct = true) (step : Step) {xs : List Spot}
    (hxs : ∀ x ∈ xs, x.Of d) :
    step.apply (xs.map .of) = (fresh [] (xs.flatMap step.visit)).map .of := by
  have hfunctional : Functional ((xs.flatMap step.axis.reach).flatMap step.selector.choose) := by
    apply functional_of_of (d := d)
    intro y hy
    rw [List.mem_flatMap] at hy
    obtain ⟨z, hz, hy⟩ := hy
    rw [List.mem_flatMap] at hz
    obtain ⟨x, hx, hz⟩ := hz
    exact of_mem_choose hd (of_mem_reach hd (hxs x hx) hz) hy
  have haccepts : ((fun l => step.filter?.all (·.accepts l)) ∘ Located.of)
      = fun y => step.filter?.all (·.holds y) := by
    funext y
    cases step with
    | mk axis selector filter? =>
      cases filter? with
      | none => rfl
      | some filter => exact Located.accepts_of filter y
  unfold Step.apply
  rw [step.axis.context_map_of hd hxs, List.filter_map, haccepts]
  rw [filter_fresh hfunctional, List.flatMap_assoc, List.filter_flatMap]
  rfl

namespace Path

theorem of_mem_flatMap_visit {d : Data} (hd : d.keysDistinct = true) (step : Step)
    {xs : List Spot} (hxs : ∀ x ∈ xs, x.Of d) : ∀ y ∈ xs.flatMap step.visit, y.Of d := by
  intro y hy
  rw [List.mem_flatMap] at hy
  obtain ⟨x, hx, hy⟩ := hy
  exact of_mem_visit hd (hxs x hx) hy

theorem foldl_apply_eq_fresh {d : Data} (hd : d.keysDistinct = true) (path : Path)
    {xs : List Spot} (hxs : ∀ x ∈ xs, x.Of d) :
    path.foldl (fun ls step => step.apply ls) ((fresh [] xs).map .of)
      = (fresh [] (path.foldl (fun xs step => xs.flatMap step.visit) xs)).map .of := by
  induction path generalizing xs with
  | nil => rfl
  | cons step path ih =>
    rw [List.foldl_cons, List.foldl_cons]
    rw [step.apply_map_of hd fun x hx => hxs x (mem_of_mem_fresh hx)]
    rw [fresh_flatMap_fresh step.visit (functional_of_of hxs) (by simp)]
    exact ih (of_mem_flatMap_visit hd step hxs)

theorem select_eq_fresh (path : Path) {d : Data} (hd : d.keysDistinct = true) :
    path.select d = (fresh [] (path.visits d)).map .of := by
  have hroot : ∀ x ∈ [([], d)], Spot.Of d x := by
    intro x hx
    rw [List.mem_singleton] at hx
    rw [hx]
    exact of_root d
  exact path.foldl_apply_eq_fresh hd hroot

theorem selectsAny_iff (path : Path) {d : Data} (hd : d.keysDistinct = true) :
    path.selectsAny d = true ↔ ∃ x, x ∈ path.visits d := by
  unfold selectsAny
  rw [select_eq_fresh path hd, List.isEmpty_map]
  rw [Bool.not_eq_true', List.isEmpty_eq_false_iff, ne_eq, fresh_eq_nil_iff]
  constructor
  . intro h
    exact List.exists_mem_of_ne_nil _ h
  . intro ⟨x, hx⟩
    exact List.ne_nil_of_mem hx

/--
The evaluator loses nothing and repeats nothing.
-/
theorem select_eq_firsts_visits (path : Path) {d : Data} (hd : d.keysDistinct = true) :
    path.select d = (firsts (path.visits d)).map .of
      ∧ (Located.places (path.select d)).Nodup := by
  rw [select_eq_fresh path hd, Located.places_map_of]
  constructor
  . rw [fresh_nil_eq_firsts]
  . exact (nodup_fresh [] (path.visits d)).1

theorem select_eq_firsts_visits_twice_below :
    (Data.mapping [("a", .sequence [.null, .sequence [.null]])]).keysDistinct = true
      ∧ Path.select [⟨.descendantOrSelf, .anyChild, none⟩, ⟨.descendantOrSelf, .anyChild, none⟩]
          (.mapping [("a", .sequence [.null, .sequence [.null]])])
        = [([.key "a", .index 0], .null), ([.key "a", .index 1], .sequence [.null]),
            ([.key "a", .index 1, .index 0], .null)].map .of
      ∧ (Located.places (Path.select
          [⟨.descendantOrSelf, .anyChild, none⟩, ⟨.descendantOrSelf, .anyChild, none⟩]
          (.mapping [("a", .sequence [.null, .sequence [.null]])]))).Nodup :=
  ⟨rfl, select_eq_firsts_visits _ rfl⟩

end Path

end TemplateCheck
