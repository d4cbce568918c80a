import TemplateCheck.Proofs.Data.Within
import TemplateCheck.Proofs.Path.Evaluate

/-!
This module contains that a path selects in a tree every place that it selects in a tree contained
in it: whatever a step does from a node, it does from the node in the same place of the larger tree.
-/

namespace TemplateCheck

namespace Spot

def Within (x x' : Spot) : Prop :=
  x.1 = x'.1 ∧ x.2.Within x'.2

theorem Within.concat {x x' : Spot} (h : x.Within x') {b : Branch} {c : Data}
    (hb : x.2.step? b = some c) :
    ∃ c', x'.2.step? b = some c' ∧ Within (x.1 ++ [b], c) (x'.1 ++ [b], c') := by
  obtain ⟨c', hc', hwithin⟩ := h.2.exists_step? hb
  refine ⟨c', hc', ?_, hwithin⟩
  rw [h.1]

theorem Within.holds {x x' : Spot} (h : x.Within x') {filter : Filter}
    (hx : filter.holds x = true) : filter.holds x' = true := by
  cases filter with
  | index i =>
    unfold Filter.holds at hx ⊢
    rw [← h.1]
    exact hx
  | numberEq v =>
    unfold Filter.holds at hx ⊢
    dsimp only at hx ⊢
    rw [Option.any_eq_true] at hx ⊢
    obtain ⟨s, hs, hv⟩ := hx
    exact ⟨s, h.2.text?_eq_some hs, hv⟩
  | textEq s =>
    unfold Filter.holds at hx ⊢
    rw [beq_iff_eq] at hx ⊢
    exact h.2.text?_eq_some hx

section Trees

variable {d d' : Data} (hd : d.keysDistinct = true) (hd' : d'.keysDistinct = true)
  {x x' : Spot} (hx : x.Of d) (hx' : x'.Of d')

include hd hd' hx hx'

theorem Within.exists_mem_reach (h : x.Within x') {axis : Axis} {y : Spot}
    (hy : y ∈ axis.reach x) : ∃ y' ∈ axis.reach x', y.Within y' := by
  cases axis with
  | child =>
    rw [Axis.reach, List.mem_singleton] at hy
    rw [hy]
    exact ⟨x', List.mem_singleton_self x', h⟩
  | descendantOrSelf =>
    obtain ⟨p, hp, hat⟩ := exists_of_mem_preorder (Data.keysDistinct_of_at? hd hx) hy
    obtain ⟨c', hc', hwithin⟩ := h.2.exists_at? hat
    refine ⟨(x'.1 ++ p, c'), ?_, ?_, hwithin⟩
    . exact mem_preorder_of_at? (Data.keysDistinct_of_at? hd' hx') hc' x'.1
    . rw [hp, h.1]

theorem Within.exists_mem_choose (h : x.Within x') {selector : Selector} {y : Spot}
    (hy : y ∈ selector.choose x) : ∃ y' ∈ selector.choose x', y.Within y' := by
  cases selector with
  | current =>
    rw [Selector.choose, List.mem_singleton] at hy
    rw [hy]
    exact ⟨x', List.mem_singleton_self x', h⟩
  | key k =>
    obtain ⟨c, hc, rfl⟩ := mem_choose_key_iff.mp hy
    obtain ⟨c', hc', hwithin⟩ := h.concat hc
    exact ⟨_, mem_choose_key_iff.mpr ⟨c', hc', rfl⟩, hwithin⟩
  | anyChild =>
    have hchoose := fun y' => mem_choose_anyChild_iff (x := x') (y := y')
      (Data.keysDistinct_of_at? hd' hx')
    rcases (mem_choose_anyChild_iff (Data.keysDistinct_of_at? hd hx)).mp hy with ⟨hs, rfl⟩ | hy
    -- a scalar is the same one in the larger tree, so there too it is inside itself
    . have hs' : x'.2.isScalar = true := by
        rw [h.2.eq_of_isScalar hs]
        exact hs
      exact ⟨x', (hchoose x').mpr (.inl ⟨hs', rfl⟩), h⟩
    . obtain ⟨b, c, hc, rfl⟩ := hy
      obtain ⟨c', hc', hwithin⟩ := h.concat hc
      exact ⟨_, (hchoose _).mpr (.inr ⟨b, c', hc', rfl⟩), hwithin⟩

theorem Within.exists_mem_visit (h : x.Within x') {step : Step} {y : Spot}
    (hy : y ∈ step.visit x) : ∃ y' ∈ step.visit x', y.Within y' := by
  unfold Step.visit at hy
  rw [List.mem_filter, List.mem_flatMap] at hy
  obtain ⟨⟨z, hz, hy⟩, hholds⟩ := hy
  obtain ⟨z', hz', hzwithin⟩ := h.exists_mem_reach hd hd' hx hx' hz
  have hof := of_mem_reach hd hx hz
  have hof' := of_mem_reach hd' hx' hz'
  obtain ⟨y', hy', hywithin⟩ := hzwithin.exists_mem_choose hd hd' hof hof' hy
  refine ⟨y', ?_, hywithin⟩
  unfold Step.visit
  rw [List.mem_filter, List.mem_flatMap]
  refine ⟨⟨z', hz', hy'⟩, ?_⟩
  rw [Option.all_eq_true] at hholds ⊢
  intro filter hfilter
  exact hywithin.holds (hholds filter hfilter)

end Trees

end Spot

namespace Path

open Spot

variable {d d' : Data}

theorem exists_mem_foldl_visit_of_within (hd : d.keysDistinct = true)
    (hd' : d'.keysDistinct = true) (path : Path) {xs xs' : List Spot} (hxs : ∀ x ∈ xs, x.Of d)
    (hxs' : ∀ x' ∈ xs', x'.Of d') (h : ∀ x ∈ xs, ∃ x' ∈ xs', x.Within x') :
    ∀ y ∈ path.foldl (fun xs step => xs.flatMap step.visit) xs,
      ∃ y' ∈ path.foldl (fun xs step => xs.flatMap step.visit) xs', y.Within y' := by
  -- after each step every node has one in the same place on the other side
  induction path generalizing xs xs' with
  | nil => exact h
  | cons step path ih =>
    apply ih (of_mem_flatMap_visit hd step hxs) (of_mem_flatMap_visit hd' step hxs')
    intro y hy
    obtain ⟨x, hx, hy⟩ := List.mem_flatMap.mp hy
    obtain ⟨x', hx', hwithin⟩ := h x hx
    obtain ⟨y', hy', hywithin⟩ :=
      hwithin.exists_mem_visit hd hd' (hxs x hx) (hxs' x' hx') hy
    exact ⟨y', List.mem_flatMap.mpr ⟨x', hx', hy'⟩, hywithin⟩

theorem exists_mem_visits_of_within (hd : d.keysDistinct = true) (hd' : d'.keysDistinct = true)
    (h : d.Within d') (path : Path) : ∀ y ∈ path.visits d, ∃ y' ∈ path.visits d', y.Within y' := by
  apply path.exists_mem_foldl_visit_of_within hd hd'
  . simp [of_root]
  . simp [of_root]
  . simpa [Spot.Within] using h

theorem mem_places_select_iff (hd : d.keysDistinct = true) (path : Path) (p : Place) :
    p ∈ Located.places (path.select d) ↔ ∃ c, (p, c) ∈ path.visits d := by
  have := mem_places_fresh_append [] (path.visits d) p
  rw [List.append_nil, List.append_nil] at this
  rw [select_eq_fresh path hd, Located.places_map_of, this, List.mem_map]
  constructor
  . intro ⟨x, hx, hp⟩
    subst hp
    exact ⟨x.2, hx⟩
  . intro ⟨c, hc⟩
    exact ⟨(p, c), hc, rfl⟩

theorem places_select_subset (hd : d.keysDistinct = true) (hd' : d'.keysDistinct = true)
    (h : d.Within d') (path : Path) :
    Located.places (path.select d) ⊆ Located.places (path.select d') := by
  intro p hp
  obtain ⟨c, hc⟩ := (path.mem_places_select_iff hd p).mp hp
  obtain ⟨y', hy', hplace, _⟩ := path.exists_mem_visits_of_within hd hd' h (p, c) hc
  apply (path.mem_places_select_iff hd' p).mpr
  refine ⟨y'.2, ?_⟩
  dsimp only at hplace
  rw [hplace]
  exact hy'

theorem selectsAny_of_within (hd : d.keysDistinct = true) (hd' : d'.keysDistinct = true)
    (h : d.Within d') {path : Path} (hany : path.selectsAny d = true) :
    path.selectsAny d' = true := by
  obtain ⟨y, hy⟩ := (path.selectsAny_iff hd).mp hany
  obtain ⟨y', hy', _⟩ := path.exists_mem_visits_of_within hd hd' h y hy
  exact (path.selectsAny_iff hd').mpr ⟨y', hy'⟩

theorem selectsAny_eq_of_reordered (hd : d.keysDistinct = true) (hd' : d'.keysDistinct = true)
    (h : d.Reordered d') (path : Path) : path.selectsAny d = path.selectsAny d' := by
  rw [Bool.eq_iff_iff]
  constructor
  . exact selectsAny_of_within hd hd' h.within
  . exact selectsAny_of_within hd' hd h.symm.within

end Path

end TemplateCheck
