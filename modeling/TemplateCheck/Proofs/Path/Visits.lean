import TemplateCheck.Path.Select
import TemplateCheck.Proofs.Data.Place

/-!
This module contains the naive evaluation of a path: every step is taken from every node on its own,
and nothing keeps a node from being met again.
-/

namespace TemplateCheck

abbrev Spot := Place × Data

namespace Spot

mutual

def preorder (place : Place) (d : Data) : List Spot :=
  (place, d) ::
    match d with
    | .sequence items => preorderOfItems place 0 items
    | .mapping entries => preorderOfEntries place entries
    | _ => []

def preorderOfItems (place : Place) (i : Nat) (items : List Data) : List Spot :=
  match items with
  | [] => []
  | d :: ds => preorder (place ++ [.index i]) d ++ preorderOfItems place (i + 1) ds

def preorderOfEntries (place : Place) (entries : List (String × Data)) : List Spot :=
  match entries with
  | [] => []
  | (k, d) :: es => preorder (place ++ [.key k]) d ++ preorderOfEntries place es

end

def Of (d : Data) (x : Spot) : Prop :=
  d.at? x.1 = some x.2

end Spot

def Axis.reach (axis : Axis) (x : Spot) : List Spot :=
  match axis with
  | .child => [x]
  | .descendantOrSelf => Spot.preorder x.1 x.2

def Selector.choose (selector : Selector) (x : Spot) : List Spot :=
  match selector with
  | .key k => (x.2.get? k).toList.map fun d => (x.1 ++ [.key k], d)
  | .anyChild => if x.2.isScalar then [x] else x.2.branches.map fun b => (x.1 ++ [b.1], b.2)
  | .current => [x]

def Filter.holds (filter : Filter) (x : Spot) : Bool :=
  match filter with
  | .index i => x.1.getLast? == some (.index i)
  | .numberEq v => x.2.text?.any (numberEquals v)
  | .textEq s => x.2.text? == some s

def Step.visit (step : Step) (x : Spot) : List Spot :=
  ((step.axis.reach x).flatMap step.selector.choose).filter fun y => step.filter?.all (·.holds y)

def Path.visits (path : Path) (d : Data) : List Spot :=
  path.foldl (fun xs step => xs.flatMap step.visit) [([], d)]

namespace Spot

theorem preorderOfItems_eq (place : Place) (i : Nat) (items : List Data) :
    preorderOfItems place i items
      = (items.zipIdx i).flatMap fun x => preorder (place ++ [.index x.2]) x.1 := by
  induction items generalizing i with
  | nil => rfl
  | cons d ds ih =>
    rw [List.zipIdx_cons, List.flatMap_cons, ← ih]
    rfl

theorem preorderOfEntries_eq (place : Place) (entries : List (String × Data)) :
    preorderOfEntries place entries
      = entries.flatMap fun e => preorder (place ++ [.key e.1]) e.2 := by
  induction entries with
  | nil => rfl
  | cons e es ih =>
    rw [List.flatMap_cons, ← ih]
    rfl

theorem preorder_eq (place : Place) (d : Data) :
    preorder place d
      = (place, d) :: d.branches.flatMap fun b => preorder (place ++ [b.1]) b.2 := by
  cases d with
  | sequence items =>
    rw [Data.branches, List.flatMap_map]
    exact congrArg _ (preorderOfItems_eq place 0 items)
  | mapping entries =>
    rw [Data.branches, List.flatMap_map]
    exact congrArg _ (preorderOfEntries_eq place entries)
  | _ => rfl

theorem exists_of_mem_preorder {d : Data} (hd : d.keysDistinct = true) {place : Place} {y : Spot}
    (hy : y ∈ preorder place d) : ∃ p, y.1 = place ++ p ∧ d.at? p = some y.2 := by
  induction d using Data.induction_branches generalizing place with
  | h d ih =>
    rw [preorder_eq, List.mem_cons, List.mem_flatMap] at hy
    cases hy with
    | inl hy =>
      subst hy
      exact ⟨[], (List.append_nil place).symm, Data.at?_nil d⟩
    | inr hy =>
      obtain ⟨⟨b, c⟩, hc, hy⟩ := hy
      obtain ⟨p, hp, hat⟩ := ih b c hc (Data.keysDistinct_of_mem_branches hd hc) hy
      refine ⟨b :: p, ?_, ?_⟩
      . rw [hp, List.append_assoc]
        rfl
      . rw [Data.at?_cons, (Data.mem_branches_iff hd).mp hc]
        exact hat

theorem mem_preorder_of_at? {d c : Data} (hd : d.keysDistinct = true) {p : Place}
    (h : d.at? p = some c) (place : Place) : (place ++ p, c) ∈ preorder place d := by
  induction p generalizing d place with
  | nil =>
    rw [Data.at?_nil] at h
    cases h
    rw [preorder_eq, List.append_nil]
    exact List.mem_cons_self
  | cons b p ih =>
    rw [Data.at?_cons, Option.bind_eq_some_iff] at h
    obtain ⟨e, he, h⟩ := h
    have hmem := (Data.mem_branches_iff hd).mpr he
    rw [preorder_eq]
    apply List.mem_cons_of_mem
    rw [List.mem_flatMap]
    refine ⟨(b, e), hmem, ?_⟩
    have := ih (Data.keysDistinct_of_mem_branches hd hmem) h (place ++ [b])
    rw [List.append_assoc] at this
    exact this

theorem of_mem_preorder {d : Data} (hd : d.keysDistinct = true) {x y : Spot} (hx : x.Of d)
    (hy : y ∈ preorder x.1 x.2) : y.Of d := by
  obtain ⟨p, hp, hat⟩ := exists_of_mem_preorder (Data.keysDistinct_of_at? hd hx) hy
  unfold Of
  rw [hp, Data.at?_append, hx]
  exact hat

theorem of_root (d : Data) : Of d ([], d) := by
  exact Data.at?_nil d

theorem of_concat_iff {d : Data} {x : Spot} (hx : x.Of d) {b : Branch} {c : Data} :
    Of d (x.1 ++ [b], c) ↔ x.2.step? b = some c := by
  unfold Of at hx ⊢
  rw [Data.at?_concat, hx]
  rfl

theorem mem_choose_key_iff {x y : Spot} {k : String} :
    y ∈ (Selector.key k).choose x
      ↔ ∃ c, x.2.step? (.key k) = some c ∧ y = (x.1 ++ [.key k], c) := by
  have hget : x.2.get? k = x.2.step? (.key k) := by
    cases x.2 <;> rfl
  unfold Selector.choose
  dsimp only
  rw [hget, List.mem_map]
  constructor
  . intro ⟨c, hc, hy⟩
    exact ⟨c, Option.mem_toList.mp hc, hy.symm⟩
  . intro ⟨c, hc, hy⟩
    exact ⟨c, Option.mem_toList.mpr hc, hy.symm⟩

theorem mem_choose_anyChild_iff {x y : Spot} (hx : x.2.keysDistinct = true) :
    y ∈ Selector.anyChild.choose x
      ↔ (x.2.isScalar = true ∧ y = x) ∨ ∃ b c, x.2.step? b = some c ∧ y = (x.1 ++ [b], c) := by
  unfold Selector.choose
  dsimp only
  split
  . next hscalar =>
    rw [List.mem_singleton]
    constructor
    . intro hy
      exact .inl ⟨hscalar, hy⟩
    . intro hy
      rcases hy with ⟨_, hy⟩ | ⟨b, c, hc, _⟩
      . exact hy
      . rw [Data.step?_eq_none_of_isScalar hscalar] at hc
        contradiction
  . next hscalar =>
    rw [List.mem_map]
    constructor
    . intro ⟨b, hb, hy⟩
      exact .inr ⟨b.1, b.2, (Data.mem_branches_iff hx).mp hb, hy.symm⟩
    . intro hy
      rcases hy with ⟨h, _⟩ | ⟨b, c, hc, hy⟩
      . contradiction
      . exact ⟨(b, c), (Data.mem_branches_iff hx).mpr hc, hy.symm⟩

theorem of_mem_choose {d : Data} (hd : d.keysDistinct = true) {x y : Spot} (hx : x.Of d)
    {selector : Selector} (hy : y ∈ selector.choose x) : y.Of d := by
  cases selector with
  | current =>
    rw [Selector.choose, List.mem_singleton] at hy
    rw [hy]
    exact hx
  | key k =>
    obtain ⟨c, hc, rfl⟩ := mem_choose_key_iff.mp hy
    exact (of_concat_iff hx).mpr hc
  | anyChild =>
    rcases (mem_choose_anyChild_iff (Data.keysDistinct_of_at? hd hx)).mp hy with ⟨_, rfl⟩ | h
    . exact hx
    . obtain ⟨b, c, hc, rfl⟩ := h
      exact (of_concat_iff hx).mpr hc

theorem of_mem_reach {d : Data} (hd : d.keysDistinct = true) {x y : Spot} (hx : x.Of d)
    {axis : Axis} (hy : y ∈ axis.reach x) : y.Of d := by
  cases axis with
  | child =>
    rw [Axis.reach, List.mem_singleton] at hy
    rw [hy]
    exact hx
  | descendantOrSelf => exact of_mem_preorder hd hx hy

theorem of_mem_visit {d : Data} (hd : d.keysDistinct = true) {x y : Spot} (hx : x.Of d)
    {step : Step} (hy : y ∈ step.visit x) : y.Of d := by
  unfold Step.visit at hy
  rw [List.mem_filter, List.mem_flatMap] at hy
  obtain ⟨⟨z, hz, hy⟩, _⟩ := hy
  exact of_mem_choose hd (of_mem_reach hd hx hz) hy

end Spot

end TemplateCheck
