import TemplateCheck.Proofs.Path.Evaluate
import TemplateCheck.Proofs.Path.Leaf

/-!
This module contains the meaning of the path of a leaf as a relation between the places of a tree:
where a route leads from a place, and what has to lie there.
-/

namespace TemplateCheck

namespace Data

/--
Where one step of a route leads from a place. A scalar that is an element of a sequence counts as
inside itself.
-/
inductive Leads (d : Data) : Branch → Place → Place → Prop where
  | key {p : Place} {k : String} {entries : List (String × Data)}
      (hp : d.at? p = some (.mapping entries)) (hk : k ∈ Entries.keys entries) :
      Leads d (.key k) p (p ++ [.key k])
  | index {p : Place} {i : Nat} {items : List Data}
      (hp : d.at? p = some (.sequence items)) (hi : i < items.length) :
      Leads d (.index i) p (p ++ [.index i])
  | stay {p : Place} {i : Nat} {c : Data}
      (hp : d.at? p = some c) (hc : c.isScalar = true) (hi : p.getLast? = some (.index i)) :
      Leads d (.index i) p p

inductive Reaches (d : Data) : Place → Place → Place → Prop where
  | nil (p : Place) : Reaches d [] p p
  | cons {b : Branch} {route p q r : Place} (hb : Leads d b p q) (hroute : Reaches d route q r) :
      Reaches d (b :: route) p r

def NumbersEqual (s b : String) : Prop :=
  ∃ x y, Binary64.read? s.toList = some x ∧ Binary64.read? b.toList = some y ∧ x.equal y = true

/--
Whether a node is a scalar that the text of a template accepts: its text is an equal number, or the
same text if the text of the template is no number.
-/
def Agrees (s : String) (d : Data) : Prop :=
  ∃ b, d.text? = some b ∧
    ((Path.looksLikeNumber s.toList = true ∧ Path.looksLikeNumber b.toList = true
        ∧ NumbersEqual s b)
      ∨ (Path.looksLikeNumber s.toList = false ∧ s = b))

/--
What has to lie where the route of a leaf leads, by the last step of the route. A wildcard takes
everything but an empty container. The value of a mapping may have what is wanted directly inside.
-/
def Meets (leaf : Leaf) (last? : Option Branch) (d : Data) : Prop :=
  match leaf, last? with
  | .wildcard, _ => d.isScalar = true ∨ d.branches ≠ []
  | .scalar s, some (.key _) => d.Agrees s ∨ ∃ b c, d.step? b = some c ∧ c.Agrees s
  | .scalar s, _ => d.Agrees s

theorem agrees_iff_of_looksLikeNumber {s : String} {x : Binary64}
    (hs : Path.looksLikeNumber s.toList = true) (hx : Binary64.read? s.toList = some x) (d : Data) :
    d.Agrees s ↔ d.text?.any (numberEquals x) = true := by
  unfold Agrees NumbersEqual numberEquals
  rw [hs, Option.any_eq_true]
  constructor
  . intro ⟨b, hb, h⟩
    rcases h with ⟨_, hlooks, x', y, hx', hy, heq⟩ | ⟨h, _⟩
    . rw [hx] at hx'
      cases hx'
      refine ⟨b, hb, ?_⟩
      rw [hlooks, hy, Option.any_some, Binary64.equal_comm, heq]
      rfl
    . contradiction
  . intro ⟨b, hb, h⟩
    rw [Bool.and_eq_true, Option.any_eq_true] at h
    obtain ⟨hlooks, y, hy, heq⟩ := h
    rw [Binary64.equal_comm] at heq
    exact ⟨b, hb, .inl ⟨rfl, hlooks, x, y, hx, hy, heq⟩⟩

theorem agrees_iff_of_not_looksLikeNumber {s : String}
    (hs : Path.looksLikeNumber s.toList = false) (d : Data) :
    d.Agrees s ↔ d.text? = some s := by
  unfold Agrees
  rw [hs]
  constructor
  . intro ⟨b, hb, h⟩
    rcases h with ⟨h, _⟩ | ⟨_, h⟩
    . contradiction
    . rw [h]
      exact hb
  . intro h
    exact ⟨s, h, .inr ⟨rfl, rfl⟩⟩

theorem Agrees.isScalar {s : String} {d : Data} (h : d.Agrees s) : d.isScalar = true := by
  obtain ⟨b, hb, _⟩ := h
  cases d with
  | sequence items => contradiction
  | mapping entries => contradiction
  | _ => rfl

end Data

theorem Filter.holds_ofText_iff (s : String) (x : Spot) :
    (Filter.ofText s).holds x = true ↔ x.2.Agrees s := by
  cases hs : Path.looksLikeNumber s.toList with
  | false =>
    rw [Data.agrees_iff_of_not_looksLikeNumber hs]
    unfold Filter.ofText
    rw [hs]
    exact beq_iff_eq
  | true =>
    have hread := hs
    unfold Path.looksLikeNumber at hread
    rw [Bool.and_eq_true] at hread
    obtain ⟨v, hv⟩ := Option.isSome_iff_exists.mp hread.2
    rw [Data.agrees_iff_of_looksLikeNumber hs hv]
    unfold Filter.ofText
    rw [hs, hv]
    rfl

theorem Data.leads_of_step? {d n c : Data} {p : Place} (hp : d.at? p = some n) {b : Branch}
    (hb : n.step? b = some c) : d.Leads b p (p ++ [b]) := by
  cases b with
  | key k =>
    cases n with
    | mapping entries =>
      apply Leads.key hp
      exact List.mem_map.mpr ⟨(k, c), Entries.mem_of_get?_eq_some hb, rfl⟩
    | _ => contradiction
  | index i =>
    cases n with
    | sequence items =>
      apply Leads.index hp
      exact (List.getElem?_eq_some_iff.mp hb).1
    | _ => contradiction

theorem Data.Leads.exists_at? {d : Data} {b : Branch} {p q : Place} (h : d.Leads b p q) :
    ∃ c, d.at? q = some c := by
  cases h with
  | @key p k entries hp hk =>
    rw [at?_concat, hp]
    exact Entries.exists_get?_of_mem_keys hk
  | @index p i items hp hi =>
    rw [at?_concat, hp]
    exact ⟨items[i], List.getElem?_eq_getElem hi⟩
  | @stay p i c hp hc hi => exact ⟨c, hp⟩

namespace Spot

theorem mem_visit_child_iff {selector : Selector} {filter? : Option Filter} {x y : Spot} :
    y ∈ Step.visit ⟨.child, selector, filter?⟩ x
      ↔ y ∈ selector.choose x ∧ filter?.all (·.holds y) = true := by
  unfold Step.visit Axis.reach
  dsimp only
  rw [List.flatMap_singleton, List.mem_filter]

theorem mem_visit_key_iff {d : Data} {x : Spot} (hx : x.Of d) (k : String) (y : Spot) :
    y ∈ ((Branch.key k).toStep .child).visit x ↔ d.Leads (.key k) x.1 y.1 ∧ y.Of d := by
  unfold Branch.toStep
  rw [mem_visit_child_iff, mem_choose_key_iff]
  constructor
  . intro ⟨⟨c, hc, hy⟩, _⟩
    subst hy
    exact ⟨Data.leads_of_step? hx hc, (of_concat_iff hx).mpr hc⟩
  . intro ⟨hleads, hy⟩
    obtain ⟨q, c⟩ := y
    cases hleads
    exact ⟨⟨c, (of_concat_iff hx).mp hy, rfl⟩, rfl⟩

theorem mem_visit_index_iff {d : Data} (hd : d.keysDistinct = true) {x : Spot} (hx : x.Of d)
    (i : Nat) (y : Spot) :
    y ∈ ((Branch.index i).toStep .child).visit x ↔ d.Leads (.index i) x.1 y.1 ∧ y.Of d := by
  unfold Branch.toStep
  rw [mem_visit_child_iff, mem_choose_anyChild_iff (Data.keysDistinct_of_at? hd hx)]
  rw [Option.all_some, Filter.holds, beq_iff_eq]
  constructor
  . intro ⟨hy, hlast⟩
    rcases hy with ⟨hscalar, hy⟩ | ⟨b, c, hc, hy⟩
    . subst hy
      exact ⟨.stay hx hscalar hlast, hx⟩
    . subst hy
      rw [List.getLast?_concat, Option.some.injEq] at hlast
      subst hlast
      exact ⟨Data.leads_of_step? hx hc, (of_concat_iff hx).mpr hc⟩
  . intro ⟨hleads, hy⟩
    obtain ⟨p, n⟩ := x
    obtain ⟨q, c⟩ := y
    cases hleads with
    | index hp hi =>
      exact ⟨.inr ⟨.index i, c, (of_concat_iff hx).mp hy, rfl⟩, List.getLast?_concat⟩
    | stay hp hc hi =>
      unfold Of at hx hy
      dsimp only at hx hp hy hc
      rw [hx, Option.some.injEq] at hp hy
      subst hp hy
      exact ⟨.inl ⟨hc, rfl⟩, hi⟩

theorem mem_visit_toStep_iff {d : Data} (hd : d.keysDistinct = true) {x : Spot} (hx : x.Of d)
    (b : Branch) (y : Spot) :
    y ∈ (b.toStep .child).visit x ↔ d.Leads b x.1 y.1 ∧ y.Of d := by
  cases b with
  | key k => exact mem_visit_key_iff hx k y
  | index i => exact mem_visit_index_iff hd hx i y

theorem mem_foldl_route_iff {d : Data} (hd : d.keysDistinct = true) (route : Place)
    {xs : List Spot} (hxs : ∀ x ∈ xs, x.Of d) (y : Spot) :
    y ∈ (route.map (Branch.toStep .child)).foldl (fun xs step => xs.flatMap step.visit) xs
      ↔ ∃ x ∈ xs, d.Reaches route x.1 y.1 ∧ y.Of d := by
  -- one step leads from `xs` to other nodes of the tree, so the claim is for any nodes of it
  induction route generalizing xs with
  | nil =>
    rw [List.map_nil, List.foldl_nil]
    constructor
    . intro hy
      exact ⟨y, hy, .nil y.1, hxs y hy⟩
    . intro ⟨x, hx, hreaches, hy⟩
      have hof := hxs x hx
      obtain ⟨p, n⟩ := x
      obtain ⟨q, c⟩ := y
      unfold Of at hof hy
      cases hreaches
      dsimp only at hof hy
      rw [hof, Option.some.injEq] at hy
      rw [← hy]
      exact hx
  | cons b route ih =>
    rw [List.map_cons, List.foldl_cons]
    rw [ih (Path.of_mem_flatMap_visit hd (b.toStep .child) hxs)]
    constructor
    . intro ⟨z, hz, hreaches, hy⟩
      obtain ⟨x, hx, hz⟩ := List.mem_flatMap.mp hz
      have hleads := (mem_visit_toStep_iff hd (hxs x hx) b z).mp hz
      exact ⟨x, hx, .cons hleads.1 hreaches, hy⟩
    . intro ⟨x, hx, hreaches, hy⟩
      cases hreaches with
      | @cons _ _ _ q _ hb hroute =>
        obtain ⟨c, hc⟩ := hb.exists_at?
        have hz := (mem_visit_toStep_iff hd (hxs x hx) b (q, c)).mpr ⟨hb, hc⟩
        exact ⟨(q, c), List.mem_flatMap.mpr ⟨x, hx, hz⟩, hroute, hy⟩

theorem exists_mem_visit_wildcard_iff {x : Spot} (hx : x.2.keysDistinct = true) :
    (∃ y, y ∈ Step.visit ⟨.child, .anyChild, none⟩ x)
      ↔ x.2.isScalar = true ∨ x.2.branches ≠ [] := by
  simp only [mem_visit_child_iff, mem_choose_anyChild_iff hx, Option.all_none, and_true]
  constructor
  . intro ⟨y, hy⟩
    rcases hy with ⟨hscalar, _⟩ | ⟨b, c, hc, _⟩
    . exact .inl hscalar
    . exact .inr (List.ne_nil_of_mem ((Data.mem_branches_iff hx).mpr hc))
  . intro h
    rcases h with hscalar | hne
    . exact ⟨x, .inl ⟨hscalar, rfl⟩⟩
    . obtain ⟨⟨b, c⟩, hb⟩ := List.exists_mem_of_ne_nil _ hne
      exact ⟨_, .inr ⟨b, c, (Data.mem_branches_iff hx).mp hb, rfl⟩⟩

theorem exists_mem_visit_inside_iff {x : Spot} (hx : x.2.keysDistinct = true) (s : String) :
    (∃ y, y ∈ Step.visit ⟨.child, .anyChild, some (.ofText s)⟩ x)
      ↔ x.2.Agrees s ∨ ∃ b c, x.2.step? b = some c ∧ c.Agrees s := by
  simp only [mem_visit_child_iff, mem_choose_anyChild_iff hx, Option.all_some,
    Filter.holds_ofText_iff]
  constructor
  . intro ⟨y, hy, hagrees⟩
    rcases hy with ⟨_, rfl⟩ | ⟨b, c, hc, rfl⟩
    . exact .inl hagrees
    . exact .inr ⟨b, c, hc, hagrees⟩
  . intro h
    rcases h with hagrees | ⟨b, c, hc, hagrees⟩
    . exact ⟨x, .inl ⟨hagrees.isScalar, rfl⟩, hagrees⟩
    . exact ⟨_, .inr ⟨b, c, hc, rfl⟩, hagrees⟩

theorem exists_mem_visit_itself_iff {x : Spot} (s : String) :
    (∃ y, y ∈ Step.visit ⟨.child, .current, some (.ofText s)⟩ x) ↔ x.2.Agrees s := by
  simp only [mem_visit_child_iff, Selector.choose, List.mem_singleton, Option.all_some,
    Filter.holds_ofText_iff, exists_eq_left]

theorem exists_mem_visit_lastStep_iff {x : Spot} (hx : x.2.keysDistinct = true) (leaf : Leaf)
    (b : Branch) :
    (∃ y, y ∈ (leaf.lastStep (some b)).visit x) ↔ x.2.Meets leaf (some b) := by
  cases leaf with
  | wildcard => exact exists_mem_visit_wildcard_iff hx
  | scalar s =>
    cases b with
    | key k => exact exists_mem_visit_inside_iff hx s
    | index i => exact exists_mem_visit_itself_iff s

theorem visit_descendantOrSelf (selector : Selector) (filter? : Option Filter) (x : Spot) :
    Step.visit ⟨.descendantOrSelf, selector, filter?⟩ x
      = (preorder x.1 x.2).flatMap (Step.visit ⟨.child, selector, filter?⟩) := by
  unfold Step.visit Axis.reach
  simp [List.filter_flatMap]

theorem visit_toStep_descendantOrSelf (b : Branch) (x : Spot) :
    (b.toStep .descendantOrSelf).visit x
      = (preorder x.1 x.2).flatMap (b.toStep .child).visit := by
  cases b with
  | key k => exact visit_descendantOrSelf (.key k) none x
  | index i => exact visit_descendantOrSelf .anyChild (some (.index i)) x

theorem mem_preorder_root_iff {d : Data} (hd : d.keysDistinct = true) (x : Spot) :
    x ∈ preorder [] d ↔ x.Of d := by
  constructor
  . exact of_mem_preorder hd (of_root d)
  . intro hx
    exact mem_preorder_of_at? hd hx []

end Spot

namespace Path

open Spot

theorem visits_ofLeaf (d : Data) (b : Branch) (route : Place) (leaf : Leaf) :
    (ofLeaf (b :: route, leaf)).visits d
      = (((b :: route).map (Branch.toStep .child)).foldl (fun xs step => xs.flatMap step.visit)
          (preorder [] d)).flatMap (leaf.lastStep (b :: route).getLast?).visit := by
  change ((b.toStep .descendantOrSelf :: route.map (Branch.toStep .child)) ++ [_]).foldl _ _ = _
  rw [List.foldl_append]
  change ((route.map (Branch.toStep .child)).foldl _
    ([([], d)].flatMap (b.toStep .descendantOrSelf).visit)).flatMap _ = _
  rw [List.flatMap_singleton, visit_toStep_descendantOrSelf]
  rfl

theorem visits_ofLeaf_root (d : Data) (leaf : Leaf) :
    (ofLeaf ([], leaf)).visits d = (leaf.lastStep none).visit ([], d) := by
  exact List.flatMap_singleton _ _

theorem selectsAny_ofLeaf_root_iff {d : Data} (hd : d.keysDistinct = true) (s : String) :
    (ofLeaf ([], .scalar s)).selectsAny d = true ↔ d.Agrees s := by
  rw [selectsAny_iff _ hd, visits_ofLeaf_root]
  exact exists_mem_visit_itself_iff s

theorem selectsAny_ofLeaf_iff {d : Data} (hd : d.keysDistinct = true) {route : Place}
    (hroute : route ≠ []) (leaf : Leaf) :
    (ofLeaf (route, leaf)).selectsAny d = true
      ↔ ∃ p q c, (d.at? p).isSome ∧ d.Reaches route p q ∧ d.at? q = some c
          ∧ c.Meets leaf route.getLast? := by
  obtain ⟨b, route, rfl⟩ := List.exists_cons_of_ne_nil hroute
  obtain ⟨last, hlast⟩ := getLast?_cons_eq b route
  have hpreorder : ∀ x ∈ preorder [] d, x.Of d := by
    intro x hx
    exact (mem_preorder_root_iff hd x).mp hx
  rw [selectsAny_iff _ hd, visits_ofLeaf, hlast]
  constructor
  . intro ⟨y, hy⟩
    obtain ⟨z, hz, hy⟩ := List.mem_flatMap.mp hy
    obtain ⟨x, hx, hreaches, hz⟩ := (mem_foldl_route_iff hd _ hpreorder z).mp hz
    have hmeets := (exists_mem_visit_lastStep_iff (Data.keysDistinct_of_at? hd hz) leaf last).mp
      ⟨y, hy⟩
    have hx : d.at? x.1 = some x.2 := hpreorder x hx
    exact ⟨x.1, z.1, z.2, by rw [hx]; rfl, hreaches, hz, hmeets⟩
  . intro ⟨p, q, c, hp, hreaches, hq, hmeets⟩
    obtain ⟨n, hn⟩ := Option.isSome_iff_exists.mp hp
    have hz := (mem_foldl_route_iff hd _ hpreorder (q, c)).mpr
      ⟨(p, n), (mem_preorder_root_iff hd (p, n)).mpr hn, hreaches, hq⟩
    have hc := Data.keysDistinct_of_at? hd hq
    obtain ⟨y, hy⟩ := (exists_mem_visit_lastStep_iff (x := (q, c)) hc leaf last).mpr hmeets
    exact ⟨y, List.mem_flatMap.mpr ⟨(q, c), hz, hy⟩⟩

theorem selectsAny_ofLeaf_wildcard_iff {d : Data} (hd : d.keysDistinct = true) (route : Place) :
    (ofLeaf (route, .wildcard)).selectsAny d = true
      ↔ ∃ p q c, (d.at? p).isSome ∧ d.Reaches route p q ∧ d.at? q = some c
          ∧ (c.isScalar = true ∨ c.branches ≠ []) := by
  by_cases hroute : route = []
  . subst hroute
    rw [selectsAny_iff _ hd, visits_ofLeaf_root, Leaf.lastStep, visit_descendantOrSelf]
    constructor
    . intro ⟨y, hy⟩
      obtain ⟨x, hx, hy⟩ := List.mem_flatMap.mp hy
      have hx : d.at? x.1 = some x.2 := (mem_preorder_root_iff hd x).mp hx
      have hmeets := (exists_mem_visit_wildcard_iff (Data.keysDistinct_of_at? hd hx)).mp ⟨y, hy⟩
      exact ⟨x.1, x.1, x.2, by rw [hx]; rfl, .nil x.1, hx, hmeets⟩
    . intro ⟨p, q, c, _, _, hq, hmeets⟩
      have hx := (mem_preorder_root_iff hd (q, c)).mpr hq
      obtain ⟨y, hy⟩ := (exists_mem_visit_wildcard_iff (x := (q, c))
        (Data.keysDistinct_of_at? hd hq)).mpr hmeets
      exact ⟨y, List.mem_flatMap.mpr ⟨(q, c), hx, hy⟩⟩
  . exact selectsAny_ofLeaf_iff hd hroute .wildcard

end Path

end TemplateCheck
