import TemplateCheck.Proofs.Path.Route
import TemplateCheck.Proofs.Template.Replace
import TemplateCheck.Proofs.Validator.Verdict

/-!
This module contains that a template which has a wildcard in the place of something else accepts
more candidates: the path of the wildcard matches wherever a path of what was there does.
-/

namespace TemplateCheck

theorem Data.Meets.wildcard {d : Data} {leaf : Leaf} {last? : Option Branch}
    (h : d.Meets leaf last?) : d.Meets .wildcard none := by
  cases leaf with
  | wildcard => exact h
  | scalar s =>
    cases last? with
    | none => exact .inl (Agrees.isScalar h)
    | some b =>
      cases b with
      | index i => exact .inl (Agrees.isScalar h)
      | key k =>
        rcases h with hagrees | ⟨b, c, hc, _⟩
        . exact .inl hagrees.isScalar
        . obtain ⟨n, hn, hmeets⟩ := (leads_of_step? (at?_nil d) hc).exists_meets_wildcard
          rw [at?_nil, Option.some.injEq] at hn
          rw [hn]
          exact hmeets

namespace Path

theorem selectsAny_ofLeaf_wildcard_of_append {d : Data} (hd : d.keysDistinct = true)
    {route route' : Place} {leaf : Leaf}
    (h : (ofLeaf (route ++ route', leaf)).selectsAny d = true) :
    (ofLeaf (route, .wildcard)).selectsAny d = true := by
  rw [selectsAny_ofLeaf_wildcard_iff hd]
  by_cases hnil : route ++ route' = []
  . obtain ⟨rfl, rfl⟩ := List.append_eq_nil_iff.mp hnil
    cases leaf with
    | wildcard => exact (selectsAny_ofLeaf_wildcard_iff hd []).mp h
    | scalar s =>
      -- the path of a scalar at the root is the only one that begins nowhere else
      have hagrees := (selectsAny_ofLeaf_root_iff hd s).mp h
      exact ⟨[], [], d, rfl, .nil [], Data.at?_nil d, .inl hagrees.isScalar⟩
  . obtain ⟨p, r, c, hp, hreaches, hr, hmeets⟩ := (selectsAny_ofLeaf_iff hd hnil leaf).mp h
    obtain ⟨q, hpq, hqr⟩ := hreaches.exists_of_append
    cases hqr with
    | nil => exact ⟨p, r, c, hp, hpq, hr, hmeets.wildcard⟩
    | cons hb _ =>
      -- whatever a step leads away from is a scalar or has something inside
      obtain ⟨n, hn, hmeets⟩ := hb.exists_meets_wildcard
      exact ⟨p, q, n, hp, hpq, hn, hmeets⟩

end Path

namespace Template

theorem selectsAny_of_mem_underPlace {d : Data} (hd : d.keysDistinct = true) {p : Place}
    {ls : List (Place × Leaf)} {l : Place × Leaf} (hl : l ∈ underPlace p ls)
    (h : (Path.ofLeaf l).selectsAny d = true) :
    (Path.ofLeaf (p, .wildcard)).selectsAny d = true := by
  obtain ⟨m, _, rfl⟩ := List.mem_map.mp hl
  exact Path.selectsAny_ofLeaf_wildcard_of_append hd h

theorem exists_mem_underPlace (p : Place) {t : Template} (ht : 0 < t.leafCount) :
    ∃ l, l ∈ underPlace p t.leaves := by
  apply List.exists_mem_of_length_pos
  unfold underPlace
  rw [List.length_map, length_leaves]
  exact ht

theorem mem_underPlace_wildcard_iff {p : Place} {l : Place × Leaf} :
    l ∈ underPlace p Template.wildcard.leaves ↔ l = (p, .wildcard) := by
  unfold underPlace leaves
  rw [List.map_singleton, List.append_nil, List.mem_singleton]

end Template

namespace Validator

/--
Generalising a template only widens what it accepts. Whatever has a leaf may make way for a
wildcard, at any place of the template and for a loose as for a strict validator.
-/
theorem validateOne_put_wildcard {v : Validator} (hv : v.paths = []) {t sub : Template}
    (ht : t.positionsFit = true) {p : Place} (hp : t.at? p = some sub) (hsub : 0 < sub.leafCount)
    {d : Data} (hd : d.keysDistinct = true)
    (haccepts : ((v.load t).validateOne Matcher.byPath d).run.run () = (.ok true, ())) :
    ((v.load (t.put p .wildcard)).validateOne Matcher.byPath d).run.run () = (.ok true, ()) := by
  obtain ⟨before, after, hleaves, hput⟩ := Template.exists_leaves_put hp .wildcard
  have hselects := fun l (hl : l ∈ Template.underPlace p sub.leaves) =>
    Template.selectsAny_of_mem_underPlace hd hl
  rw [validateOne_load_eq_true_iff hv ht, hleaves] at haccepts
  rw [validateOne_load_eq_true_iff hv (Template.positionsFit_put ht rfl p), hput]
  simp only [List.mem_append] at haccepts ⊢
  split
  . next hstrict =>
    rw [if_pos hstrict] at haccepts
    rintro l ((hl | hl) | hl)
    . exact haccepts l (.inl (.inl hl))
    . rw [Template.mem_underPlace_wildcard_iff.mp hl]
      obtain ⟨m, hm⟩ := Template.exists_mem_underPlace p hsub
      exact hselects m hm (haccepts m (.inl (.inr hm)))
    . exact haccepts l (.inr hl)
  . next hloose =>
    rw [if_neg hloose] at haccepts
    obtain ⟨l, (hl | hl) | hl, hany⟩ := haccepts
    . exact ⟨l, .inl (.inl hl), hany⟩
    . exact ⟨_, .inl (.inr (Template.mem_underPlace_wildcard_iff.mpr rfl)), hselects l hl hany⟩
    . exact ⟨l, .inr hl, hany⟩

theorem validateOne_put_wildcard_inside_sequence :
    (Template.mapping [("a", .sequence [.scalar "x", .mapping [("b", .scalar "7")]])]).at?
        [.key "a", .index 1] = some (.mapping [("b", .scalar "7")])
      ∧ (Template.mapping [("a", .sequence [.scalar "x", .mapping [("b", .scalar "7")]])]).put
        [.key "a", .index 1] .wildcard = .mapping [("a", .sequence [.scalar "x", .wildcard])]
      ∧ (((⟨{}, true, []⟩ : Validator).load
          (.mapping [("a", .sequence [.scalar "x", .wildcard])])).validateOne Matcher.byPath
          (.mapping [("a", .sequence [.string "x", .mapping [("b", .string "7.0")]])])).run.run ()
        = (.ok true, ()) := by
  refine ⟨rfl, rfl, ?_⟩
  have haccepts : (((⟨{}, true, []⟩ : Validator).load
      (.mapping [("a", .sequence [.scalar "x", .mapping [("b", .scalar "7")]])])).validateOne
      Matcher.byPath (.mapping [("a", .sequence [.string "x", .mapping [("b", .string "7.0")]])])
      ).run.run () = (.ok true, ()) := by
    rw [validateOne_load rfl rfl]
    rfl
  have hput := validateOne_put_wildcard (v := ⟨{}, true, []⟩) rfl
    (t := .mapping [("a", .sequence [.scalar "x", .mapping [("b", .scalar "7")]])]) rfl
    (p := [.key "a", .index 1]) rfl (by decide) rfl haccepts
  exact hput

end Validator

end TemplateCheck
