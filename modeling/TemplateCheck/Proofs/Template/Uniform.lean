import TemplateCheck.Proofs.Path.Route
import TemplateCheck.Proofs.Validator.Verdict

/-!
This module contains what the paths of a template that is built of mappings alone, or of sequences
alone, ask of a candidate: how far the nesting of the candidate has to be that of the template.
-/

namespace TemplateCheck

namespace Template

inductive OfMappings : Template → Prop where
  | scalar (s : String) : OfMappings (.scalar s)
  | mapping {entries : List (String × Template)} (h : ∀ e ∈ entries, OfMappings e.2) :
      OfMappings (.mapping entries)

inductive OfSequences : Template → Prop where
  | scalar (s : String) : OfSequences (.scalar s)
  | sequence {items : List Template} (h : ∀ t ∈ items, OfSequences t) :
      OfSequences (.sequence items)

theorem OfMappings.of_mem_branches {t : Template} (ht : t.OfMappings) {b : Branch} {t' : Template}
    (hb : (b, t') ∈ t.branches) : (∃ k, b = .key k) ∧ t'.OfMappings := by
  cases ht with
  | scalar s => contradiction
  | mapping h =>
    obtain ⟨k, rfl, hk⟩ := mem_branches_mapping.mp hb
    exact ⟨⟨k, rfl⟩, h (k, t') hk⟩

theorem OfSequences.of_mem_branches {t : Template} (ht : t.OfSequences) {b : Branch}
    {t' : Template} (hb : (b, t') ∈ t.branches) : (∃ i, b = .index i) ∧ t'.OfSequences := by
  cases ht with
  | scalar s => contradiction
  | sequence h =>
    obtain ⟨i, rfl, hi⟩ := mem_branches_sequence.mp hb
    exact ⟨⟨i, rfl⟩, h t' (List.mem_of_getElem? hi)⟩

theorem OfMappings.positionsFit {t : Template} (ht : t.OfMappings) : t.positionsFit = true := by
  induction ht with
  | scalar s => rfl
  | mapping h ih =>
    unfold Template.positionsFit
    rw [positionsFitEntries_iff]
    exact ih

end Template

namespace Compile

open Data

/--
A scalar under a mapping key is satisfied by a scalar at that key, and by one directly inside what
is at that key, but by no other.
-/
theorem byPath_compile_of_ofMappings (options : Options) {t : Template} (ht : t.OfMappings)
    {d : Data} (hd : d.keysDistinct = true) {i : Nat} {route : Place} {s : String}
    (hleaf : t.leaves[i]? = some (route, .scalar s)) :
    ∃ e answer, (compile options t).paths[i]? = some e
      ∧ Matcher.byPath e d () = (.ok answer, ())
      ∧ (answer = true → ∃ p c, d.at? (p ++ route) = some c
          ∧ (c.Agrees s ∨ ∃ b c', c.step? b = some c' ∧ c'.Agrees s))
      ∧ (route ≠ [] → (∃ p c, d.at? (p ++ route) = some c
          ∧ (c.Agrees s ∨ ∃ b c', c.step? b = some c' ∧ c'.Agrees s)) → answer = true) := by
  have hroute := Template.forall_mem_route (fun _ h _ _ => h.of_mem_branches) ht
    (List.mem_of_getElem? hleaf)
  obtain ⟨e, he, hanswer⟩ := exists_paths_getElem?_eq options ht.positionsFit hleaf
  refine ⟨e, _, he, hanswer d, ?_⟩
  rcases List.eq_nil_or_concat route with rfl | ⟨init, b, rfl⟩
  . rw [Path.selectsAny_ofLeaf_root_iff hd]
    constructor
    . intro h
      exact ⟨[], d, at?_nil d, .inl h⟩
    . intro hne
      contradiction
  . rw [List.concat_eq_append] at hroute ⊢
    obtain ⟨k, rfl⟩ := hroute b (by simp)
    have hiff := Path.selectsAny_ofLeaf_iff hd (List.concat_ne_nil (.key k) init) (.scalar s)
    rw [exists_reaches_keys_iff hroute, List.getLast?_concat] at hiff
    exact ⟨hiff.mp, fun _ => hiff.mpr⟩

theorem byPath_compile_of_ofMappings_deeper :
    ∃ e, (compile {} (.mapping [("a", .mapping [("b", .scalar "7")])])).paths[0]? = some e
      ∧ Matcher.byPath e (.sequence [.mapping [("a", .mapping [("b", .string "7.0")])]]) ()
        = (.ok true, ())
      ∧ Matcher.byPath e (.mapping [("b", .string "7.0")]) () = (.ok false, ()) := by
  have ht : (Template.mapping [("a", .mapping [("b", .scalar "7")])]).OfMappings :=
    .mapping (by simpa using .mapping (by simpa using .scalar "7"))
  obtain ⟨e, answer, he, hanswer, -, hmatches⟩ := byPath_compile_of_ofMappings {} ht
    (d := .sequence [.mapping [("a", .mapping [("b", .string "7.0")])]]) rfl (i := 0) rfl
  obtain ⟨e', answer', he', hanswer', hplace, -⟩ := byPath_compile_of_ofMappings {} ht
    (d := .mapping [("b", .string "7.0")]) rfl (i := 0) rfl
  have htrue : answer = true :=
    hmatches (List.cons_ne_nil _ _)
      ⟨[.index 0], .string "7.0", rfl, .inl ⟨"7.0", rfl, .inl ⟨rfl, rfl, _, _, rfl, rfl, rfl⟩⟩⟩
  have hfalse : answer' = false := by
    rw [← Bool.not_eq_true]
    intro h
    obtain ⟨p, c, hat, -⟩ := hplace h
    have hmem : (p ++ [.key "a", .key "b"], c) ∈ [([], mapping [("b", string "7.0")]),
        ([.key "b"], string "7.0")] :=
      Spot.mem_preorder_of_at? rfl hat []
    have hlong := List.mem_map_of_mem (f := fun spot => spot.1.length) hmem
    simp at hlong
  rw [he, Option.some.injEq] at he'
  subst he' htrue hfalse
  exact ⟨e, he, hanswer, hanswer'⟩

theorem byPath_compile_of_ofMappings_inside_sequence :
    (Template.mapping [("a", .scalar "x")]).OfMappings
      ∧ (Template.mapping [("a", .scalar "x")]).leaves[0]? = some ([.key "a"], .scalar "x")
      ∧ (∃ e, (compile {} (.mapping [("a", .scalar "x")])).paths[0]? = some e
          ∧ Matcher.byPath e (.mapping [("a", .sequence [.string "x"])]) () = (.ok true, ()))
      ∧ ¬ ∃ p c, (Data.mapping [("a", .sequence [.string "x"])]).at? (p ++ [.key "a"]) = some c
          ∧ c.Agrees "x" := by
  refine ⟨.mapping (by simpa using .scalar "x"), rfl, ?_, ?_⟩
  . obtain ⟨e, he, hanswer⟩ := exists_paths_getElem?_eq {} rfl
      (t := .mapping [("a", .scalar "x")]) (i := 0) rfl
    exact ⟨e, he, hanswer _⟩
  . intro ⟨p, c, hat, hc⟩
    have hmem : (p ++ [.key "a"], c) ∈ [([], mapping [("a", sequence [string "x"])]),
        ([.key "a"], sequence [string "x"]), ([.key "a", .index 0], string "x")] :=
      Spot.mem_preorder_of_at? rfl hat []
    simp only [List.mem_cons, Prod.mk.injEq, List.append_eq_nil_iff, List.cons_ne_self, and_false,
      false_and, List.append_left_eq_self, List.not_mem_nil, or_false, false_or] at hmem
    rcases hmem with ⟨_, rfl⟩ | ⟨heq, _⟩
    -- at the key lies no scalar, and the scalar lies at no key
    . have := hc.isScalar
      contradiction
    . have := congrArg List.getLast? heq
      simp at this

/--
Nested sequences in a template ask for the same nesting in a candidate, except that a scalar may
take the repetitions of the last position of its route.
-/
theorem byPath_compile_of_ofSequences (options : Options) {t : Template} (ht : t.OfSequences)
    (hcontainer : t.isContainer = true) (hfits : t.positionsFit = true) {d : Data}
    (hd : d.keysDistinct = true) {i : Nat} {route : Place} {s : String}
    (hleaf : t.leaves[i]? = some (route, .scalar s)) :
    ∃ e answer, (compile options t).paths[i]? = some e
      ∧ Matcher.byPath e d () = (.ok answer, ())
      ∧ (answer = true ↔ ∃ p items way j n c, d.at? p = some (.sequence items)
          ∧ route = way ++ List.replicate (n + 1) (.index j)
          ∧ d.at? (p ++ (way ++ [.index j])) = some c ∧ c.Agrees s) := by
  have hmem := List.mem_of_getElem? hleaf
  have hne := Template.ne_nil_of_mem_leaves hcontainer hmem
  have hroute := Template.forall_mem_route (fun _ h _ _ => h.of_mem_branches) ht hmem
  obtain ⟨e, he, hanswer⟩ := exists_paths_getElem?_eq options hfits hleaf
  refine ⟨e, _, he, hanswer d, ?_⟩
  have hmeets : Meets (.scalar s) route.getLast? = Agrees s := by
    cases hlast : route.getLast? with
    | none => rfl
    | some b =>
      obtain ⟨j, rfl⟩ := hroute b (List.mem_of_getLast? hlast)
      rfl
  rw [Path.selectsAny_ofLeaf_iff hd hne, hmeets]
  exact exists_reaches_indices_iff hne hroute fun c hc => hc.isScalar

theorem byPath_compile_of_ofSequences_deeper :
    ∃ e, (compile {} (.sequence [.sequence [.scalar "x", .scalar "7"]])).paths[1]? = some e
      ∧ Matcher.byPath e (.mapping [("a", .sequence [.sequence [.null, .string "7.0"]])]) ()
        = (.ok true, ()) := by
  obtain ⟨e, answer, he, hanswer, hiff⟩ := byPath_compile_of_ofSequences {}
    (t := .sequence [.sequence [.scalar "x", .scalar "7"]])
    (.sequence (by simpa using .sequence (by simp [Template.OfSequences.scalar]))) rfl rfl
    (d := .mapping [("a", .sequence [.sequence [.null, .string "7.0"]])]) rfl (i := 1) rfl
  have hmatches : answer = true := by
    rw [hiff]
    refine ⟨[.key "a"], _, [.index 0], 1, 0, .string "7.0", rfl, rfl, rfl, ?_⟩
    exact ⟨"7.0", rfl, .inl ⟨rfl, rfl, _, _, rfl, rfl, rfl⟩⟩
  subst hmatches
  exact ⟨e, he, hanswer⟩

theorem byPath_compile_of_ofSequences_flatter :
    (Template.sequence [.sequence [.scalar "x"]]).OfSequences
      ∧ (Template.sequence [.sequence [.scalar "x"]]).leaves[0]?
        = some ([.index 0, .index 0], .scalar "x")
      ∧ (∃ e, (compile {} (.sequence [.sequence [.scalar "x"]])).paths[0]? = some e
          ∧ Matcher.byPath e (.sequence [.string "x"]) () = (.ok true, ()))
      ∧ ¬ ∃ p items c, (Data.sequence [.string "x"]).at? p = some (.sequence items)
          ∧ (Data.sequence [.string "x"]).at? (p ++ [.index 0, .index 0]) = some c
          ∧ c.Agrees "x" := by
  refine ⟨.sequence (by simpa using .sequence (by simpa using .scalar "x")), rfl, ?_, ?_⟩
  . obtain ⟨e, he, hanswer⟩ := exists_paths_getElem?_eq {} rfl
      (t := .sequence [.sequence [.scalar "x"]]) (i := 0) rfl
    exact ⟨e, he, hanswer _⟩
  . intro ⟨p, items, c, _, hat, hc⟩
    have hmem : (p ++ [.index 0, .index 0], c) ∈ [([], sequence [string "x"]),
        ([.index 0], string "x")] :=
      Spot.mem_preorder_of_at? rfl hat []
    simp only [List.mem_cons, Prod.mk.injEq, List.append_eq_nil_iff, reduceCtorEq, and_false,
      false_and, List.not_mem_nil, or_false, false_or] at hmem
    have := congrArg List.length hmem.1
    simp at this

end Compile

end TemplateCheck
