import TemplateCheck.Proofs.Path.Leaf
import TemplateCheck.Proofs.Path.Match
import TemplateCheck.Validator

/-!
This module contains what the matcher that reads paths makes of compiled paths, and the verdicts of
a validator that was loaded with a template.
-/

namespace TemplateCheck

theorem Matcher.byPath_of_parse {e : String} {path : Path} (h : Path.parse e = .ok path)
    (d : Data) : Matcher.byPath e d () = (.ok (path.selectsAny d), ()) := by
  unfold Matcher.byPath
  rw [h]
  rfl

theorem Matcher.byPath_of_parse_eq_error {e : String} {cause : PathError}
    (h : Path.parse e = .error cause) (d : Data) :
    Matcher.byPath e d () = (.error cause, ()) := by
  unfold Matcher.byPath
  rw [h]
  rfl

namespace Compile

/--
The exact meaning of a compiled path. The matcher understands it, and finds that it matches just
where the route of its leaf leads, from any place, to a node that is as the leaf wants.
-/
theorem byPath_compile_iff (options : Options) {t : Template} (hcontainer : t.isContainer = true)
    (ht : t.positionsFit = true) {d : Data} (hd : d.keysDistinct = true) {i : Nat} {route : Place}
    {leaf : Leaf} (hleaf : t.leaves[i]? = some (route, leaf)) :
    ∃ e answer, (compile options t).paths[i]? = some e
      ∧ Matcher.byPath e d () = (.ok answer, ())
      ∧ (answer = true ↔ ∃ p q c, (d.at? p).isSome ∧ d.Reaches route p q ∧ d.at? q = some c
          ∧ c.Meets leaf route.getLast?) := by
  have hmem := List.mem_of_getElem? hleaf
  refine ⟨leafText options "/" .root (route, leaf), (Path.ofLeaf (route, leaf)).selectsAny d,
    ?_, ?_, ?_⟩
  . rw [compile_paths_eq, List.getElem?_map, hleaf]
    rfl
  . exact Matcher.byPath_of_parse (parse_leafText options ht hmem) d
  . exact Path.selectsAny_ofLeaf_iff hd (Template.ne_nil_of_mem_leaves hcontainer hmem) leaf

theorem byPath_compile_iff_deeper :
    ∃ e, (compile {} (.mapping [("a", .sequence [.wildcard, .scalar "7"])])).paths[1]? = some e
      ∧ Matcher.byPath e (.sequence [.mapping [("a", .sequence [.null, .string "7.0"])]]) ()
        = (.ok true, ()) := by
  obtain ⟨e, answer, he, hanswer, hiff⟩ := byPath_compile_iff {}
    (t := .mapping [("a", .sequence [.wildcard, .scalar "7"])]) rfl rfl
    (d := .sequence [.mapping [("a", .sequence [.null, .string "7.0"])]]) rfl (i := 1) rfl
  have hmatches : answer = true := by
    rw [hiff]
    refine ⟨[.index 0], [.index 0, .key "a", .index 1], .string "7.0", rfl, ?_, rfl, ?_⟩
    . exact .cons (.key rfl (by decide)) (.cons (.index rfl (by decide)) (.nil _))
    . exact ⟨"7.0", rfl, .inl ⟨rfl, rfl, _, _, rfl, rfl, rfl⟩⟩
  subst hmatches
  exact ⟨e, he, hanswer⟩

theorem exists_paths_getElem?_eq (options : Options) {t : Template} (ht : t.positionsFit = true)
    {i : Nat} {l : Place × Leaf} (hl : t.leaves[i]? = some l) :
    ∃ e, (compile options t).paths[i]? = some e
      ∧ ∀ d, Matcher.byPath e d () = (.ok ((Path.ofLeaf l).selectsAny d), ()) := by
  refine ⟨leafText options "/" .root l, ?_, ?_⟩
  . rw [compile_paths_eq, List.getElem?_map, hl]
    rfl
  . exact Matcher.byPath_of_parse (parse_leafText options ht (List.mem_of_getElem? hl))

end Compile

namespace Validator

section Ask

variable {σ : Type} {m : Matcher σ} {e : String} {d : Data} {s s' : σ} {answer : Bool}

theorem ask_of_eq_ok (h : m e d s = (.ok answer, s')) :
    (ask m e d).run.run s = (.ok answer, s') := by
  have hrun : StateT.run (m e d) s = (.ok answer, s') := h
  unfold ask
  simp only [ExceptT.run_bind, StateT.run_bind, ExceptT.run_liftM, StateT.run_map]
  rw [hrun]
  rfl

theorem ask_of_eq_error {cause : PathError} (h : m e d s = (.error cause, s')) :
    (ask m e d).run.run s = (.error ⟨e, cause⟩, s') := by
  have hrun : StateT.run (m e d) s = (.error cause, s') := h
  unfold ask
  simp only [ExceptT.run_bind, StateT.run_bind, ExceptT.run_liftM, StateT.run_map]
  rw [hrun]
  rfl

theorem anyMatch_cons (h : m e d s = (.ok answer, s')) (es : List String) :
    (anyMatch m d (e :: es)).run.run s
      = if answer then (.ok true, s') else (anyMatch m d es).run.run s' := by
  rw [anyMatch, ExceptT.run_bind, StateT.run_bind, ask_of_eq_ok h]
  cases answer with
  | true => rfl
  | false => rfl

theorem allMatch_cons (h : m e d s = (.ok answer, s')) (es : List String) :
    (allMatch m d (e :: es)).run.run s
      = if answer then (allMatch m d es).run.run s' else (.ok false, s') := by
  rw [allMatch, ExceptT.run_bind, StateT.run_bind, ask_of_eq_ok h]
  cases answer with
  | true => rfl
  | false => rfl

theorem anyMatch_cons_of_eq_error {cause : PathError} (h : m e d s = (.error cause, s'))
    (es : List String) : (anyMatch m d (e :: es)).run.run s = (.error ⟨e, cause⟩, s') := by
  rw [anyMatch, ExceptT.run_bind, StateT.run_bind, ask_of_eq_error h]
  rfl

theorem allMatch_cons_of_eq_error {cause : PathError} (h : m e d s = (.error cause, s'))
    (es : List String) : (allMatch m d (e :: es)).run.run s = (.error ⟨e, cause⟩, s') := by
  rw [allMatch, ExceptT.run_bind, StateT.run_bind, ask_of_eq_error h]
  rfl

end Ask

section Parsed

variable {α : Type} {text : α → String} {path : α → Path}

theorem anyMatch_map {ls : List α} (h : ∀ l ∈ ls, Path.parse (text l) = .ok (path l)) (d : Data) :
    (anyMatch Matcher.byPath d (ls.map text)).run.run ()
      = (.ok (ls.any fun l => (path l).selectsAny d), ()) := by
  induction ls with
  | nil => rfl
  | cons l ls ih =>
    rw [List.map_cons, anyMatch_cons (Matcher.byPath_of_parse (h l List.mem_cons_self) d)]
    rw [ih fun l' hl' => h l' (List.mem_cons_of_mem l hl'), List.any_cons]
    cases (path l).selectsAny d with
    | true => rfl
    | false => rfl

theorem allMatch_map {ls : List α} (h : ∀ l ∈ ls, Path.parse (text l) = .ok (path l)) (d : Data) :
    (allMatch Matcher.byPath d (ls.map text)).run.run ()
      = (.ok (ls.all fun l => (path l).selectsAny d), ()) := by
  induction ls with
  | nil => rfl
  | cons l ls ih =>
    rw [List.map_cons, allMatch_cons (Matcher.byPath_of_parse (h l List.mem_cons_self) d)]
    rw [ih fun l' hl' => h l' (List.mem_cons_of_mem l hl'), List.all_cons]
    cases (path l).selectsAny d with
    | true => rfl
    | false => rfl

end Parsed

section Candidates

variable {σ : Type} {v : Validator} {m : Matcher σ} {d : Data} {s s' : σ}

theorem validate_cons {verdict : Bool} (h : (v.validateOne m d).run.run s = (.ok verdict, s'))
    {ds : List Data} {outcome : Except MatchError (List Bool)} {s'' : σ}
    (hrest : (v.validate m ds).run.run s' = (outcome, s'')) :
    (v.validate m (d :: ds)).run.run s = (outcome.map (verdict :: ·), s'') := by
  rw [validate, ExceptT.run_bind, StateT.run_bind, h]
  change ((v.validate m ds >>= fun verdicts =>
    pure (verdict :: verdicts) : Check σ _).run.run s') = _
  rw [ExceptT.run_bind, StateT.run_bind, hrest]
  cases outcome with
  | ok verdicts => rfl
  | error e => rfl

theorem validate_cons_of_eq_error {e : MatchError}
    (h : (v.validateOne m d).run.run s = (.error e, s')) (ds : List Data) :
    (v.validate m (d :: ds)).run.run s = (.error e, s') := by
  rw [validate, ExceptT.run_bind, StateT.run_bind, h]
  rfl

end Candidates

theorem validate_of_validateOne {v : Validator} {m : Matcher Unit} {f : Data → Bool}
    (h : ∀ d, (v.validateOne m d).run.run () = (.ok (f d), ())) (ds : List Data) :
    (v.validate m ds).run.run () = (.ok (ds.map f), ()) := by
  induction ds with
  | nil => rfl
  | cons d ds ih =>
    exact validate_cons (h d) ih

theorem loadAll_eq (v : Validator) (ts : List Template) :
    v.loadAll ts
      = { v with paths := v.paths ++ ts.flatMap fun t => (Compile.compile v.options t).paths } := by
  unfold loadAll
  induction ts generalizing v with
  | nil => simp
  | cons t ts ih =>
    rw [List.foldl_cons, ih, List.flatMap_cons, ← List.append_assoc]
    rfl

theorem loadAll_append (v : Validator) (ts us : List Template) :
    v.loadAll (ts ++ us) = (v.loadAll ts).loadAll us := by
  unfold loadAll
  apply List.foldl_append

section Loaded

variable {v : Validator} (hv : v.paths = [])

include hv

theorem paths_loadAll (ts : List Template) :
    (v.loadAll ts).paths
      = (ts.flatMap Template.leaves).map (Compile.leafText v.options "/" .root) := by
  rw [loadAll_eq, hv, List.nil_append, List.map_flatMap]
  simp only [Compile.compile_paths_eq]

theorem validateOne_loadAll {ts : List Template} (hts : ∀ t ∈ ts, t.positionsFit = true)
    (d : Data) :
    ((v.loadAll ts).validateOne Matcher.byPath d).run.run ()
      = (.ok (if v.strict
          then (ts.flatMap Template.leaves).all fun l => (Path.ofLeaf l).selectsAny d
          else (ts.flatMap Template.leaves).any fun l => (Path.ofLeaf l).selectsAny d), ()) := by
  have hparse : ∀ l ∈ ts.flatMap Template.leaves,
      Path.parse (Compile.leafText v.options "/" .root l) = .ok (Path.ofLeaf l) := by
    intro l hl
    obtain ⟨t, ht, hl⟩ := List.mem_flatMap.mp hl
    exact Compile.parse_leafText v.options (hts t ht) hl
  have hstrict : (v.loadAll ts).strict = v.strict := by rw [loadAll_eq]
  unfold validateOne
  rw [paths_loadAll hv, hstrict]
  change ((if v.strict = true then _ else _ : Check Unit Bool).run.run ()) = _
  split
  . exact allMatch_map hparse d
  . exact anyMatch_map hparse d

theorem validateOne_load {t : Template} (ht : t.positionsFit = true) (d : Data) :
    ((v.load t).validateOne Matcher.byPath d).run.run ()
      = (.ok (if v.strict then t.leaves.all fun l => (Path.ofLeaf l).selectsAny d
          else t.leaves.any fun l => (Path.ofLeaf l).selectsAny d), ()) := by
  have hts : ∀ t' ∈ [t], t'.positionsFit = true := by simpa using ht
  have hload := validateOne_loadAll hv hts d
  rw [List.flatMap_singleton] at hload
  exact hload

theorem validateOne_load_eq_true_iff {t : Template} (ht : t.positionsFit = true) (d : Data) :
    ((v.load t).validateOne Matcher.byPath d).run.run () = (.ok true, ())
      ↔ if v.strict then ∀ l ∈ t.leaves, (Path.ofLeaf l).selectsAny d = true
        else ∃ l ∈ t.leaves, (Path.ofLeaf l).selectsAny d = true := by
  rw [validateOne_load hv ht, Prod.mk.injEq, Except.ok.injEq, eq_self_iff_true, and_true]
  split
  . rw [List.all_eq_true]
  . rw [List.any_eq_true]

end Loaded

end Validator

end TemplateCheck
