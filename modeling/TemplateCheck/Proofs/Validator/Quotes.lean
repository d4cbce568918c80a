import TemplateCheck.Proofs.Validator.Verdict
import TemplateCheck.Settings

/-!
This module contains the proof that quoting keys that could do without is a matter of spelling: the
reader of paths finds the same path in both spellings, so the validator comes to the same verdicts.
-/

namespace TemplateCheck

namespace Compile

theorem exists_parse_eq_of_paths (options options' : Options) {t : Template}
    (ht : t.positionsFit = true) {i : Nat} {e e' : String}
    (he : (compile options t).paths[i]? = some e)
    (he' : (compile options' t).paths[i]? = some e') :
    ∃ path, Path.parse e = .ok path ∧ Path.parse e' = .ok path := by
  rw [compile_paths_eq, List.getElem?_map, Option.map_eq_some_iff] at he he'
  obtain ⟨l, hl, rfl⟩ := he
  obtain ⟨l', hl', rfl⟩ := he'
  obtain rfl : l = l' := by
    rw [hl, Option.some.injEq] at hl'
    exact hl'
  have hmem := List.mem_of_getElem? hl
  exact ⟨Path.ofLeaf l, parse_leafText options ht hmem, parse_leafText options' ht hmem⟩

end Compile

namespace Validator

variable {v v' : Validator} (hv : v.paths = []) (hv' : v'.paths = [])
  (hstrict : v.strict = v'.strict) {ts : List Template} (hts : ∀ t ∈ ts, t.positionsFit = true)

include hv hv' hstrict hts

theorem validateOne_loadAll_congr (d : Data) :
    ((v.loadAll ts).validateOne Matcher.byPath d).run.run ()
      = ((v'.loadAll ts).validateOne Matcher.byPath d).run.run () := by
  rw [validateOne_loadAll hv hts, validateOne_loadAll hv' hts, hstrict]

theorem verdicts_loadAll_congr (ds : List Data) :
    (v.loadAll ts).verdicts ds = (v'.loadAll ts).verdicts ds := by
  unfold verdicts
  rw [validate_of_validateOne fun d => validateOne_loadAll hv hts d]
  rw [validate_of_validateOne fun d => validateOne_loadAll hv' hts d, hstrict]

end Validator

namespace Settings

/--
Whether all keys are quoted makes no difference. The paths of a template are as many and are read
as the same paths either way, and validators that were loaded with the same templates come to the
same verdicts.
-/
theorem loadAll_quoteAllKeys (settings : Settings) (q q' : Bool) {ts : List Template}
    (hts : ∀ t ∈ ts, t.positionsFit = true) :
    (∀ t ∈ ts, (Compile.compile ⟨q⟩ t).paths.length = (Compile.compile ⟨q'⟩ t).paths.length
        ∧ ∀ (i : Nat) (e e' : String), (Compile.compile ⟨q⟩ t).paths[i]? = some e
          → (Compile.compile ⟨q'⟩ t).paths[i]? = some e'
          → ∃ path, Path.parse e = .ok path ∧ Path.parse e' = .ok path)
      ∧ (∀ d, (({ settings with quoteAllKeys := q }.validator.loadAll ts).validateOne
            Matcher.byPath d).run.run ()
          = (({ settings with quoteAllKeys := q' }.validator.loadAll ts).validateOne
            Matcher.byPath d).run.run ())
      ∧ ∀ ds, ({ settings with quoteAllKeys := q }.validator.loadAll ts).verdicts ds
          = ({ settings with quoteAllKeys := q' }.validator.loadAll ts).verdicts ds := by
  refine ⟨?_, ?_, ?_⟩
  . intro t ht
    constructor
    . rw [Compile.length_paths, Compile.length_paths]
    . intro i e e' he he'
      exact Compile.exists_parse_eq_of_paths _ _ (hts t ht) he he'
  . intro d
    apply Validator.validateOne_loadAll_congr ?_ ?_ ?_ hts d
    all_goals rfl
  . intro ds
    apply Validator.verdicts_loadAll_congr ?_ ?_ ?_ hts ds
    all_goals rfl

theorem loadAll_quoteAllKeys_unquoted :
    (Compile.compile ⟨false⟩
          (.mapping [("naïve", .sequence [.wildcard]), ("it's", .scalar "5")])).paths
        = ["//naïve/*[ idx == 0 ]/*", "//\"it's\"/*[ value == 5 ]"]
      ∧ (Compile.compile ⟨true⟩
          (.mapping [("naïve", .sequence [.wildcard]), ("it's", .scalar "5")])).paths
        = ["//\"naïve\"/*[ idx == 0 ]/*", "//\"it's\"/*[ value == 5 ]"]
      ∧ (∃ path, Path.parse "//naïve/*[ idx == 0 ]/*" = .ok path
        ∧ Path.parse "//\"naïve\"/*[ idx == 0 ]/*" = .ok path)
      ∧ ∀ d, (((⟨⟨false⟩, true, []⟩ : Validator).loadAll
            [.mapping [("naïve", .sequence [.wildcard]), ("it's", .scalar "5")]]).validateOne
            Matcher.byPath d).run.run ()
          = (((⟨⟨true⟩, true, []⟩ : Validator).loadAll
            [.mapping [("naïve", .sequence [.wildcard]), ("it's", .scalar "5")]]).validateOne
            Matcher.byPath d).run.run () := by
  have hplain : (Compile.compile ⟨false⟩
      (.mapping [("naïve", .sequence [.wildcard]), ("it's", .scalar "5")])).paths
      = ["//naïve/*[ idx == 0 ]/*", "//\"it's\"/*[ value == 5 ]"] := by
    decide +kernel
  have hquoted : (Compile.compile ⟨true⟩
      (.mapping [("naïve", .sequence [.wildcard]), ("it's", .scalar "5")])).paths
      = ["//\"naïve\"/*[ idx == 0 ]/*", "//\"it's\"/*[ value == 5 ]"] := by
    decide +kernel
  have hfits : ∀ t ∈ [Template.mapping [("naïve", .sequence [.wildcard]), ("it's", .scalar "5")]],
      t.positionsFit = true := by
    decide
  have hall := loadAll_quoteAllKeys { strict := true } false true hfits
  refine ⟨hplain, hquoted, ?_, hall.2.1⟩
  exact (hall.1 _ List.mem_cons_self).2 0 _ _ (by rw [hplain]; rfl) (by rw [hquoted]; rfl)

end Settings

end TemplateCheck
