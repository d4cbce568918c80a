import TemplateCheck.Proofs.Document.Agree
import TemplateCheck.Proofs.Template.Cover
import TemplateCheck.Proofs.Validator.Verdict

/-!
This module contains that the template of a document covers the candidate of the same document, and
with it the verdict on that candidate.
-/

namespace TemplateCheck

namespace Yaml

namespace Value

mutual

def positionsFit : Value → Bool
  | .sequence items => items.length ≤ 0x10000000000000000 && positionsFitItems items
  | .mapping entries => positionsFitEntries entries
  | .tagged _ v => v.positionsFit
  | _ => true

def positionsFitItems : List Value → Bool
  | [] => true
  | v :: vs => v.positionsFit && positionsFitItems vs

def positionsFitEntries : List (Value × Value) → Bool
  | [] => true
  | (_, v) :: es => v.positionsFit && positionsFitEntries es

end

end Value

end Yaml

namespace Template

mutual

theorem covers_ofData (wildcard : String) (d : Data) : (ofData wildcard d).Covers d := by
  cases d with
  | null => exact Data.agrees_of_text?_eq rfl
  | boolean b => exact Data.agrees_of_text?_eq rfl
  | number n => exact Data.agrees_of_text?_eq rfl
  | string s =>
    unfold ofData
    split
    . exact .inl rfl
    . exact Data.agrees_of_text?_eq rfl
  | sequence items =>
    unfold ofData Covers
    exact coversItems_ofDataItems wildcard items
  | mapping entries =>
    unfold ofData Covers
    exact coversEntries_ofDataEntries wildcard entries

theorem coversItems_ofDataItems (wildcard : String) (ds : List Data) :
    CoversItems (ofDataItems wildcard ds) ds := by
  cases ds with
  | nil => trivial
  | cons d ds => exact ⟨covers_ofData wildcard d, coversItems_ofDataItems wildcard ds⟩

theorem coversEntries_ofDataEntries (wildcard : String) (es : List (String × Data)) :
    CoversEntries (ofDataEntries wildcard es) es := by
  cases es with
  | nil => trivial
  | cons e es =>
    unfold ofDataEntries CoversEntries
    exact ⟨rfl, covers_ofData wildcard e.2, coversEntries_ofDataEntries wildcard es⟩

end

theorem covers_ofYaml (wildcard : String) (v : Yaml.Value) :
    (ofYaml wildcard v).Covers (Data.ofYaml v) := by
  rw [← ofData_ofYaml]
  apply covers_ofData

theorem length_ofYamlItems (wildcard : String) (vs : List Yaml.Value) :
    (ofYamlItems wildcard vs).length = vs.length := by
  induction vs with
  | nil => rfl
  | cons v vs ih =>
    unfold ofYamlItems
    rw [List.length_cons, List.length_cons, ih]

mutual

theorem positionsFit_ofYaml (wildcard : String) {v : Yaml.Value} (hv : v.positionsFit = true) :
    (ofYaml wildcard v).positionsFit = true := by
  cases v with
  | null => rfl
  | boolean b => rfl
  | number n => rfl
  | string s =>
    unfold ofYaml
    split <;> rfl
  | sequence items =>
    unfold Yaml.Value.positionsFit at hv
    rw [Bool.and_eq_true, decide_eq_true_eq] at hv
    unfold ofYaml positionsFit
    rw [Bool.and_eq_true, decide_eq_true_eq, length_ofYamlItems]
    exact ⟨hv.1, positionsFit_ofYamlItems wildcard hv.2⟩
  | mapping entries =>
    unfold Yaml.Value.positionsFit at hv
    unfold ofYaml positionsFit
    rw [positionsFitEntries_iff]
    intro e he
    apply positionsFit_ofYamlEntries wildcard hv
    exact Entries.mem_of_mem_ofPairs e he
  | tagged tag v =>
    unfold Yaml.Value.positionsFit at hv
    unfold ofYaml
    exact positionsFit_ofYaml wildcard hv

theorem positionsFit_ofYamlItems (wildcard : String) {vs : List Yaml.Value}
    (hvs : Yaml.Value.positionsFitItems vs = true) :
    positionsFitItems (ofYamlItems wildcard vs) = true := by
  cases vs with
  | nil => rfl
  | cons v vs =>
    unfold Yaml.Value.positionsFitItems at hvs
    rw [Bool.and_eq_true] at hvs
    unfold ofYamlItems positionsFitItems
    rw [positionsFit_ofYaml wildcard hvs.1, positionsFit_ofYamlItems wildcard hvs.2]
    rfl

theorem positionsFit_ofYamlEntries (wildcard : String) {es : List (Yaml.Value × Yaml.Value)}
    (hes : Yaml.Value.positionsFitEntries es = true) :
    ∀ e ∈ ofYamlEntries wildcard es, e.2.positionsFit = true := by
  cases es with
  | nil => simp [ofYamlEntries]
  | cons e es =>
    unfold Yaml.Value.positionsFitEntries at hes
    rw [Bool.and_eq_true] at hes
    unfold ofYamlEntries
    rw [List.forall_mem_cons]
    exact ⟨positionsFit_ofYaml wildcard hes.1, positionsFit_ofYamlEntries wildcard hes.2⟩

end

end Template

namespace Data

mutual

theorem keysDistinct_ofYaml (v : Yaml.Value) : (ofYaml v).keysDistinct = true := by
  cases v with
  | sequence items =>
    unfold ofYaml keysDistinct
    rw [keysDistinctItems_iff]
    exact keysDistinct_ofYamlItems items
  | mapping entries =>
    unfold ofYaml
    rw [keysDistinct_mapping_iff]
    constructor
    . apply Entries.nodup_keys_ofPairs
    . intro e he
      apply keysDistinct_ofYamlEntries entries
      exact Entries.mem_of_mem_ofPairs e he
  | tagged tag v =>
    unfold ofYaml
    exact keysDistinct_ofYaml v
  | _ => rfl

theorem keysDistinct_ofYamlItems (vs : List Yaml.Value) :
    ∀ d ∈ ofYamlItems vs, d.keysDistinct = true := by
  cases vs with
  | nil => simp [ofYamlItems]
  | cons v vs =>
    unfold ofYamlItems
    rw [List.forall_mem_cons]
    exact ⟨keysDistinct_ofYaml v, keysDistinct_ofYamlItems vs⟩

theorem keysDistinct_ofYamlEntries (es : List (Yaml.Value × Yaml.Value)) :
    ∀ e ∈ ofYamlEntries es, e.2.keysDistinct = true := by
  cases es with
  | nil => simp [ofYamlEntries]
  | cons e es =>
    unfold ofYamlEntries
    rw [List.forall_mem_cons]
    exact ⟨keysDistinct_ofYaml e.2, keysDistinct_ofYamlEntries es⟩

end

end Data

namespace Validator

theorem validateOne_of_covers {v : Validator} (hv : v.paths = []) {t : Template}
    (ht : t.positionsFit = true) {d : Data} (hd : d.keysDistinct = true) (hcovers : t.Covers d) :
    ((v.load t).validateOne Matcher.byPath d).run.run ()
      = (.ok (if v.strict then true else decide (0 < t.leafCount)), ()) := by
  have hall : ∀ l ∈ t.leaves, (Path.ofLeaf l).selectsAny d = true := by
    intro l hl
    exact t.selectsAny_of_covers hd hcovers hl
  rw [validateOne_load hv ht]
  cases v.strict with
  | true =>
    rw [if_pos rfl, if_pos rfl, List.all_eq_true.mpr hall]
  | false =>
    rw [if_neg Bool.false_ne_true, if_neg Bool.false_ne_true, ← Template.length_leaves]
    cases hleaves : t.leaves with
    -- without a leaf there is no path that could match
    | nil => rfl
    | cons l ls =>
      rw [List.any_cons, hall l (by rw [hleaves]; exact List.mem_cons_self)]
      rfl

/--
A template validates the document it came from, also with something else for the wildcards.
-/
theorem validateOne_ofYaml {v : Validator} (hv : v.paths = []) (wildcard : String)
    {y : Yaml.Value} (hy : y.positionsFit = true) {d : Data}
    (hd : d = .ofYaml y ∨ ∃ f : Place → Data,
      (∀ p, (p, .wildcard) ∈ (Template.ofYaml wildcard y).leaves →
        (f p).keysDistinct = true ∧ ((f p).isScalar = true ∨ (f p).branches ≠ []))
      ∧ d = (Template.ofYaml wildcard y).fill f (.ofYaml y)) :
    ((v.load (.ofYaml wildcard y)).validateOne Matcher.byPath d).run.run ()
      = (.ok (if v.strict then true else decide (0 < (Template.ofYaml wildcard y).leafCount)),
        ()) := by
  have hcovers := Template.covers_ofYaml wildcard y
  have hkeys := Data.keysDistinct_ofYaml y
  have hfits := Template.positionsFit_ofYaml wildcard hy
  rcases hd with hd | ⟨f, hf, hd⟩
  . rw [hd]
    exact validateOne_of_covers hv hfits hkeys hcovers
  . rw [hd]
    apply validateOne_of_covers hv hfits
    . exact Template.keysDistinct_fill hkeys fun p hp => (hf p hp).1
    . exact Template.covers_fill hcovers fun p hp => (hf p hp).2

theorem validateOne_ofYaml_wildcard_filled :
    (((⟨{}, true, []⟩ : Validator).load (.ofYaml "*" (.mapping
          [(.boolean true, .string "*"), (.string "b", .sequence [.number (.integer 7)])]))
        ).validateOne Matcher.byPath (.mapping
          [("true", .sequence [.null]), ("b", .sequence [.number (.integer 7)])])).run.run ()
      = (.ok true, ()) :=
  validateOne_ofYaml rfl "*" rfl
    (.inr ⟨fun _ => .sequence [.null], fun _ _ => ⟨rfl, .inr (List.cons_ne_nil _ _)⟩, rfl⟩)

end Validator

end TemplateCheck
