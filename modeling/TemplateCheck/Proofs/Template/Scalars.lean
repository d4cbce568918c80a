import TemplateCheck.Proofs.Compile.Leaves
import TemplateCheck.Proofs.Document.Own

/-!
This module contains the leaves of the template of a document: one for every scalar of the document,
in its place.
-/

namespace TemplateCheck

namespace Template

def leafOf (wildcard : String) (d : Data) : Leaf :=
  match d with
  | .string s => if s = wildcard then .wildcard else .scalar s
  | d => .scalar (d.text?.getD "")

theorem ofData_of_isScalar (wildcard : String) {d : Data} (hd : d.isScalar = true) :
    ofData wildcard d = (leafOf wildcard d).template := by
  cases d with
  | sequence items => contradiction
  | mapping entries => contradiction
  | string s =>
    unfold ofData leafOf
    dsimp only
    split <;> rfl
  | _ => rfl

theorem ofDataItems_eq_map (wildcard : String) (ds : List Data) :
    ofDataItems wildcard ds = ds.map (ofData wildcard) := by
  induction ds with
  | nil => rfl
  | cons d ds ih =>
    unfold ofDataItems
    rw [ih, List.map_cons]

theorem isContainer_ofData (wildcard : String) (d : Data) :
    (ofData wildcard d).isContainer = d.isContainer := by
  cases d with
  | string s =>
    unfold ofData
    split <;> rfl
  | _ => rfl

theorem branches_ofData (wildcard : String) (d : Data) :
    (ofData wildcard d).branches = d.branches.map fun b => (b.1, ofData wildcard b.2) := by
  cases d with
  | string s =>
    unfold ofData
    split <;> rfl
  | sequence items =>
    rw [ofData, ofDataItems_eq_map]
    unfold branches Data.branches
    dsimp only
    rw [List.zipIdx_map, List.map_map, List.map_map]
    rfl
  | mapping entries =>
    rw [ofData, ofDataEntries_eq_map]
    unfold branches Data.branches
    dsimp only
    rw [List.map_map, List.map_map]
    rfl
  | _ => rfl

theorem ofData_eq_template_iff (wildcard : String) {d : Data} {leaf : Leaf} :
    ofData wildcard d = leaf.template ↔ d.isScalar = true ∧ leaf = leafOf wildcard d := by
  constructor
  . intro h
    have hscalar : d.isScalar = true := by
      rw [Data.isScalar, ← isContainer_ofData wildcard, h, isContainer_template]
      rfl
    rw [ofData_of_isScalar wildcard hscalar, template_inj] at h
    exact ⟨hscalar, h.symm⟩
  . rintro ⟨hscalar, rfl⟩
    exact ofData_of_isScalar wildcard hscalar

theorem mem_leaves_ofData_iff (wildcard : String) {d : Data} (hd : d.keysDistinct = true)
    {p : Place} {leaf : Leaf} :
    (p, leaf) ∈ (ofData wildcard d).leaves
      ↔ ∃ c, d.at? p = some c ∧ c.isScalar = true ∧ leaf = leafOf wildcard c := by
  induction p generalizing d with
  | nil =>
    rw [nil_mem_leaves_iff, ofData_eq_template_iff, Data.at?_nil]
    simp
  | cons b p ih =>
    rw [cons_mem_leaves_iff, branches_ofData, Data.at?_cons]
    constructor
    . rintro ⟨t, ht, hl⟩
      obtain ⟨⟨b', c⟩, hc, ht⟩ := List.mem_map.mp ht
      cases ht
      rw [ih (Data.keysDistinct_of_mem_branches hd hc)] at hl
      rw [(Data.mem_branches_iff hd).mp hc]
      exact hl
    . rintro ⟨e, hat, hleaf⟩
      obtain ⟨c, hc, hat⟩ := Option.bind_eq_some_iff.mp hat
      rw [← Data.mem_branches_iff hd] at hc
      refine ⟨ofData wildcard c, List.mem_map_of_mem hc, ?_⟩
      rw [ih (Data.keysDistinct_of_mem_branches hd hc)]
      exact ⟨e, hat, hleaf⟩

theorem mem_leaves_ofYaml_iff (wildcard : String) (y : Yaml.Value) {p : Place} {leaf : Leaf} :
    (p, leaf) ∈ (ofYaml wildcard y).leaves
      ↔ ∃ c, (Data.ofYaml y).at? p = some c ∧ c.isScalar = true ∧ leaf = leafOf wildcard c := by
  rw [← ofData_ofYaml]
  exact mem_leaves_ofData_iff wildcard (Data.keysDistinct_ofYaml y)

end Template

end TemplateCheck
