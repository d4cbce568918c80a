import TemplateCheck.Document.Parse
import TemplateCheck.Proofs.Data.Entries

/-!
This module contains that a document read as a template is the document read as a candidate, with
every scalar replaced by its text or by the wildcard, and what becomes of keys with the same text.
-/

namespace TemplateCheck

namespace Template

mutual

def ofData (wildcard : String) : Data → Template
  | .string s => if s = wildcard then .wildcard else .scalar s
  | .sequence items => .sequence (ofDataItems wildcard items)
  | .mapping entries => .mapping (ofDataEntries wildcard entries)
  | d => .scalar (d.text?.getD "")

def ofDataItems (wildcard : String) : List Data → List Template
  | [] => []
  | d :: ds => ofData wildcard d :: ofDataItems wildcard ds

def ofDataEntries (wildcard : String) : List (String × Data) → List (String × Template)
  | [] => []
  | (k, d) :: es => (k, ofData wildcard d) :: ofDataEntries wildcard es

end

theorem ofDataEntries_eq_map (wildcard : String) (es : List (String × Data)) :
    ofDataEntries wildcard es = es.map fun e => (e.1, ofData wildcard e.2) := by
  induction es with
  | nil => rfl
  | cons e es ih =>
    unfold ofDataEntries
    rw [ih, List.map_cons]

theorem ofDataEntries_ofPairs (wildcard : String) (pairs : List (String × Data)) :
    ofDataEntries wildcard (Entries.ofPairs pairs)
      = Entries.ofPairs (ofDataEntries wildcard pairs) := by
  rw [ofDataEntries_eq_map, ofDataEntries_eq_map, Entries.map_ofPairs]

mutual

theorem ofData_ofYaml (wildcard : String) (v : Yaml.Value) :
    ofData wildcard (Data.ofYaml v) = ofYaml wildcard v := by
  cases v with
  | null => rfl
  | boolean b => rfl
  | number n => rfl
  | string s => rfl
  | sequence items =>
    unfold ofYaml Data.ofYaml ofData
    rw [ofDataItems_ofYamlItems]
  | mapping entries =>
    unfold ofYaml Data.ofYaml ofData
    rw [ofDataEntries_ofPairs, ofDataEntries_ofYamlEntries]
  | tagged tag v =>
    unfold ofYaml Data.ofYaml
    exact ofData_ofYaml wildcard v

theorem ofDataItems_ofYamlItems (wildcard : String) (vs : List Yaml.Value) :
    ofDataItems wildcard (Data.ofYamlItems vs) = ofYamlItems wildcard vs := by
  cases vs with
  | nil => rfl
  | cons v vs =>
    unfold ofYamlItems Data.ofYamlItems ofDataItems
    rw [ofData_ofYaml, ofDataItems_ofYamlItems]

theorem ofDataEntries_ofYamlEntries (wildcard : String) (es : List (Yaml.Value × Yaml.Value)) :
    ofDataEntries wildcard (Data.ofYamlEntries es) = ofYamlEntries wildcard es := by
  cases es with
  | nil => rfl
  | cons e es =>
    unfold ofYamlEntries Data.ofYamlEntries ofDataEntries
    rw [ofData_ofYaml, ofDataEntries_ofYamlEntries]

end

theorem ofYamlEntries_eq_map (wildcard : String) (es : List (Yaml.Value × Yaml.Value)) :
    ofYamlEntries wildcard es = es.map fun e => (e.1.keyText, ofYaml wildcard e.2) := by
  induction es with
  | nil => rfl
  | cons e es ih =>
    unfold ofYamlEntries
    rw [ih, List.map_cons]

end Template

theorem Data.ofYamlEntries_eq_map (es : List (Yaml.Value × Yaml.Value)) :
    ofYamlEntries es = es.map fun e => (e.1.keyText, ofYaml e.2) := by
  induction es with
  | nil => rfl
  | cons e es ih =>
    unfold ofYamlEntries
    rw [ih, List.map_cons]

namespace Document

/--
Whether a mapping arises from the entries of a document, with their values converted by `f`: its
keys are the texts of the keys, each where it occurs first, and each with the value of the last
entry of that text.
-/
structure Collapses {α : Type} (f : Yaml.Value → α) (entries : List (Yaml.Value × Yaml.Value))
    (es : Entries String α) : Prop where
  nodup : (Entries.keys es).Nodup
  keys_eq : Entries.keys es = (entries.map fun e => e.1.keyText).eraseDups
  mem_iff : ∀ k x, (k, x) ∈ es ↔ ∃ before key v after, entries = before ++ (key, v) :: after
    ∧ key.keyText = k ∧ (∀ e ∈ after, e.1.keyText ≠ k) ∧ x = f v

variable {α : Type} (f : Yaml.Value → α) (entries : List (Yaml.Value × Yaml.Value))

theorem not_mem_keys_map_iff (k : String) :
    k ∉ Entries.keys (entries.map fun e => (e.1.keyText, f e.2))
      ↔ ∀ e ∈ entries, e.1.keyText ≠ k := by
  simp [Entries.keys]

theorem mem_ofPairs_map_iff (k : String) (x : α) :
    (k, x) ∈ Entries.ofPairs (entries.map fun e => (e.1.keyText, f e.2))
      ↔ ∃ before key v after, entries = before ++ (key, v) :: after
        ∧ key.keyText = k ∧ (∀ e ∈ after, e.1.keyText ≠ k) ∧ x = f v := by
  rw [Entries.mem_ofPairs_iff]
  constructor
  . intro ⟨before, after, hpairs, hafter⟩
    rw [List.map_eq_append_iff] at hpairs
    obtain ⟨before, rest, hentries, _, hrest⟩ := hpairs
    rw [List.map_eq_cons_iff] at hrest
    obtain ⟨⟨key, v⟩, after, rfl, hkey, rfl⟩ := hrest
    rw [Prod.mk.injEq] at hkey
    rw [not_mem_keys_map_iff] at hafter
    exact ⟨before, key, v, after, hentries, hkey.1, hafter, hkey.2.symm⟩
  . intro ⟨before, key, v, after, hentries, hkey, hafter, hx⟩
    rw [← not_mem_keys_map_iff f] at hafter
    rw [hentries, List.map_append, List.map_cons, hkey, hx]
    exact ⟨_, _, rfl, hafter⟩

theorem collapses_ofPairs :
    Collapses f entries (Entries.ofPairs (entries.map fun e => (e.1.keyText, f e.2))) where
  nodup := Entries.nodup_keys_ofPairs _
  keys_eq := by
    rw [Entries.keys_ofPairs, Entries.keys, List.map_map]
    rfl
  mem_iff := mem_ofPairs_map_iff f entries

/--
A document reads the same as a template and as a candidate. The template is that of the candidate,
for every value and for all documents of a text, with the same errors, and in both trees keys with
the same text collapse in the same way.
-/
theorem templates_eq_map_candidates (wildcard : String) :
    (∀ v, Template.ofYaml wildcard v = Template.ofData wildcard (Data.ofYaml v))
      ∧ (∀ text, templates wildcard text
        = (candidates text).map (List.map (Template.ofData wildcard)))
      ∧ ∀ entries, ∃ es fs, Data.ofYaml (.mapping entries) = .mapping es
        ∧ Template.ofYaml wildcard (.mapping entries) = .mapping fs
        ∧ Collapses Data.ofYaml entries es ∧ Collapses (Template.ofYaml wildcard) entries fs := by
  refine ⟨?_, ?_, ?_⟩
  . intro v
    exact (Template.ofData_ofYaml wildcard v).symm
  . intro text
    unfold templates candidates
    cases values text with
    | error e => rfl
    | ok vs =>
      change Except.ok (vs.map (Template.ofYaml wildcard))
        = .ok ((vs.map Data.ofYaml).map (Template.ofData wildcard))
      rw [List.map_map]
      congr 1
      apply List.map_congr_left
      intro v _
      exact (Template.ofData_ofYaml wildcard v).symm
  . intro entries
    refine ⟨_, _, rfl, rfl, ?_, ?_⟩
    . rw [Data.ofYamlEntries_eq_map]
      exact collapses_ofPairs Data.ofYaml entries
    . rw [Template.ofYamlEntries_eq_map]
      exact collapses_ofPairs (Template.ofYaml wildcard) entries

end Document

end TemplateCheck
