import TemplateCheck.Proofs.Document.Own

/-!
This module contains the YAML value with the structure of a JSON value, and the proof that both
denote the same candidate. With it a template written in YAML accepts the same document from JSON.
-/

namespace TemplateCheck

namespace Json

namespace Value

mutual

def toYaml : Value → Yaml.Value
  | .null => .null
  | .boolean b => .boolean b
  | .number n => .number n
  | .string s => .string s
  | .array items => .sequence (toYamlItems items)
  | .object entries => .mapping (toYamlEntries entries)

def toYamlItems : List Value → List Yaml.Value
  | [] => []
  | j :: js => j.toYaml :: toYamlItems js

def toYamlEntries : List (String × Value) → List (Yaml.Value × Yaml.Value)
  | [] => []
  | (k, j) :: es => (.string k, j.toYaml) :: toYamlEntries es

end

mutual

def positionsFit : Value → Bool
  | .array items => items.length ≤ 0x10000000000000000 && positionsFitItems items
  | .object entries => positionsFitEntries entries
  | _ => true

def positionsFitItems : List Value → Bool
  | [] => true
  | j :: js => j.positionsFit && positionsFitItems js

def positionsFitEntries : List (String × Value) → Bool
  | [] => true
  | (_, j) :: es => j.positionsFit && positionsFitEntries es

end

theorem length_toYamlItems (js : List Value) : (toYamlItems js).length = js.length := by
  induction js with
  | nil => rfl
  | cons j js ih =>
    unfold toYamlItems
    rw [List.length_cons, List.length_cons, ih]

mutual

theorem positionsFit_toYaml (j : Value) : j.toYaml.positionsFit = j.positionsFit := by
  cases j with
  | array items =>
    unfold toYaml positionsFit Yaml.Value.positionsFit
    rw [length_toYamlItems, positionsFitItems_toYamlItems]
  | object entries =>
    unfold toYaml positionsFit Yaml.Value.positionsFit
    exact positionsFitEntries_toYamlEntries entries
  | _ => rfl

theorem positionsFitItems_toYamlItems (js : List Value) :
    Yaml.Value.positionsFitItems (toYamlItems js) = positionsFitItems js := by
  cases js with
  | nil => rfl
  | cons j js =>
    unfold toYamlItems positionsFitItems Yaml.Value.positionsFitItems
    rw [positionsFit_toYaml, positionsFitItems_toYamlItems]

theorem positionsFitEntries_toYamlEntries (es : List (String × Value)) :
    Yaml.Value.positionsFitEntries (toYamlEntries es) = positionsFitEntries es := by
  cases es with
  | nil => rfl
  | cons e es =>
    unfold toYamlEntries positionsFitEntries Yaml.Value.positionsFitEntries
    rw [positionsFit_toYaml, positionsFitEntries_toYamlEntries]

end

end Value

end Json

namespace Data

mutual

theorem ofYaml_toYaml (j : Json.Value) : ofYaml j.toYaml = ofJson j := by
  cases j with
  | array items =>
    unfold Json.Value.toYaml ofYaml ofJson
    rw [ofYamlItems_toYamlItems]
  | object entries =>
    unfold Json.Value.toYaml ofYaml ofJson
    rw [ofYamlEntries_toYamlEntries]
  | _ => rfl

theorem ofYamlItems_toYamlItems (js : List Json.Value) :
    ofYamlItems (Json.Value.toYamlItems js) = ofJsonItems js := by
  cases js with
  | nil => rfl
  | cons j js =>
    unfold Json.Value.toYamlItems ofYamlItems ofJsonItems
    rw [ofYaml_toYaml, ofYamlItems_toYamlItems]

theorem ofYamlEntries_toYamlEntries (es : List (String × Json.Value)) :
    ofYamlEntries (Json.Value.toYamlEntries es) = ofJsonEntries es := by
  cases es with
  | nil => rfl
  | cons e es =>
    unfold Json.Value.toYamlEntries ofYamlEntries ofJsonEntries
    rw [ofYaml_toYaml, ofYamlEntries_toYamlEntries]
    rfl

end

end Data

namespace Document

/--
A document denotes the same candidate in JSON and in YAML, so a strict validator that was loaded
with the template read from the YAML document accepts the candidate read from the JSON document,
whatever the wildcard is.
-/
theorem ofJson_eq_ofYaml_toYaml (j : Json.Value) :
    Data.ofJson j = Data.ofYaml j.toYaml
      ∧ (j.positionsFit = true → ∀ (wildcard : String) (v : Validator), v.paths = [] →
        v.strict = true →
        ((v.load (Template.ofYaml wildcard j.toYaml)).validateOne Matcher.byPath
          (Data.ofJson j)).run.run () = (.ok true, ())) := by
  constructor
  . exact (Data.ofYaml_toYaml j).symm
  . intro hj wildcard v hv hstrict
    have hfits : (Template.ofYaml wildcard j.toYaml).positionsFit = true := by
      apply Template.positionsFit_ofYaml
      rw [Json.Value.positionsFit_toYaml]
      exact hj
    rw [← Data.ofYaml_toYaml]
    rw [Validator.validateOne_of_covers hv hfits (Data.keysDistinct_ofYaml j.toYaml)
      (Template.covers_ofYaml wildcard j.toYaml)]
    rw [hstrict, if_pos rfl]

theorem ofJson_eq_ofYaml_toYaml_beyond_signed :
    Data.ofJson (.object [("n", .number (.integer 0xFFFFFFFFFFFFFFFF)),
          ("z", .array [.number (.float (.zero true)), .string "*"])])
        = Data.ofYaml (.mapping [(.string "n", .number (.integer 0xFFFFFFFFFFFFFFFF)),
          (.string "z", .sequence [.number (.float (.zero true)), .string "*"])])
      ∧ (((⟨{}, true, []⟩ : Validator).load (.ofYaml "*" (.mapping
          [(.string "n", .number (.integer 0xFFFFFFFFFFFFFFFF)),
            (.string "z", .sequence [.number (.float (.zero true)), .string "*"])]))
        ).validateOne Matcher.byPath (.ofJson (.object
          [("n", .number (.integer 0xFFFFFFFFFFFFFFFF)),
            ("z", .array [.number (.float (.zero true)), .string "*"])]))).run.run ()
        = (.ok true, ()) := by
  obtain ⟨hdata, haccepted⟩ := ofJson_eq_ofYaml_toYaml (.object
    [("n", .number (.integer 0xFFFFFFFFFFFFFFFF)),
      ("z", .array [.number (.float (.zero true)), .string "*"])])
  exact ⟨hdata, haccepted rfl "*" ⟨{}, true, []⟩ rfl rfl⟩

end Document

end TemplateCheck
