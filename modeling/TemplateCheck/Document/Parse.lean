import TemplateCheck.Document.Conversion
import TemplateCheck.Json.Parse
import TemplateCheck.Text
import TemplateCheck.Yaml.Document

/-!
This module contains the reading of templates and candidate data from text: YAML of one or of
several documents, and JSON Lines.
-/

namespace TemplateCheck

namespace Document

inductive Error where
  | template
  | data
  | noDocuments
  | invalidYaml (document : Nat)
  | noJson
  | invalidJson (line : Nat)
  deriving DecidableEq, Repr

def Error.message : Error → String
  | .template => "Failed to parse template"
  | .data => "Failed to parse data"
  | .noDocuments => "No YAML documents found"
  | .invalidYaml document => s!"Invalid YAML in document {document}"
  | .noJson => "No valid JSON found in JSONL content"
  | .invalidJson line => s!"Invalid JSON on line {line}"

def template (wildcard text : String) : Except Error Template :=
  match Yaml.single? text with
  | some v => .ok (Template.ofYaml wildcard v)
  | none => .error .template

def data (text : String) : Except Error Data :=
  match Yaml.single? text with
  | some v => .ok (Data.ofYaml v)
  | none => .error .data

def values (text : String) : Except Error (List Yaml.Value) :=
  if Text.allBlank text.toList then
    .error .noDocuments
  else
    (Yaml.documents text).mapError .invalidYaml

def templates (wildcard text : String) : Except Error (List Template) :=
  (values text).map fun vs => vs.map (Template.ofYaml wildcard)

def candidates (text : String) : Except Error (List Data) :=
  (values text).map fun vs => vs.map Data.ofYaml

def jsonLines (text : String) : Except Error (List Data) := do
  let lines := ((Text.lines text.toList).zipIdx 1).filter fun l => !Text.allBlank l.1
  let read (l : List Char × Nat) : Except Error Data :=
    match Json.parse? (String.ofList l.1) with
    | some v => .ok (Data.ofJson v)
    | none => .error (.invalidJson l.2)
  match ← lines.mapM read with
  | [] => .error .noJson
  | ds => .ok ds

end Document

end TemplateCheck
