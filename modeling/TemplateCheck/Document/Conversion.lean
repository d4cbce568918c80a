import TemplateCheck.Json.Parse
import TemplateCheck.Template
import TemplateCheck.Text
import TemplateCheck.Yaml.Block

/-!
This module contains how YAML and JSON values become templates and candidate data.
-/

namespace TemplateCheck

/--
The number of a candidate: an integer that does not fit 64 bits with a sign becomes a floating point
value.
-/
def Number.narrow : Number → Number
  | .integer i => if fitsSigned i then .integer i else .float (.ofInt i)
  | .float x => .float x

namespace Yaml

/--
The text of a key. A scalar has the text that it has as candidate data, and a collection its block
text without the white space at its end; where that cannot be written the text is empty.
-/
def Value.keyText : Value → String
  | .null => ""
  | .boolean b => if b then "true" else "false"
  | .number n => n.narrow.text
  | .string s => s
  | .tagged _ v => keyText v
  | v => (v.blockText?.map fun s => String.ofList (Text.trimEnd s)).getD ""

end Yaml

namespace Data

mutual

/--
The candidate that a YAML value denotes. Tags are dropped, and of keys with the same text the first
gives the place and the last the value.
-/
def ofYaml : Yaml.Value → Data
  | .null => .null
  | .boolean b => .boolean b
  | .number n => .number n.narrow
  | .string s => .string s
  | .sequence items => .sequence (ofYamlItems items)
  | .mapping entries => .mapping (Entries.ofPairs (ofYamlEntries entries))
  | .tagged _ v => ofYaml v

def ofYamlItems : List Yaml.Value → List Data
  | [] => []
  | v :: vs => ofYaml v :: ofYamlItems vs

def ofYamlEntries : List (Yaml.Value × Yaml.Value) → List (String × Data)
  | [] => []
  | (k, v) :: es => (k.keyText, ofYaml v) :: ofYamlEntries es

end

mutual

def ofJson : Json.Value → Data
  | .null => .null
  | .boolean b => .boolean b
  | .number n => .number n.narrow
  | .string s => .string s
  | .array items => .sequence (ofJsonItems items)
  | .object entries => .mapping (Entries.ofPairs (ofJsonEntries entries))

def ofJsonItems : List Json.Value → List Data
  | [] => []
  | v :: vs => ofJson v :: ofJsonItems vs

def ofJsonEntries : List (String × Json.Value) → List (String × Data)
  | [] => []
  | (k, v) :: es => (k, ofJson v) :: ofJsonEntries es

end

end Data

namespace Template

mutual

/--
The template that a YAML value denotes: a string equal to the wildcard accepts anything, and every
other scalar keeps the text that it has as candidate data.
-/
def ofYaml (wildcard : String) : Yaml.Value → Template
  | .null => .scalar ""
  | .boolean b => .scalar (if b then "true" else "false")
  | .number n => .scalar n.narrow.text
  | .string s => if s = wildcard then .wildcard else .scalar s
  | .sequence items => .sequence (ofYamlItems wildcard items)
  | .mapping entries => .mapping (Entries.ofPairs (ofYamlEntries wildcard entries))
  | .tagged _ v => ofYaml wildcard v

def ofYamlItems (wildcard : String) : List Yaml.Value → List Template
  | [] => []
  | v :: vs => ofYaml wildcard v :: ofYamlItems wildcard vs

def ofYamlEntries (wildcard : String) : List (Yaml.Value × Yaml.Value) → List (String × Template)
  | [] => []
  | (k, v) :: es => (k.keyText, ofYaml wildcard v) :: ofYamlEntries wildcard es

end

end Template

end TemplateCheck
