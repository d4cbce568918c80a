import TemplateCheck.Yaml.Plain
import TemplateCheck.Yaml.Reader

/-!
This module contains the values of YAML documents: scalars are understood, aliases followed, and
mappings checked for repeated keys.
-/

namespace TemplateCheck

namespace Yaml

def depthLimit : Nat :=
  128

def keptTag? : List Char → Option String
  | '!' :: s => some (String.ofList (tagName ('!' :: s)))
  | _ => none

def addEntry? (es : List (Value × Value)) (k v : Value) : Option (List (Value × Value)) :=
  if es.any fun e => e.1.same k then none else some (es ++ [(k, v)])

def mapping? (entries : List (Value × Value)) : Option Value :=
  (entries.foldlM (fun es e => addEntry? es e.1 e.2) []).map .mapping

def scalarValue? (tag? : Option (List Char)) (plain : Bool) (text : List Char) : Option Value :=
  match tag? with
  | some tag =>
    if (keptTag? tag).isSome then untagged? else Plain.underTag? (String.ofList tag) text
  | none => untagged?
where
  untagged? : Option Value :=
    if plain then Plain.value? text else some (.string (String.ofList text))

def withTag (tag? : Option (List Char)) (v : Value) : Value :=
  match tag?.bind keptTag? with
  | some tag => .tagged tag v
  | none => v

abbrev Following := StateT Nat Option

def followOnce : Following Unit := do
  match ← get with
  | 0 => failure
  | n + 1 => set n

def target (anchored : List (Nat × Node)) : Node → Following Node
  | .alias target => do
    followOnce
    -- of several nodes with one number an alias means the last
    (anchored.reverse.lookup target : Option Node)
  | n => pure n

def valueWith (inside? : Option (Node → Following Value)) : Node → Following Value
  | .alias _ => failure
  | .scalar _ tag? plain text => do return withTag tag? (← scalarValue? tag? plain text)
  | .sequence _ tag? items => do
    let inside ← inside?
    return withTag tag? (.sequence (← items.mapM inside))
  | .mapping _ tag? entries => do
    let inside ← inside?
    let entries ← entries.mapM fun (k, v) => do return (← inside k, ← inside v)
    return withTag tag? (← mapping? entries)

/--
The value of a node. Collections may stand inside of each other up to the depth given, those that an
alias leads to included.
-/
def valueOf (anchored : List (Nat × Node)) : Nat → Node → Following Value
  | 0, n => do valueWith none (← target anchored n)
  | depth + 1, n => do valueWith (some (valueOf anchored depth)) (← target anchored n)

def Node.value? (root : Node) : Option Value :=
  -- aliases may be followed a hundred times for each step of the document
  ((valueOf root.anchored depthLimit root).run (100 * root.steps)).map Prod.fst

/--
The values of the documents of a text, up to the first one with a fault, whose number, counted from
one, is the error.
-/
def documents (text : String) : Except Nat (List Value) :=
  go 1 (Node.ofText text.toList)
where
  go : Nat → List (Option Node) → Except Nat (List Value)
    | _, [] => .ok []
    | i, n? :: ns =>
      match n?.bind Node.value? with
      | none => .error i
      | some v => (go (i + 1) ns).map (v :: ·)

def single? (text : String) : Option Value :=
  match documents text with
  | .ok [v] => some v
  | _ => none

end Yaml

end TemplateCheck
