import TemplateCheck.Compile.Visitor
import TemplateCheck.Data

/-!
This module contains the paths of a template as a plain recursion that hands the text of the way so
far down, and how often and how far the walk of a template goes down.
-/

namespace TemplateCheck

namespace Template

mutual

def levels : Template → Nat
  | .wildcard | .scalar _ => 0
  | .sequence items => levelsOfItems items + 1
  | .mapping entries => levelsOfEntries entries + 1

def levelsOfItems : List Template → Nat
  | [] => 0
  | t :: ts => t.levels + 1 + levelsOfItems ts

def levelsOfEntries : List (String × Template) → Nat
  | [] => 0
  | (_, t) :: es => t.levels + 1 + levelsOfEntries es

end

mutual

def height : Template → Nat
  | .wildcard | .scalar _ => 0
  | .sequence items => heightOfItems items + 1
  | .mapping entries => heightOfEntries entries + 1

def heightOfItems : List Template → Nat
  | [] => 0
  | t :: ts => max (t.height + 1) (heightOfItems ts)

def heightOfEntries : List (String × Template) → Nat
  | [] => 0
  | (_, t) :: es => max (t.height + 1) (heightOfEntries es)

end

end Template

namespace Compile

def ending (slot : Slot) (leaf : Leaf) : String :=
  match leaf with
  | .wildcard => "/*"
  | .scalar text => opening ++ String.ofList (Path.comparison text.toList) ++ " ]"
where
  opening : String :=
    match slot with
    | .element => "/.[ value "
    | .value => "/*[ value "
    | .key | .root => ".[ value "

def segmentText (options : Options) : Branch → String
  | .key k => String.ofList (Path.keySegment options.quoteAllKeys k.toList)
  | .index i => s!"*[ idx == {i} ]"

def slotOf : Branch → Slot
  | .key _ => .value
  | .index _ => .element

mutual

def plainPaths (options : Options) (pre : String) (slot : Slot) : Template → List String
  | .wildcard => [pre ++ ending slot .wildcard]
  | .scalar text => [pre ++ ending slot (.scalar text)]
  | .sequence items => plainPathsOfItems options (pre ++ "/") 0 items
  | .mapping entries => plainPathsOfEntries options (pre ++ "/") entries

def plainPathsOfItems (options : Options) (pre : String) (i : Nat) : List Template → List String
  | [] => []
  | t :: ts =>
    plainPaths options (pre ++ segmentText options (.index i)) .element t
      ++ plainPathsOfItems options pre (i + 1) ts

def plainPathsOfEntries (options : Options) (pre : String) :
    List (String × Template) → List String
  | [] => []
  | (k, t) :: es =>
    plainPaths options (pre ++ segmentText options (.key k)) .value t
      ++ plainPathsOfEntries options pre es

end

end Compile

end TemplateCheck
