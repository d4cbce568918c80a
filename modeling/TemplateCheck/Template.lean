import TemplateCheck.Entries

/-!
This module contains templates: trees of the shape of candidate data, in which a leaf is either
text to compare with or a wildcard.
-/

namespace TemplateCheck

/--
A template. The keys of a mapping are distinct, in document order. Every scalar is kept as text; the
text `*` in a scalar is literal and no wildcard.
-/
inductive Template where
  | wildcard
  | scalar (text : String)
  | sequence (items : List Template)
  | mapping (entries : List (String × Template))
  deriving Repr, Inhabited

namespace Template

mutual

def leafCount : Template → Nat
  | .wildcard => 1
  | .scalar _ => 1
  | .sequence items => leafCountItems items
  | .mapping entries => leafCountEntries entries

def leafCountItems : List Template → Nat
  | [] => 0
  | t :: ts => leafCount t + leafCountItems ts

def leafCountEntries : List (String × Template) → Nat
  | [] => 0
  | (_, t) :: es => leafCount t + leafCountEntries es

end

end Template

end TemplateCheck
