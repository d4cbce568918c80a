import TemplateCheck.Data

/-!
This module contains the values that a YAML document denotes, and when two of them are the same key
of a mapping.
-/

namespace TemplateCheck

namespace Yaml

/--
What a YAML node denotes. Integers lie within 64 bits, with or without a sign. The keys of a mapping
are in document order, no two of them the same. The name of a tag is kept without the mark `!` in
front of it.
-/
inductive Value where
  | null
  | boolean (value : Bool)
  | number (value : Number)
  | string (value : String)
  | sequence (items : List Value)
  | mapping (entries : List (Value × Value))
  | tagged (tag : String) (value : Value)
  deriving Repr, Inhabited

def tagName (tag : List Char) : List Char :=
  match tag with
  | '!' :: c :: s => c :: s
  | _ => tag

/--
Whether two numbers are the same key. An integer and a floating point value never are, and what is
no number is the same as itself.
-/
def sameNumber : Number → Number → Bool
  | .integer i, .integer j => i == j
  | .float x, .float y => (x.isNaN && y.isNaN) || x.equal y
  | _, _ => false

namespace Value

mutual

def same : Value → Value → Bool
  | .null, .null => true
  | .boolean a, .boolean b => a == b
  | .number m, .number n => sameNumber m n
  | .string s, .string t => s == t
  | .sequence xs, .sequence ys => sameItems xs ys
  | .mapping es, .mapping fs => es.length == fs.length && sameEntries es fs
  | .tagged s v, .tagged t w => s == t && same v w
  | _, _ => false

def sameItems : List Value → List Value → Bool
  | [], [] => true
  | x :: xs, y :: ys => same x y && sameItems xs ys
  | _, _ => false

def sameEntries : List (Value × Value) → List (Value × Value) → Bool
  | [], _ => true
  | (k, v) :: es, fs => fs.any (fun f => same k f.1 && same v f.2) && sameEntries es fs

end

end Value

end Yaml

end TemplateCheck
