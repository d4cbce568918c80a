import TemplateCheck.Decimal.Shortest
import TemplateCheck.Entries

/-!
This module contains the trees of candidate data, the text of their scalars, and the places in
them.
-/

namespace TemplateCheck

inductive Number where
  | integer (value : Int)
  | float (value : Binary64)
  deriving DecidableEq, Repr

def Number.text : Number → String
  | .integer i => toString i
  | .float x => String.ofList x.plainText

inductive Data where
  | null
  | boolean (value : Bool)
  | number (value : Number)
  | string (value : String)
  | sequence (items : List Data)
  | mapping (entries : List (String × Data))
  deriving Repr, Inhabited

namespace Data

def isContainer : Data → Bool
  | .sequence _ | .mapping _ => true
  | _ => false

def isScalar (d : Data) : Bool :=
  !d.isContainer

/--
The text of a scalar, which value predicates compare with: null has the empty one. A container has
none.
-/
def text? : Data → Option String
  | .null => some ""
  | .boolean b => some (if b then "true" else "false")
  | .number n => some n.text
  | .string s => some s
  | .sequence _ | .mapping _ => none

def get? (key : String) : Data → Option Data
  | .mapping es => Entries.get? key es
  | _ => none

end Data

inductive Branch where
  | key (name : String)
  | index (position : Nat)
  deriving DecidableEq, Repr

namespace Branch

def index? : Branch → Option Nat
  | .key _ => none
  | .index i => some i

end Branch

abbrev Place := List Branch

namespace Data

def branches : Data → List (Branch × Data)
  | .mapping es => es.map fun e => (.key e.1, e.2)
  | .sequence xs => xs.zipIdx.map fun x => (.index x.2, x.1)
  | _ => []

def children (d : Data) : List (Option Nat × Data) :=
  d.branches.map fun b => (b.1.index?, b.2)

def step? : Branch → Data → Option Data
  | .key k, .mapping es => Entries.get? k es
  | .index i, .sequence xs => xs[i]?
  | _, _ => none

def at? : Place → Data → Option Data
  | [], d => some d
  | b :: p, d => (d.step? b).bind (at? p)

end Data

end TemplateCheck
