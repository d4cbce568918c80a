import TemplateCheck.Decimal.Numeral
import TemplateCheck.Text
import TemplateCheck.Yaml.Value

/-!
This module contains what a plain scalar denotes by its text: null, a truth value, a number, or else
the text itself.
-/

namespace TemplateCheck

namespace Yaml

namespace Plain

def isNull (s : List Char) : Bool :=
  ["null", "Null", "NULL", "~"].any fun w => w.toList == s

def boolean? (s : List Char) : Option Bool :=
  if ["true", "True", "TRUE"].any fun w => w.toList == s then some true
  else if ["false", "False", "FALSE"].any fun w => w.toList == s then some false
  else none

def dropMark (mark : Char) : List Char → List Char
  | c :: s => if c = mark then s else c :: s
  | [] => []

def hasLeadingZero (s : List Char) : Bool :=
  let digits := match s with
    | '-' :: s => s
    | s => dropMark '+' s
  match digits with
  | '0' :: c :: s => (c :: s).all Char.isDigit
  | _ => false

def magnitude? (base : Nat) (s : List Char) : Option Nat :=
  if s.isEmpty then
    none
  else
    s.foldlM (fun n c => do
      let d ← Text.hexValue? c
      if d < base then some (base * n + d) else none) 0

def unsigned? (s : List Char) : Option Nat :=
  match s with
  | '0' :: 'x' :: digits => magnitude? 16 digits
  | '0' :: 'o' :: digits => magnitude? 8 digits
  | '0' :: 'b' :: digits => magnitude? 2 digits
  | digits => magnitude? 10 digits

def integer? (s : List Char) : Option Int :=
  if hasLeadingZero s then
    none
  else
    match s with
    | '-' :: s => (unsigned? s).map fun n => -(n : Int)
    | s => (unsigned? (dropMark '+' s)).map fun n => (n : Int)

def float? (s : List Char) : Option Binary64 :=
  if [".inf", ".Inf", ".INF"].any fun w => w.toList == dropMark '+' s then
    some (.infinite false)
  else if ["-.inf", "-.Inf", "-.INF"].any fun w => w.toList == s then
    some (.infinite true)
  else if [".nan", ".NaN", ".NAN"].any fun w => w.toList == s then
    some .nan
  else
    match Numeral.read? s with
    | some n => if n.value.isFinite then some n.value else none
    | none => none

/--
What an integer gives: a number within 64 bits, a refusal if it needs up to 128 bits, and nothing
beyond.
-/
inductive Fit where
  | number (n : Number)
  | refused
  | tooLarge

def wideBound : Int :=
  0x100000000000000000000000000000000

def fit (i : Int) : Fit :=
  if fitsSigned i || (0 ≤ i && fitsWord i.toNat) then .number (.integer i)
  else if -wideBound ≤ 2 * i ∧ i < wideBound then .refused
  else .tooLarge

def value? (s : List Char) : Option Value :=
  if s.isEmpty || isNull s then
    some .null
  else
    match boolean? s with
    | some b => some (.boolean b)
    | none =>
      match (integer? s).map fit with
      | some (.number n) => some (.number n)
      | some .refused => none
      | _ =>
        if hasLeadingZero s then
          some (.string (String.ofList s))
        else
          match float? s with
          | some x => some (.number (.float x))
          | none => some (.string (String.ofList s))

/--
What a scalar denotes under a tag of the core schema, whose text it has to fit. Under any other tag
it denotes its text.
-/
def underTag? (tag : String) (s : List Char) : Option Value :=
  match tag with
  | "tag:yaml.org,2002:null" => if isNull s then some .null else none
  | "tag:yaml.org,2002:bool" => (boolean? s).map .boolean
  | "tag:yaml.org,2002:int" =>
    match (integer? s).map fit with
    | some (.number n) => some (.number n)
    | _ => none
  | "tag:yaml.org,2002:float" => (float? s).map fun x => .number (.float x)
  | _ => some (.string (String.ofList s))

end Plain

end Yaml

end TemplateCheck
