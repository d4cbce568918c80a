import TemplateCheck.Decimal.Binary64

/-!
This module contains the choice of the fewest decimal digits that identify a floating point value,
and the two notations in which they are written.
-/

namespace TemplateCheck

inductive Tie where
  | up
  | even
  deriving DecidableEq, Repr

structure Decimal where
  digits : Nat
  exponent : Int
  deriving DecidableEq, Repr

namespace Decimal

def compareScaled (a : Nat) (i : Int) (n : Nat) (j : Int) : Ordering :=
  compare (a * Nat.pow 10 i.toNat * Nat.pow 2 (-j).toNat)
    (n * Nat.pow 2 j.toNat * Nat.pow 10 (-i).toNat)

/--
Whether a decimal lies among the numbers that are rounded to `m * 2 ^ e`: between the midpoints to
the two neighbouring values, which count if `m` is even. Below a power of two the neighbour is only
half as far away.
-/
def identifies (d : Decimal) (m : Nat) (e : Int) : Bool :=
  -- in quarters of the unit, in which all midpoints are whole
  let low := if m == Binary64.hiddenBit && -1074 < e then 4 * m - 1 else 4 * m - 2
  let high := 4 * m + 2
  let fromLow := compareScaled d.digits d.exponent low (e - 2)
  let toHigh := compareScaled d.digits d.exponent high (e - 2)
  (fromLow == .gt || (m % 2 == 0 && fromLow == .eq)) &&
    (toHigh == .lt || (m % 2 == 0 && toHigh == .eq))

def scale (m : Nat) (e : Int) : Int :=
  -- one too large at most, and two too small
  let estimate := ((m.log2 : Int) + e) * 30103 / 100000
  let fits (k : Int) : Bool := compareScaled 1 k m e == .gt
  if fits (estimate - 1) then estimate - 1
  else if fits estimate then estimate
  else if fits (estimate + 1) then estimate + 1
  else estimate + 2

def onGrid? (tie : Tie) (m : Nat) (e g : Int) : Option Decimal :=
  let below := m * Nat.pow 2 e.toNat * Nat.pow 10 (-g).toNat /
    (Nat.pow 2 (-e).toNat * Nat.pow 10 g.toNat)
  let lower : Decimal := ⟨below, g⟩
  let upper : Decimal := ⟨below + 1, g⟩
  match lower.identifies m e, upper.identifies m e with
  | true, false => some lower
  | false, true => some upper
  | false, false => none
  | true, true =>
    -- the nearer is told by the point half way between them
    match compareScaled (2 * below + 1) g (2 * m) e, tie with
    | .gt, _ => some lower
    | .lt, _ => some upper
    | .eq, .up => some upper
    | .eq, .even => if below % 2 == 0 then some lower else some upper

def exact (m : Nat) (e : Int) : Decimal :=
  if 0 ≤ e then ⟨m * Nat.pow 2 e.toNat, 0⟩ else ⟨m * Nat.pow 5 (-e).toNat, e⟩

def stripZeros (digits : Nat) (exponent : Int) : Decimal :=
  if digits ≠ 0 ∧ digits % 10 = 0 then stripZeros (digits / 10) (exponent + 1)
  else ⟨digits, exponent⟩
termination_by digits
decreasing_by omega

/--
The decimal of the fewest digits that identifies `m * 2 ^ e`, the nearest one of that length. The
grids are tried from the coarsest on; seventeen digits always suffice.
-/
def shortest (tie : Tie) (m : Nat) (e : Int) : Decimal :=
  let top := scale m e
  let found := (List.range 17).findSome? fun (n : Nat) => onGrid? tie m e (top - (n + 1))
  let d := found.getD (exact m e)
  stripZeros d.digits d.exponent

def digitText (d : Decimal) : List Char :=
  Nat.toDigits 10 d.digits

def positional (d : Decimal) : List Char :=
  let ds := d.digitText
  if 0 ≤ d.exponent then
    ds ++ List.replicate d.exponent.toNat '0'
  else
    let places := d.exponent.natAbs
    if places < ds.length then
      ds.take (ds.length - places) ++ '.' :: ds.drop (ds.length - places)
    else
      '0' :: '.' :: (List.replicate (places - ds.length) '0' ++ ds)

def scientific (d : Decimal) : List Char :=
  let power := (toString (d.exponent + d.digitText.length - 1)).toList
  match d.digitText with
  | [] => []
  | [c] => c :: 'e' :: power
  | c :: cs => c :: '.' :: (cs ++ 'e' :: power)

end Decimal

namespace Binary64

def renderWith (nan infinite : List Char) (render : Nat → Int → List Char) :
    Binary64 → List Char
  | .nan => nan
  | .infinite negative => withSign negative infinite
  | .finite negative m e => withSign negative (render m e)
where
  withSign (negative : Bool) (s : List Char) : List Char := if negative then '-' :: s else s

/--
The plain text of a value: the fewest digits that identify it, never an exponent, and no point on
a whole number. A tie goes up.
-/
def plainText : Binary64 → List Char :=
  renderWith "NaN".toList "inf".toList fun m e =>
    if m = 0 then ['0'] else (Decimal.shortest .up m e).positional

/--
The text of a value in YAML: the fewest digits that identify it, with a fraction on a whole number,
written with all places from `0.00001` up to sixteen digits before the point and with a power of
ten beyond. A tie goes to the even digit.
-/
def yamlText : Binary64 → List Char :=
  renderWith ".nan".toList ".inf".toList fun m e =>
    if m = 0 then
      "0.0".toList
    else
      let d := Decimal.shortest .even m e
      let magnitude := d.exponent + d.digitText.length
      if 0 ≤ d.exponent ∧ magnitude ≤ 16 then
        d.positional ++ ".0".toList
      else if -5 < magnitude ∧ magnitude ≤ 16 then
        d.positional
      else
        d.scientific

end Binary64

end TemplateCheck
