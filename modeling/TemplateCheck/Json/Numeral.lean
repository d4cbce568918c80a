import TemplateCheck.Data
import TemplateCheck.Decimal.Numeral

/-!
This module contains the reader of JSON numbers. An integer that fits 64 bits is kept exactly. Any
other number is computed from its leading digits by one multiplication or by divisions with powers
of ten, each of them rounded.
-/

namespace TemplateCheck

namespace Json

def powerOfTen (k : Nat) : Binary64 :=
  .ofDecimal false 1 k

/--
The value `x * 10 ^ k`, as long as it stays finite. For `k` below `-308` the division takes several
steps, of which three always suffice.
-/
def timesPowerOfTen? (x : Binary64) (k : Int) : Option Binary64 :=
  go 3 x k
where
  go : Nat → Binary64 → Int → Option Binary64
    | 0, x, _ => some x
    | n + 1, x, k =>
      if k.natAbs ≤ 308 then
        if 0 ≤ k then
          let y := x.mul (powerOfTen k.toNat)
          if y.isFinite then some y else none
        else
          some (x.div (powerOfTen k.natAbs))
      else if x.equal (.zero false) then
        some x
      else if 0 ≤ k then
        none
      else
        go n (x.div (powerOfTen 308)) (k + 308)

/--
Appends digits to a number as long as it stays below `2 ^ 64`: the number, how many digits went into
it, and the others.
-/
def appendDigits (n : Nat) : List Char → Nat × Nat × List Char
  | [] => (n, 0, [])
  | c :: s =>
    let next := 10 * n + Numeral.digitValue c
    if fitsWord next then
      let (n, taken, rest) := appendDigits next s
      (n, taken + 1, rest)
    else
      (n, 0, c :: s)

def readWhole? (s : List Char) : Option (List Char × List Char) :=
  let digits := s.takeWhile Char.isDigit
  if digits.isEmpty || (digits.head? == some '0' && digits ≠ ['0']) then none
  else some (digits, s.dropWhile Char.isDigit)

def readFraction? : List Char → Option (Option (List Char) × List Char)
  | '.' :: s =>
    let digits := s.takeWhile Char.isDigit
    if digits.isEmpty then none else some (some digits, s.dropWhile Char.isDigit)
  | s => some (none, s)

def readPower? : List Char → Option (Option Int × List Char)
  | c :: s =>
    if c == 'e' || c == 'E' then
      let (negative, s) := Numeral.takeSign s
      let digits := s.takeWhile Char.isDigit
      let power : Int := Numeral.natOfDigits digits
      if digits.isEmpty then none
      else some (some (if negative then -power else power), s.dropWhile Char.isDigit)
    else
      some (none, c :: s)
  | [] => some (none, [])

/--
The number of a sign, digits and a power of ten. Without a fraction and a power it is an integer if
it fits; a negative zero is none.
-/
def numberOf? (negative : Bool) (whole : List Char) (fraction? : Option (List Char))
    (power? : Option Int) : Option Number :=
  let (n, _, rest) := appendDigits 0 whole
  if rest.isEmpty && fraction?.isNone && power?.isNone &&
      (!negative || (n ≠ 0 && fitsSigned (-n))) then
    some (.integer (if negative then -n else n))
  else
    let (n, places, _) := appendDigits n (fraction?.getD [])
    let exponent : Int := rest.length - places + power?.getD 0
    (timesPowerOfTen? (.ofInt n) exponent).map fun x => .float (if negative then x.neg else x)

def readNumber? (s : List Char) : Option (Number × List Char) := do
  let (negative, s) := match s with
    | '-' :: s => (true, s)
    | s => (false, s)
  let (whole, s) ← readWhole? s
  let (fraction?, s) ← readFraction? s
  let (power?, s) ← readPower? s
  return (← numberOf? negative whole fraction? power?, s)

end Json

end TemplateCheck
