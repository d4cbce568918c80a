import TemplateCheck.Decimal.Binary64

/-!
This module contains the reader of decimal numerals: an optional sign, digits with an optional
point, and an optional exponent. Integers have 64 bits.
-/

namespace TemplateCheck

def fitsWord (n : Nat) : Bool :=
  n < 0x10000000000000000

def fitsSigned (i : Int) : Bool :=
  -0x8000000000000000 ≤ i && i < 0x8000000000000000

structure Numeral where
  negative : Bool
  digits : Nat
  exponent : Int
  deriving DecidableEq, Repr

namespace Numeral

def digitValue (c : Char) : Nat :=
  c.toNat - '0'.toNat

def natOfDigits (s : List Char) : Nat :=
  s.foldl (fun n c => 10 * n + digitValue c) 0

theorem isDigit_of_mem_toDigits {n : Nat} {c : Char} (hc : c ∈ Nat.toDigits 10 n) :
    c.isDigit = true :=
  Nat.isDigit_of_mem_toDigits (by decide) (by decide) hc

def takeSign : List Char → Bool × List Char
  | '-' :: s => (true, s)
  | '+' :: s => (false, s)
  | s => (false, s)

def readExponent? : List Char → Option Int
  | [] => some 0
  | c :: s =>
    if c == 'e' || c == 'E' then
      let (negative, ds) := takeSign s
      if !ds.isEmpty && ds.all Char.isDigit then
        some (if negative then -(natOfDigits ds : Int) else natOfDigits ds)
      else
        none
    else
      none

def readUnsigned? (s : List Char) : Option (Nat × Int) :=
  let whole := s.takeWhile Char.isDigit
  match s.dropWhile Char.isDigit with
  | '.' :: rest =>
    let fraction := rest.takeWhile Char.isDigit
    if whole.isEmpty && fraction.isEmpty then
      none
    else
      (readExponent? (rest.dropWhile Char.isDigit)).map fun e =>
        (natOfDigits (whole ++ fraction), e - fraction.length)
  | rest =>
    if whole.isEmpty then none else (readExponent? rest).map fun e => (natOfDigits whole, e)

def read? (s : List Char) : Option Numeral :=
  let (negative, s) := takeSign s
  (readUnsigned? s).map fun (digits, exponent) => ⟨negative, digits, exponent⟩

def value (n : Numeral) : Binary64 :=
  Binary64.ofDecimal n.negative n.digits n.exponent

end Numeral

namespace Binary64

def ofWord? (s : List Char) : Option Binary64 :=
  let word := String.ofList (s.map Char.toLower)
  if word == "inf" || word == "infinity" then
    some (.infinite false)
  else if word == "nan" then
    some .nan
  else
    none

def read? (s : List Char) : Option Binary64 :=
  match Numeral.read? s with
  | some n => some n.value
  | none =>
    let (negative, word) := Numeral.takeSign s
    (ofWord? word).map fun x => if negative then x.neg else x

end Binary64

end TemplateCheck
