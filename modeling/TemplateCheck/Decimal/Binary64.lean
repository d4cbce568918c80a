/-!
This module contains the binary floating point values of 64 bits, how an exact quotient is rounded
to one of them, and when two of them are equal as numbers.
-/

namespace TemplateCheck

/--
A binary floating point value of 64 bits. A finite value is `± significand * 2 ^ exponent` in its
one normal form: the exponent is at least `-1074`, the significand is below `2 ^ 53`, and it is at
least `2 ^ 52` unless the exponent is `-1074`.
-/
inductive Binary64 where
  | nan
  | infinite (negative : Bool)
  | finite (negative : Bool) (significand : Nat) (exponent : Int)
  deriving DecidableEq, Repr, Inhabited

namespace Binary64

def hiddenBit : Nat :=
  0x10000000000000

def zero (negative : Bool) : Binary64 :=
  .finite negative 0 (-1074)

def isFinite : Binary64 → Bool
  | .finite .. => true
  | _ => false

def isNaN : Binary64 → Bool
  | .nan => true
  | _ => false

def neg : Binary64 → Binary64
  | .nan => .nan
  | .infinite s => .infinite (!s)
  | .finite s m e => .finite (!s) m e

def equal : Binary64 → Binary64 → Bool
  | .infinite s, .infinite t => s == t
  | .finite s m e, .finite t n f => (m == 0 && n == 0) || (s == t && m == n && e == f)
  | _, _ => false

def scaled (numerator denominator : Nat) (e : Int) : Nat × Nat :=
  (numerator * Nat.pow 2 (-e).toNat, denominator * Nat.pow 2 e.toNat)

def roundHalfEven (numerator denominator : Nat) : Nat :=
  let q := numerator / denominator
  let r := numerator % denominator
  if denominator < 2 * r || (2 * r == denominator && q % 2 == 1) then q + 1 else q

/--
The exponent of the unit in which `numerator / denominator` is rounded: the one that leaves 53
binary digits before the point, but at least `-1074`.
-/
def unitExponent (numerator denominator : Nat) : Int :=
  let estimate := max ((numerator.log2 : Int) - (denominator.log2 : Int) - 53) (-1074)
  let (a, b) := scaled numerator denominator estimate
  if a / b < 2 * hiddenBit then estimate else estimate + 1

def ofRatio (negative : Bool) (numerator denominator : Nat) : Binary64 :=
  if numerator = 0 then
    zero negative
  else
    let e := unitExponent numerator denominator
    let (a, b) := scaled numerator denominator e
    let m := roundHalfEven a b
    -- rounding up may bring one more digit
    let (m, e) := if m = 2 * hiddenBit then (hiddenBit, e + 1) else (m, e)
    if 971 < e then .infinite negative else .finite negative m e

def ofInt (i : Int) : Binary64 :=
  ofRatio (i < 0) i.natAbs 1

def ofDecimal (negative : Bool) (digits : Nat) (exponent : Int) : Binary64 :=
  -- far outside the range of the finite values no power of ten is computed
  let magnitude := (Nat.toDigits 10 digits).length + exponent
  if digits = 0 || magnitude < -323 then
    zero negative
  else if 309 < magnitude then
    .infinite negative
  else
    ofRatio negative (digits * Nat.pow 10 exponent.toNat) (Nat.pow 10 (-exponent).toNat)

def mul : Binary64 → Binary64 → Binary64
  | .finite s m e, .finite t n f =>
    ofRatio (s != t) (m * n * Nat.pow 2 (e + f).toNat) (Nat.pow 2 (-(e + f)).toNat)
  | .infinite s, .infinite t => .infinite (s != t)
  | .infinite s, .finite t n _ => if n = 0 then .nan else .infinite (s != t)
  | .finite s m _, .infinite t => if m = 0 then .nan else .infinite (s != t)
  | _, _ => .nan

def div : Binary64 → Binary64 → Binary64
  | .finite s m e, .finite t n f =>
    if n ≠ 0 then ofRatio (s != t) (m * Nat.pow 2 (e - f).toNat) (n * Nat.pow 2 (f - e).toNat)
    else if m = 0 then .nan
    else .infinite (s != t)
  | .infinite s, .finite t _ _ => .infinite (s != t)
  | .finite s _ _, .infinite t => zero (s != t)
  | _, _ => .nan

def bits : Binary64 → Nat
  | .nan => 0x7FF8000000000000
  | .infinite negative => sign negative + 0x7FF0000000000000
  | .finite negative m e =>
    sign negative + if m < hiddenBit then m else (e + 1074).toNat * hiddenBit + m
where
  sign (negative : Bool) : Nat := if negative then 0x8000000000000000 else 0

theorem equal_comm (a b : Binary64) : a.equal b = b.equal a := by
  cases a <;> cases b <;> simp only [equal] <;> grind

theorem equal_self {a : Binary64} (h : a ≠ .nan) : a.equal a = true := by
  cases a <;> simp_all [equal]

end Binary64

end TemplateCheck
