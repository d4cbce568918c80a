/-!
This module contains bytes as bits, the lowest bit of each byte first, and the reading of numbers
from them.
-/

namespace TemplateCheck

namespace Gzip

def bitsOf (b : UInt8) : List Bool :=
  (List.range 8).map fun i => b.toNat.testBit i

abbrev Bits := List Bool

abbrev Reader := StateT Bits Option

namespace Reader

def bit : Reader Bool := fun bits =>
  match bits with
  | [] => none
  | b :: bits => some (b, bits)

def number : Nat → Reader Nat
  | 0 => return 0
  | n + 1 => do
    let b ← bit
    let rest ← number n
    return 2 * rest + b.toNat

def byte : Reader UInt8 :=
  UInt8.ofNat <$> number 8

def bytes : Nat → Reader (List UInt8)
  | 0 => return []
  | n + 1 => do
    let b ← byte
    return b :: (← bytes n)

def align : Reader Unit :=
  modify fun bits => bits.drop (bits.length % 8)

def require (condition : Bool) : Reader Unit :=
  if condition then return () else failure

end Reader

end Gzip

end TemplateCheck
