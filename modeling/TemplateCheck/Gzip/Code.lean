import TemplateCheck.Gzip.Bits

/-!
This module contains prefix codes that are given by the lengths of their words. Words of one length
follow each other in the order of their symbols, and shorter words come before longer ones.
-/

namespace TemplateCheck

namespace Gzip

structure Code where
  counts : List Nat
  symbols : Array Nat
  deriving Repr

namespace Code

def maxLength : Nat :=
  15

/--
The code in which the symbol `i` has a word of the length `lengths[i]`, or none if that is zero. The
words have to use up all bit sequences, unless there is at most one word.
-/
def ofLengths? (lengths : List Nat) : Option Code :=
  let sizes := List.range' 1 maxLength
  let counts := sizes.map fun n => lengths.count n
  let symbols := sizes.flatMap fun n => lengths.zipIdx.filterMap fun (length, symbol) =>
    if length = n then some symbol else none
  let space := (sizes.zip counts).foldl (fun space (n, count) =>
    space + count * Nat.pow 2 (maxLength - n)) 0
  if space == Nat.pow 2 maxLength || symbols.length ≤ 1 then some ⟨counts, symbols.toArray⟩
  else none

def read (c : Code) : Reader Nat :=
  go c.counts 0 0 0
where
  go : List Nat → Nat → Nat → Nat → Reader Nat
    | [], _, _, _ => failure
    | count :: counts, word, first, index => do
      let word := word + (← Reader.bit).toNat
      if word < first + count then
        (c.symbols[index + (word - first)]? : Option Nat)
      else
        go counts (2 * word) (2 * (first + count)) (index + count)

end Code

end Gzip

end TemplateCheck
