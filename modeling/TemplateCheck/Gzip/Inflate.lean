import TemplateCheck.Gzip.Code

/-!
This module contains the decompression of blocks: bytes as they stand, or literals and repetitions
of earlier output in words of prefix codes. What is repeated is counted down from a number that the
data cannot reach.
-/

namespace TemplateCheck

namespace Gzip

def classes (first : Nat) (extraBits : List Nat) : List (Nat × Nat) :=
  go first extraBits
where
  go : Nat → List Nat → List (Nat × Nat)
    | _, [] => []
    | base, extra :: more => (base, extra) :: go (base + Nat.pow 2 extra) more

def lengthClasses : List (Nat × Nat) :=
  (classes 3 [0, 0, 0, 0, 0, 0, 0, 0, 1, 1, 1, 1, 2, 2, 2, 2, 3, 3, 3, 3, 4, 4, 4, 4, 5, 5, 5, 5])
    ++ [(258, 0)]

def distanceClasses : List (Nat × Nat) :=
  classes 1 [0, 0, 0, 0, 1, 1, 2, 2, 3, 3, 4, 4, 5, 5, 6, 6, 7, 7, 8, 8, 9, 9, 10, 10, 11, 11, 12,
    12, 13, 13]

def readInClass (classes : List (Nat × Nat)) (n : Nat) : Reader Nat :=
  match classes[n]? with
  | some (base, extra) => return base + (← Reader.number extra)
  | none => failure

/--
Repeats output from a distance back, byte by byte, so that what is repeated may itself be new.
-/
def repeatFrom (distance : Nat) : Nat → Array UInt8 → Option (Array UInt8)
  | 0, out => some out
  | n + 1, out =>
    if distance ≤ out.size then
      (out[out.size - distance]?).bind fun b => repeatFrom distance n (out.push b)
    else
      none

def readCoded (literals distances : Code) : Nat → Array UInt8 → Reader (Array UInt8)
  | 0, _ => failure
  | n + 1, out => do
    let symbol ← literals.read
    if symbol < 256 then
      readCoded literals distances n (out.push (UInt8.ofNat symbol))
    else if symbol = 256 then
      return out
    else
      let length ← readInClass lengthClasses (symbol - 257)
      let distance ← readInClass distanceClasses (← distances.read)
      readCoded literals distances n (← repeatFrom distance length out)

def fixedLiterals : List Nat :=
  List.replicate 144 8 ++ List.replicate 112 9 ++ List.replicate 24 7 ++ List.replicate 8 8

def fixedDistances : List Nat :=
  List.replicate 32 5

def lengthOrder : List Nat :=
  [16, 17, 18, 0, 8, 7, 9, 6, 10, 5, 11, 4, 12, 3, 13, 2, 14, 1, 15]

def readLengths (c : Code) (total : Nat) : Nat → List Nat → Reader (List Nat)
  | 0, _ => failure
  | n + 1, lengths => do
    if lengths.length = total then
      return lengths
    else if total < lengths.length then
      failure
    else
      let symbol ← c.read
      let more ← match symbol with
        | 16 =>
          match lengths.getLast? with
          | some last => (List.replicate · last) <$> (3 + ·) <$> Reader.number 2
          | none => failure
        | 17 => (List.replicate · 0) <$> (3 + ·) <$> Reader.number 3
        | 18 => (List.replicate · 0) <$> (11 + ·) <$> Reader.number 7
        | length => pure [length]
      readLengths c total n (lengths ++ more)

def readCodes : Reader (Code × Code) := do
  let literals := (← Reader.number 5) + 257
  let distances := (← Reader.number 5) + 1
  let given := (← Reader.number 4) + 4
  Reader.require (literals ≤ 286 && distances ≤ 30)
  let lengths ← (List.replicate given ()).mapM fun _ => Reader.number 3
  let table := lengthOrder.zip lengths
  let code ← Code.ofLengths? ((List.range 19).map fun i => (table.lookup i).getD 0)
  let all ← readLengths code (literals + distances) (literals + distances + 1) []
  return (← Code.ofLengths? (all.take literals), ← Code.ofLengths? (all.drop literals))

def readStored (out : Array UInt8) : Reader (Array UInt8) := do
  Reader.align
  let length ← Reader.number 16
  -- the number of the bytes is given twice, the second time with every bit turned
  let complement ← Reader.number 16
  Reader.require (length + complement == 0xFFFF)
  return out ++ (← Reader.bytes length).toArray

def readBlock (out : Array UInt8) : Reader (Array UInt8) := do
  let steps := (← get).length
  match ← Reader.number 2 with
  | 0 => readStored out
  | 1 =>
    readCoded (← Code.ofLengths? fixedLiterals) (← Code.ofLengths? fixedDistances) steps out
  | 2 =>
    let (literals, distances) ← readCodes
    readCoded literals distances steps out
  | _ => failure

def readBlocks : Nat → Array UInt8 → Reader (Array UInt8)
  | 0, _ => failure
  | n + 1, out => do
    let isLast ← Reader.bit
    let out ← readBlock out
    if isLast then return out else readBlocks n out

def inflate : Reader (List UInt8) := do
  let out ← readBlocks (← get).length #[]
  Reader.align
  return out.toList

end Gzip

end TemplateCheck
