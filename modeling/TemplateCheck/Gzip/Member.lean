import TemplateCheck.Gzip.Inflate

/-!
This module contains the decompression of a gzip file: a header, compressed data, and a checksum and
the size of what they hold.
-/

namespace TemplateCheck

namespace Gzip

def remainderStep (r : UInt32) : UInt32 :=
  if r &&& 1 = 1 then (r >>> 1) ^^^ 0xEDB88320 else r >>> 1

def checksum (bytes : List UInt8) : UInt32 :=
  let step (r : UInt32) (b : UInt8) : UInt32 := Nat.repeat remainderStep 8 (r ^^^ b.toUInt32)
  bytes.foldl step 0xFFFFFFFF ^^^ 0xFFFFFFFF

def readText : Nat → Reader Unit
  | 0 => failure
  | n + 1 => do
    if (← Reader.byte) ≠ 0 then readText n

def readParts (flags : Nat) : Reader Unit := do
  let size := (← get).length
  if flags.testBit 2 then discard (Reader.bytes (← Reader.number 16))
  if flags.testBit 3 then readText size
  if flags.testBit 4 then readText size

def toBytes (bits : Bits) : List UInt8 :=
  match (Reader.bytes (bits.length / 8)).run bits with
  | some (bytes, _) => bytes
  | none => []

def readHeader : Reader Unit := do
  let start ← get
  let mark ← Reader.number 16
  let method ← Reader.number 8
  let flags ← Reader.number 8
  Reader.require (mark == 0x8B1F && method == 8 && flags < 32)
  discard (Reader.bytes 6)
  readParts flags
  if flags.testBit 1 then
    let size := start.length - (← get).length
    let expected := (checksum (toBytes (start.take size))).toNat % 0x10000
    Reader.require ((← Reader.number 16) == expected)

def readMember : Reader (List UInt8) := do
  readHeader
  let bytes ← inflate
  Reader.require ((← Reader.number 32) == (checksum bytes).toNat)
  Reader.require ((← Reader.number 32) == bytes.length % 0x100000000)
  return bytes

/--
What a gzip file holds. Only its first member counts, and what follows that does not matter.
-/
def decompress? (file : List UInt8) : Option (List UInt8) :=
  (readMember.run (file.flatMap bitsOf)).map Prod.fst

end Gzip

end TemplateCheck
