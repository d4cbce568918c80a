import TemplateCheck.Text
import TemplateCheck.Yaml.Scalar

/-!
This module contains the tokens of a YAML text and the readers of those that carry a name.
-/

namespace TemplateCheck

namespace Yaml

/--
A token. The starts of block collections, of their entries' keys, and the ends of blocks follow
from indentation and from colons; the rest is written.
-/
inductive Token where
  | version (major minor : Nat)
  | tagShorthand (handle expansion : List Char)
  | documentStart
  | documentEnd
  | textEnd
  | blockSequence
  | blockMapping
  | blockEnd
  | flowSequence
  | flowSequenceEnd
  | flowMapping
  | flowMappingEnd
  | entry
  | separator
  | key
  | value
  | alias (name : List Char)
  | anchor (name : List Char)
  | tag (handle suffix : List Char)
  | scalar (plain : Bool) (text : List Char)
  deriving DecidableEq, Repr

namespace Token

def isNameChar (c : Char) : Bool :=
  c.isAlphanum || c == '_' || c == '-'

def readName? (c : Cursor) : Option (List Char × Cursor) :=
  let (name, c) := c.span isNameChar
  let ended := startsApart c.rest || c.rest.head?.any fun x => "?:,]\x7d%@`".toList.contains x
  if !name.isEmpty && ended then some (name, c) else none

def isTagChar (brackets : Bool) (c : Char) : Bool :=
  isNameChar c || ";/?:@&=+$.!~*'()%".toList.contains c ||
    (brackets && (c == ',' || c == '[' || c == ']'))

def readByte? : List Char → Option (UInt8 × List Char)
  | '%' :: a :: b :: s => (Text.hexNumber? [a, b]).map fun n => (UInt8.ofNat n, s)
  | _ => none

def byteCount? (first : UInt8) : Option Nat :=
  if first < 0x80 then some 1
  else if 0xC0 ≤ first && first < 0xE0 then some 2
  else if 0xE0 ≤ first && first < 0xF0 then some 3
  else if 0xF0 ≤ first && first < 0xF8 then some 4
  else none

def readMoreBytes? : Nat → List Char → Option (List UInt8 × List Char)
  | 0, s => some ([], s)
  | n + 1, s => do
    let (b, s) ← readByte? s
    if b < 0x80 || 0xC0 ≤ b then failure
    let (bs, s) ← readMoreBytes? n s
    return (b :: bs, s)

def readEscapedChar? (s : List Char) : Option (List Char × List Char) := do
  let (first, s) ← readByte? s
  let (more, s) ← readMoreBytes? ((← byteCount? first) - 1) s
  let text := (Text.ofUtf8? (first :: more)).getD "\uFFFD"
  return (text.toList, s)

def readTagChars? (brackets : Bool) : Nat → List Char → Option (List Char × List Char)
  | 0, s => some ([], s)
  | n + 1, s =>
    match s with
    | [] => some ([], [])
    | c :: rest =>
      if !isTagChar brackets c then
        some ([], s)
      else do
        let (piece, rest) ← if c == '%' then readEscapedChar? s else some ([c], rest)
        let (more, rest) ← readTagChars? brackets n rest
        return (piece ++ more, rest)

def readTagText? (brackets : Bool) (c : Cursor) : Option (List Char × Cursor) :=
  (readTagChars? brackets c.rest.length c.rest).map fun (text, rest) =>
    (text, c.skip (c.rest.length - rest.length))

def readHandle? (c : Cursor) : Option (List Char × Cursor) :=
  match c.rest with
  | '!' :: _ =>
    let (name, c) := (c.skip 1).span isNameChar
    if c.rest.head? == some '!' then some ('!' :: (name ++ ['!']), c.skip 1)
    else some ('!' :: name, c)
  | _ => none

/--
Reads a tag: in angle brackets, with a handle of two marks and a suffix, or with one mark only. The
handle of a tag in brackets and of the tag `!` is empty.
-/
def readTag? (flow : Bool) (c : Cursor) : Option (Token × Cursor) := do
  let (t, c) ← if c.rest.tail.head? == some '<' then verbatim c else shorthand c
  let ended := startsApart c.rest || (flow && c.rest.head? == some ',')
  if ended then return (t, c) else none
where
  verbatim (c : Cursor) : Option (Token × Cursor) := do
    let (text, c) ← readTagText? true (c.skip 2)
    if text.isEmpty || c.rest.head? != some '>' then none else some (.tag [] text, c.skip 1)
  shorthand (c : Cursor) : Option (Token × Cursor) := do
    let (handle, c) ← readHandle? c
    let (text, c) ← readTagText? false c
    if 2 ≤ handle.length && handle.getLast? == some '!' then
      if text.isEmpty then none else some (.tag handle text, c)
    else
      match handle.tail ++ text with
      | [] => some (.tag [] ['!'], c)
      | suffix => some (.tag ['!'] suffix, c)

def readVersionNumber? (c : Cursor) : Option (Nat × Cursor) :=
  let (digits, c) := c.span Char.isDigit
  if digits.isEmpty || 9 < digits.length then none else some (Numeral.natOfDigits digits, c)

def readDirectiveBody? (name : List Char) (c : Cursor) : Option (Token × Cursor) := do
  let (_, c) := c.span isSpace
  if name = "YAML".toList then
    let (major, c) ← readVersionNumber? c
    if c.rest.head? != some '.' then failure
    let (minor, c) ← readVersionNumber? (c.skip 1)
    return (.version major minor, c)
  else if name = "TAG".toList then
    let (handle, c) ← readHandle? c
    if handle != ['!'] && handle.getLast? != some '!' then failure
    let (spaces, c) := c.span isSpace
    if spaces.isEmpty then failure
    let (text, c) ← readTagText? true c
    if text.isEmpty || !startsApart c.rest then failure
    return (.tagShorthand handle text, c)
  else
    failure

def readDirective? (c : Cursor) : Option (Token × Cursor) := do
  let (name, c) := (c.skip 1).span isNameChar
  if name.isEmpty || !startsApart c.rest then failure
  let (t, c) ← readDirectiveBody? name c
  let (_, c) := c.span isSpace
  let c := if c.rest.head? == some '#' then (c.span fun _ => true).2 else c
  match c.readBreak? with
  | some (_, c) => return (t, c)
  | none => if c.rest.isEmpty then return (t, c) else none

end Token

end Yaml

end TemplateCheck
