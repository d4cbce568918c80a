import TemplateCheck.Entries
import TemplateCheck.Yaml.Node
import TemplateCheck.Yaml.Scan

/-!
This module contains the reading of nodes and documents from the tokens of a YAML text. The readers
call each other to a depth that is counted down from a multiple of the number of tokens.
-/

namespace TemplateCheck

namespace Yaml

structure Reading where
  tokens : List Token
  shorthands : List (List Char × List Char) := []
  anchors : Entries (List Char) Nat := []

abbrev Reader := StateT Reading Option

namespace Reader

def peek : Reader Token := fun r =>
  r.tokens.head?.map (·, r)

def take : Reader Token := do
  let t ← peek
  modify fun r => { r with tokens := r.tokens.tail }
  return t

def expect (t : Token) : Reader Unit := do
  if (← take) != t then failure

def takeIf (t : Token) : Reader Bool := do
  if (← peek) == t then
    discard take
    return true
  else
    return false

def unlessAt (stops : List Token) (read : Reader Node) : Reader Node := do
  if stops.contains (← peek) then return .empty else read

def valueBy (read : Reader Node) : Reader Node := do
  if ← takeIf .value then read else return .empty

/--
Gives an anchor its number: the count of the names that are in use before it. A name that comes
again loses its old number.
-/
def register (name : List Char) : Reader Nat := do
  let r ← get
  let number := r.anchors.length
  set { r with anchors := r.anchors.insert name number }
  return number

def known (name : List Char) : Reader Nat := do
  match (← get).anchors.get? name with
  | some number => return number
  | none => failure

def fullTag (handle suffix : List Char) : Reader (List Char) := do
  if handle.isEmpty then
    return suffix
  else
    match (← get).shorthands.lookup handle with
    | some expansion => return expansion ++ suffix
    | none => failure

def takeAnchor? : Reader (Option (List Char)) := do
  match ← peek with
  | .anchor name => discard take; return some name
  | _ => return none

def takeTag? : Reader (Option (List Char)) := do
  match ← peek with
  | .tag handle suffix => discard take; return some (← fullTag handle suffix)
  | _ => return none

def takeProperties : Reader (Option Nat × Option (List Char)) := do
  let name? ← takeAnchor?
  let tag? ← takeTag?
  let name? ← if name?.isNone && tag?.isSome then takeAnchor? else pure name?
  return (← name?.mapM register, tag?)

def vacant (anchor? : Option Nat) (tag? : Option (List Char)) : Reader Node :=
  if anchor?.isNone && tag?.isNone then failure else return .scalar anchor? tag? true []

def blockStops : List Token :=
  [.key, .value, .blockEnd]

mutual

/--
Reads a node. Block collections have a place only where `block` holds, and a sequence that opens no
block of its own only where `bare` holds.
-/
def node (block bare : Bool) : Nat → Reader Node
  | 0 => failure
  | n + 1 => do
    if let .alias name ← peek then
      discard take
      return .alias (← known name)
    let (anchor?, tag?) ← takeProperties
    match ← peek with
    | .scalar plain text =>
      discard take
      -- the tag of a single mark says nothing on a scalar
      return .scalar anchor? (tag?.filter (· != ['!'])) plain text
    | .flowSequence =>
      discard take
      return .sequence anchor? tag? (← flowItems true n)
    | .flowMapping =>
      discard take
      return .mapping anchor? tag? (← flowEntries true n)
    | .entry =>
      if bare then return .sequence anchor? tag? (← bareItems n) else vacant anchor? tag?
    | .blockSequence =>
      if block then
        discard take
        return .sequence anchor? tag? (← blockItems n)
      else
        vacant anchor? tag?
    | .blockMapping =>
      if block then
        discard take
        return .mapping anchor? tag? (← blockEntries n)
      else
        vacant anchor? tag?
    | _ => vacant anchor? tag?

def blockItems : Nat → Reader (List Node)
  | 0 => failure
  | n + 1 => do
    match ← take with
    | .entry =>
      let item ← unlessAt [.entry, .blockEnd] (node true false n)
      return item :: (← blockItems n)
    | .blockEnd => return []
    | _ => failure

def bareItems : Nat → Reader (List Node)
  | 0 => failure
  | n + 1 => do
    if ← takeIf .entry then
      let item ← unlessAt (.entry :: blockStops) (node true false n)
      return item :: (← bareItems n)
    else
      return []

def blockEntries : Nat → Reader (List (Node × Node))
  | 0 => failure
  | n + 1 => do
    match ← take with
    | .key =>
      let key ← unlessAt blockStops (node true true n)
      let value ← valueBy (unlessAt blockStops (node true true n))
      return (key, value) :: (← blockEntries n)
    | .blockEnd => return []
    | _ => failure

def flowItems (first : Bool) : Nat → Reader (List Node)
  | 0 => failure
  | n + 1 => do
    if ← takeIf .flowSequenceEnd then return []
    if !first then expect .separator
    if ← takeIf .flowSequenceEnd then return []
    let stops := [.separator, .flowSequenceEnd]
    if ← takeIf .key then
      -- where the key is empty, the token behind its mark is lost
      let empty := (.value :: stops).contains (← peek)
      let key ← if empty then discard take; pure Node.empty else node false false n
      let value ← valueBy (unlessAt stops (node false false n))
      return .mapping none none [(key, value)] :: (← flowItems false n)
    else
      let item ← node false false n
      return item :: (← flowItems false n)

def flowEntries (first : Bool) : Nat → Reader (List (Node × Node))
  | 0 => failure
  | n + 1 => do
    if ← takeIf .flowMappingEnd then return []
    if !first then expect .separator
    if ← takeIf .flowMappingEnd then return []
    let stops := [.separator, .flowMappingEnd]
    if ← takeIf .key then
      let key ← unlessAt (.value :: stops) (node false false n)
      let value ← valueBy (unlessAt stops (node false false n))
      return (key, value) :: (← flowEntries false n)
    else
      let key ← node false false n
      return (key, .empty) :: (← flowEntries false n)

end

def commonShorthands : List (List Char × List Char) :=
  [(['!'], ['!']), (['!', '!'], "tag:yaml.org,2002:".toList)]

def directives (versionSeen : Bool) (shorthands : List (List Char × List Char)) :
    Nat → Reader (List (List Char × List Char))
  | 0 => return shorthands
  | n + 1 => do
    match ← peek with
    | .version major minor =>
      discard take
      if versionSeen || major != 1 || (minor != 1 && minor != 2) then failure
      directives true shorthands n
    | .tagShorthand handle expansion =>
      discard take
      if (shorthands.lookup handle).isSome then failure
      directives versionSeen (shorthands ++ [(handle, expansion)]) n
    | _ => return shorthands

def skipEnds : Nat → Reader Unit
  | 0 => return ()
  | n + 1 => do
    if ← takeIf .documentEnd then skipEnds n

def startsBare : Token → Bool
  | .version .. | .tagShorthand .. | .documentStart | .textEnd => false
  | _ => true

def endsEmpty : Token → Bool
  | .version .. | .tagShorthand .. | .documentStart | .documentEnd | .textEnd => true
  | _ => false

def document? (first : Bool) (n : Nat) : Reader (Option Node) := do
  modify fun r => { r with anchors := [], shorthands := commonShorthands }
  if !first then skipEnds n
  let t ← peek
  if t == .textEnd then
    return none
  else if first && startsBare t then
    let root ← node true false n
    discard (takeIf .documentEnd)
    return some root
  else
    let shorthands ← directives false [] n
    modify fun r => { r with shorthands := shorthands ++ commonShorthands }
    expect .documentStart
    let root ← if endsEmpty (← peek) then pure .empty else node true false n
    discard (takeIf .documentEnd)
    return some root

def documents (first : Bool) : Nat → List Token → List (Option Node)
  | 0, _ => []
  | n + 1, tokens =>
    match (document? first (2 * tokens.length + 4)).run { tokens } with
    | none => [none]
    | some (none, _) => []
    | some (some root, r) => some root :: documents false n r.tokens

end Reader

/--
The documents of a text as nodes, up to the first with a fault, which is `none`. Without any token a
text is one empty document. A text with a character that may not occur has a fault at once.
-/
def Node.ofText (text : List Char) : List (Option Node) :=
  if !text.all isPrintable then
    [none]
  else
    let tokens := Token.ofText text
    if tokens == [.textEnd] then [some .empty]
    else Reader.documents true (tokens.length + 1) tokens

end Yaml

end TemplateCheck
