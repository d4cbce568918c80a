import TemplateCheck.Toml.Scalar

/-!
This module contains the reader of TOML texts.
-/

namespace TemplateCheck

namespace Toml

def depthLimit : Nat :=
  80

def isKeyChar (c : Char) : Bool :=
  c.isAlphanum || c == '_' || c == '-'

def readKeyPart? : Reader (List Char)
  | '"' :: s => readLine? '"' (s.length + 1) s
  | '\'' :: s => readLine? '\'' (s.length + 1) s
  | s =>
    let name := s.takeWhile isKeyChar
    if name.isEmpty then none else some (name, s.drop name.length)

def readKeyParts? : Nat → Reader (List (List Char))
  | 0, _ => none
  | n + 1, s => do
    let (part, s) ← readKeyPart? (skipSpace s)
    match skipSpace s with
    | '.' :: s =>
      let (parts, s) ← readKeyParts? n s
      return (part :: parts, s)
    | s => return ([part], s)

def readKey? : Reader (List (List Char) × List Char) := fun s => do
  let (parts, s) ← readKeyParts? (depthLimit - 1) s
  return ((parts.dropLast, ← parts.getLast?), s)

def skipComment (s : List Char) : List Char :=
  if s.head? == some '#' then s.dropWhile isShown else s

def endLine? (s : List Char) : Option (List Char) :=
  let s := skipComment (skipSpace s)
  if s.isEmpty then some [] else newLine? s

def skipFiller? : Nat → List Char → Option (List Char)
  | 0, s => some s
  | n + 1, s =>
    let s := skipSpace s
    match newLine? (skipComment s) with
    | some s => skipFiller? n s
    | none => if s.head? == some '#' then none else some s

def readItems? (read : Reader Value) : Nat → Reader (List Value)
  | 0, _ => none
  | n + 1, s => do
    let s ← skipFiller? s.length s
    if s.head? == some ']' then return ([], s.tail)
    let (v, s) ← read s
    let s ← skipFiller? s.length s
    match s with
    | ',' :: s =>
      let (vs, s) ← readItems? read n s
      return (v :: vs, s)
    | ']' :: s => return ([v], s)
    | _ => failure

def readEquation? (read : Reader Value) (t : Table) : Reader Table := fun s => do
  let ((path, key), s) ← readKey? s
  if s.head? != some '=' then failure
  let (v, s) ← read (skipSpace s.tail)
  return (← t.addAt path key v, s)

def readEntries? (read : Reader Value) : Nat → Table → Reader Table
  | 0, _, _ => none
  | n + 1, t, s => do
    let (t, s) ← readEquation? read t s
    match skipSpace s with
    | ',' :: s => readEntries? read n t s
    | '\x7d' :: s => return (t, s)
    | _ => failure

def readValue? : Nat → Reader Value
  | depth, s =>
    match s, depth with
    | '[' :: s, depth + 1 =>
      (readItems? (readValue? depth) (s.length + 1) s).map fun (vs, s) => (.array vs, s)
    | '\x7b' :: s, depth + 1 =>
      let inner := skipSpace s
      if inner.head? == some '\x7d' then
        some (.inline [], inner.tail)
      else
        (readEntries? (readValue? depth) s.length [] s).map fun (t, s) => (.inline t, s)
    | '"' :: _, _ => (readString? s).map fun (text, s) => (.string text, s)
    | '\'' :: _, _ => (readString? s).map fun (text, s) => (.string text, s)
    | _, _ => readWord? s

structure Progress where
  root : Table := []
  current : List (List Char) := []

def equation? (p : Progress) : Reader Progress := fun s => do
  let ((path, key), s) ← readKey? s
  if s.head? != some '=' then failure
  let (v, s) ← readValue? (depthLimit - 1) (skipSpace s.tail)
  let root ← Table.change .implied (fun _ t => t.addAt path key v) p.current .header p.root
  return ({ p with root := root }, s)

def header? (close : List Char) : Reader (List (List Char) × List Char) := fun s => do
  let (key, s) ← readKey? s
  return (key, ← close.isPrefixOf? s)

def statement? (p : Progress) : Reader Progress
  | [] => some (p, [])
  | '[' :: '[' :: s => do
    let ((path, key), s) ← header? [']', ']'] s
    return ({ root := ← p.root.openItem path key, current := path ++ [key] }, s)
  | '[' :: s => do
    let ((path, key), s) ← header? [']'] s
    return ({ root := ← p.root.openTable path key, current := path ++ [key] }, s)
  | c :: s => if "#\r\n".toList.contains c then some (p, c :: s) else equation? p (c :: s)

def readStatements? : Nat → Progress → List Char → Option Table
  | 0, p, _ => some p.root
  | n + 1, p, s =>
    if s.isEmpty then
      some p.root
    else do
      let (p, s) ← statement? p (skipSpace s)
      readStatements? n p (← endLine? s)

def parse? (text : String) : Option Table :=
  let s := text.toList
  let s := if s.head? == some '\uFEFF' then s.tail else s
  readStatements? (s.length + 1) {} s

end Toml

end TemplateCheck
