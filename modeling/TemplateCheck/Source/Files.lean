/-!
This module contains names of files and what stands under them.
-/

namespace TemplateCheck

namespace Source

inductive Entry where
  | missing
  | directory
  | file (bytes : List UInt8)
  deriving DecidableEq, Repr

abbrev Files := String → Entry

def parts (name : String) : List (List Char) :=
  name.toList.splitOn '/'

def lastPart? (name : String) : Option (List Char) :=
  ((parts name).filter fun part => part ≠ [] ∧ part ≠ ['.']).getLast?

def extension? (name : String) : Option (List Char) := do
  let part ← lastPart? name
  if part = ['.', '.'] || !part.contains '.' then failure
  let reversed := part.reverse
  let extension := reversed.takeWhile (· ≠ '.')
  -- a dot at the very front only hides the file
  if extension.length + 1 = part.length then none else some extension.reverse

def isCompressed (name : String) : Bool :=
  extension? name == some ['g', 'z']

def isJsonLines (name : String) : Bool :=
  let reversed := name.toList.reverse
  let base := (".gz".toList.reverse.isPrefixOf? reversed).getD reversed
  ".jsonl".toList.reverse.isPrefixOf base || ".ndjson".toList.reverse.isPrefixOf base

namespace Files

/--
One step along a name from a directory of a tree of files: `done` is the way to that directory, the
last part first.
-/
def step (files : List (List (List Char) × List UInt8)) (done : List (List Char))
    (part : List Char) : Option (List (List Char)) :=
  if part = [] ∨ part = ['.'] then some done
  else if part = ['.', '.'] then
    match done with
    | [] => none
    | _ :: above => some above
  else
    let next := part :: done
    let isDirectory := files.any fun f =>
      next.length < f.1.length && next.reverse.isPrefixOf f.1
    if isDirectory then some next else none

def find (files : List (List (List Char) × List UInt8)) :
    List (List Char) → List (List Char) → Entry
  | _, [] => .directory
  | done, part :: more =>
    match step files done part with
    | some next => find files next more
    | none =>
      -- of one name given twice the last content counts
      let found := files.reverse.lookup (part :: done).reverse
      if more.isEmpty then (found.map Entry.file).getD .missing else .missing

def ofList (files : List (String × List UInt8)) : Files := fun name =>
  let tree := files.map fun f =>
    ((parts f.1).filter fun part => part ≠ [] ∧ part ≠ ['.'], f.2)
  -- nothing outside of the directory can be seen
  if name.isEmpty || name.toList.head? = some '/' then .missing else find tree [] (parts name)

end Files

end Source

end TemplateCheck
