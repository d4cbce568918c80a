import TemplateCheck.Decimal.Binary64
import TemplateCheck.Entries

/-!
This module contains the tables of a TOML text and the rules by which keys and headers extend them.
-/

namespace TemplateCheck

namespace Toml

inductive Origin where
  | header
  | implied
  | dotted
  deriving DecidableEq, Repr

/--
What stands under a key. An inline table and an array are closed once they are written; a table and
an array of tables can be extended further.
-/
inductive Value where
  | boolean (value : Bool)
  | integer (value : Int)
  | float (value : Binary64)
  | moment (text : List Char)
  | string (text : List Char)
  | array (items : List Value)
  | inline (entries : List (List Char × Value))
  | table (origin : Origin) (entries : List (List Char × Value))
  | tables (items : List (List (List Char × Value)))
  deriving Repr, Inhabited

abbrev Table := Entries (List Char) Value

namespace Table

def changeLast {α : Type} (f : α → Option α) : List α → Option (List α)
  | [] => none
  | [x] => (f x).map ([·])
  | x :: xs => (changeLast f xs).map (x :: ·)

/--
Changes the table at the end of a path, from a table of a given origin on. Tables that are missing
on the way are made with the origin `made`.
-/
def change (made : Origin) (f : Origin → Table → Option Table) :
    List (List Char) → Origin → Table → Option Table
  | [], origin, t => f origin t
  | k :: path, _, t =>
    match t.get? k with
    | none => (change made f path made []).map fun inner => t.insert k (.table made inner)
    -- a way by dots does not lead through a table that has a header
    | some (.table origin inner) =>
      if made = .dotted ∧ origin = .header then none
      else (change made f path origin inner).map fun inner => t.insert k (.table origin inner)
    -- of an array of tables the way goes through the last
    | some (.tables items) =>
      (changeLast (change made f path .header) items).map fun items => t.insert k (.tables items)
    | some _ => none

def add (k : List Char) (v : Value) (t : Table) : Option Table :=
  if (t.get? k).isSome then none else some (t.insert k v)

def addAt (path : List (List Char)) (k : List Char) (v : Value) (t : Table) : Option Table :=
  -- a key with dots adds nothing to a table that a header has made
  let addTo (origin : Origin) (t : Table) : Option Table :=
    if !path.isEmpty && origin != .dotted then none else add k v t
  change .dotted addTo path .header t

def openTable (path : List (List Char)) (k : List Char) (t : Table) : Option Table :=
  let opened (_ : Origin) (t : Table) : Option Table :=
    match t.get? k with
    | none => some (t.insert k (.table .header []))
    | some (.table .implied inner) => some (t.insert k (.table .header inner))
    | some _ => none
  change .implied opened path .header t

def openItem (path : List (List Char)) (k : List Char) (t : Table) : Option Table :=
  let opened (_ : Origin) (t : Table) : Option Table :=
    match t.get? k with
    | none => some (t.insert k (.tables [[]]))
    | some (.tables items) => some (t.insert k (.tables (items ++ [[]])))
    | some _ => none
  change .implied opened path .header t

end Table

end Toml

end TemplateCheck
