/-!
This module contains the nodes of a YAML document as they are written: with tags and anchors, and
before the scalars are understood.
-/

namespace TemplateCheck

namespace Yaml

/--
A node. An anchor and an alias are the number that the anchor's name stands for at that place.
-/
inductive Node where
  | alias (target : Nat)
  | scalar (anchor? : Option Nat) (tag? : Option (List Char)) (plain : Bool) (text : List Char)
  | sequence (anchor? : Option Nat) (tag? : Option (List Char)) (items : List Node)
  | mapping (anchor? : Option Nat) (tag? : Option (List Char)) (entries : List (Node × Node))
  deriving Repr, Inhabited

namespace Node

def empty : Node :=
  .scalar none none true []

mutual

/--
The length of a document in steps: a collection has two, its start and its end.
-/
def steps : Node → Nat
  | .alias _ => 1
  | .scalar .. => 1
  | .sequence _ _ items => stepsOfItems items + 2
  | .mapping _ _ entries => stepsOfEntries entries + 2

def stepsOfItems : List Node → Nat
  | [] => 0
  | n :: ns => steps n + stepsOfItems ns

def stepsOfEntries : List (Node × Node) → Nat
  | [] => 0
  | (k, v) :: es => steps k + steps v + stepsOfEntries es

end

def withAnchor (anchor? : Option Nat) (n : Node) (others : List (Nat × Node)) :
    List (Nat × Node) :=
  match anchor? with
  | none => others
  | some a => (a, n) :: others

mutual

def anchored : Node → List (Nat × Node)
  | .alias _ => []
  | .scalar a t p s => withAnchor a (.scalar a t p s) []
  | .sequence a t items => withAnchor a (.sequence a t items) (anchoredItems items)
  | .mapping a t entries => withAnchor a (.mapping a t entries) (anchoredEntries entries)

def anchoredItems : List Node → List (Nat × Node)
  | [] => []
  | n :: ns => anchored n ++ anchoredItems ns

def anchoredEntries : List (Node × Node) → List (Nat × Node)
  | [] => []
  | (k, v) :: es => anchored k ++ anchored v ++ anchoredEntries es

end

end Node

end Yaml

end TemplateCheck
