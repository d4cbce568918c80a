import TemplateCheck.Data
import TemplateCheck.Path
import TemplateCheck.Path.Fragment

/-!
This module contains what a path selects in a tree of data. Every node is known by its place, so
none is selected twice.
-/

namespace TemplateCheck

structure Located where
  place : Place
  node : Data
  index? : Option Nat
  deriving Repr

namespace Located

def root (d : Data) : Located :=
  ⟨[], d, none⟩

def inside (l : Located) : List Located :=
  l.node.branches.map fun b => ⟨l.place ++ [b.1], b.2, b.1.index?⟩

def under? (key : String) (l : Located) : Option Located :=
  (l.node.get? key).map fun d => ⟨l.place ++ [.key key], d, none⟩

def places (ls : List Located) : List Place :=
  ls.map Located.place

def distinct (seen : List Place) : List Located → List Located
  | [] => []
  | l :: ls => if l.place ∈ seen then distinct seen ls else l :: distinct (l.place :: seen) ls

mutual

def descend (d : Data) (place : Place) (index? : Option Nat) (seen : List Place) : List Located :=
  -- with a place all that lies below it has been met
  if place ∈ seen then
    []
  else
    ⟨place, d, index?⟩ ::
      match d with
      | .sequence items => descendItems items 0 place (place :: seen)
      | .mapping entries => descendEntries entries place (place :: seen)
      | _ => []

def descendItems (items : List Data) (i : Nat) (place : Place) (seen : List Place) :
    List Located :=
  match items with
  | [] => []
  | d :: ds =>
    let found := descend d (place ++ [.index i]) (some i) seen
    found ++ descendItems ds (i + 1) place (places found ++ seen)

def descendEntries (entries : List (String × Data)) (place : Place) (seen : List Place) :
    List Located :=
  match entries with
  | [] => []
  | (k, d) :: es =>
    let found := descend d (place ++ [.key k]) none seen
    found ++ descendEntries es place (places found ++ seen)

end

def descendAll (seen : List Place) : List Located → List Located
  | [] => []
  | l :: ls =>
    let found := descend l.node l.place l.index? seen
    found ++ descendAll (places found ++ seen) ls

end Located

def Selector.pick (selector : Selector) (l : Located) : List Located :=
  match selector with
  | .key k => (l.under? k).toList
  -- a scalar counts as the one node inside itself
  | .anyChild => if l.node.isContainer then l.inside else [l]
  | .current => [l]

def numberEquals (x : Binary64) (text : String) : Bool :=
  Path.looksLikeNumber text.toList && (Binary64.read? text.toList).any (·.equal x)

def Filter.accepts (filter : Filter) (l : Located) : Bool :=
  match filter with
  | .index i => l.index? == some i
  | .numberEq x => l.node.text?.any (numberEquals x)
  | .textEq s => l.node.text? == some s

def Axis.context (axis : Axis) (ls : List Located) : List Located :=
  match axis with
  | .child => ls
  | .descendantOrSelf => Located.descendAll [] ls

def Step.apply (step : Step) (ls : List Located) : List Located :=
  (Located.distinct [] ((step.axis.context ls).flatMap step.selector.pick)).filter fun l =>
    step.filter?.all (·.accepts l)

namespace Path

def select (path : Path) (d : Data) : List Located :=
  path.foldl (fun ls step => step.apply ls) [Located.root d]

def selectsAny (path : Path) (d : Data) : Bool :=
  !(path.select d).isEmpty

end Path

end TemplateCheck
