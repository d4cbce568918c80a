import TemplateCheck.Template

/-!
This module contains visitors of templates: what is done around each part of a template while it is
walked depth first, and two visitors that record what they meet.
-/

namespace TemplateCheck

inductive Leaf where
  | scalar (text : String)
  | wildcard
  deriving DecidableEq, Repr

/--
What is done at each part of a template. A hook around a part with an inside is handed the walk of
that inside, and by default it is that walk and nothing else.
-/
structure Visitor (m : Type → Type) where
  node (inside : m Unit) : m Unit := inside
  mapping (size : Nat) (inside : m Unit) : m Unit := inside
  entry (inside : m Unit) : m Unit := inside
  key (text : String) : m Unit
  value (inside : m Unit) : m Unit := inside
  sequence (size : Nat) (inside : m Unit) : m Unit := inside
  element (index : Nat) (inside : m Unit) : m Unit := inside
  leaf (leaf : Leaf) : m Unit

namespace Visitor

variable {m : Type → Type} [Monad m]

mutual

def walk (v : Visitor m) : Template → m Unit
  | .wildcard => v.leaf .wildcard
  | .scalar text => v.leaf (.scalar text)
  | .sequence items => v.sequence items.length (v.walkItems 0 items)
  | .mapping entries => v.mapping entries.length (v.walkEntries entries)

def walkItems (v : Visitor m) (index : Nat) : List Template → m Unit
  | [] => pure ()
  | t :: ts => do
    v.element index (v.node (v.walk t))
    v.walkItems (index + 1) ts

def walkEntries (v : Visitor m) : List (String × Template) → m Unit
  | [] => pure ()
  | (k, t) :: es => do
    v.entry do
      v.key k
      v.value (v.node (v.walk t))
    v.walkEntries es

end

def visit (v : Visitor m) (t : Template) : m Unit :=
  v.node (v.walk t)

end Visitor

inductive Event where
  | node
  | mapping (size : Nat)
  | entry
  | key (text : String)
  | value
  | sequence (size : Nat)
  | element (index : Nat)
  | leaf (leaf : Leaf)
  | close
  deriving DecidableEq, Repr

namespace Event

def note (e : Event) : StateM (List Event) Unit :=
  modify (· ++ [e])

def plainVisitor : Visitor (StateM (List Event)) where
  key text := note (.key text)
  leaf l := note (.leaf l)

def fullVisitor : Visitor (StateM (List Event)) where
  node inside := do note .node; inside
  mapping size inside := do note (.mapping size); inside; note .close
  entry inside := do note .entry; inside
  key text := note (.key text)
  value inside := do note .value; inside
  sequence size inside := do note (.sequence size); inside; note .close
  element index inside := do note (.element index); inside
  leaf l := note (.leaf l)

def record (v : Visitor (StateM (List Event))) (t : Template) : List Event :=
  ((v.visit t).run []).2

end Event

end TemplateCheck
