import TemplateCheck.Decimal.Binary64

/-!
This module contains path expressions: steps that each lead from a set of nodes to the next.
-/

namespace TemplateCheck

inductive Axis where
  | child
  | descendantOrSelf
  deriving DecidableEq, Repr

inductive Selector where
  | key (name : String)
  | anyChild
  | current
  deriving DecidableEq, Repr

inductive Filter where
  | index (position : Nat)
  | numberEq (value : Binary64)
  | textEq (text : String)
  deriving DecidableEq, Repr

structure Step where
  axis : Axis
  selector : Selector
  filter? : Option Filter
  deriving DecidableEq, Repr

abbrev Path := List Step

/--
Why an expression is no path. A position counts bytes of the expression in UTF-8.
-/
inductive PathError where
  | unexpectedToken (position : Nat) (found : String) (expected : String)
  | unexpectedEnd (expected : String)
  | invalidSyntax (message : String)
  deriving DecidableEq, Repr

def PathError.message : PathError → String
  | .unexpectedToken position found expected =>
    s!"Unexpected token '{found}' at position {position}, expected {expected}"
  | .unexpectedEnd expected => s!"Unexpected end of input, expected {expected}"
  | .invalidSyntax message => s!"Invalid path syntax: {message}"

end TemplateCheck
