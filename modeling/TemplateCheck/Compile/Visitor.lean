import TemplateCheck.Compile.Trail
import TemplateCheck.Path.Fragment
import TemplateCheck.Template.Visitor

/-!
This module contains the visitor that writes a path expression for every leaf of a template, and the
parts of a run from which it is made.
-/

namespace TemplateCheck

namespace Compile

structure Options where
  quoteAllKeys : Bool := false
  deriving DecidableEq, Repr

structure Run where
  trail : Trail := {}
  paths : List String := []
  deriving DecidableEq, Repr

abbrev Part := StateT Run Option Unit

def onTrail (f : Trail → Trail) : Part :=
  modify fun r => { r with trail := f r.trail }

def append (s : String) : Part :=
  onTrail (Trail.append s)

def rise : Part := do
  let r ← get
  match r.trail.rise? with
  | some trail => set { r with trail := trail }
  | none => failure

theorem run_rise (r : Run) :
    rise.run r = r.trail.rise?.map fun trail => ((), { r with trail := trail }) := by
  simp only [rise, StateT.run_bind, StateT.run_get]
  change (match r.trail.rise? with
    | some trail => (set { r with trail := trail } : Part)
    | none => failure).run r = _
  cases r.trail.rise? <;> rfl

def below (inside : Part) : Part := do
  onTrail Trail.dive
  inside
  rise

def finish : Part :=
  modify fun r => { r with paths := r.paths ++ [r.trail.text] }

def finishLeaf (opening : String) : Leaf → Part
  | .wildcard => do
    append "/*"
    finish
  | .scalar text => do
    append opening
    append (String.ofList (Path.comparison text.toList))
    append " ]"
    finish

def separate : Part := do
  if 1 < (← get).trail.depth then
    append "/"

def writeKey (options : Options) (text : String) : Part :=
  append (String.ofList (Path.keySegment options.quoteAllKeys text.toList))

def writeLeaf (options : Options) (leaf : Leaf) : Part := do
  match (← get).trail.slot, leaf with
  | .element, leaf => finishLeaf "/.[ value " leaf
  | .value, leaf => finishLeaf "/*[ value " leaf
  | .key, .scalar text => writeKey options text
  -- a key is always handed over as text
  | .key, .wildcard => pure ()
  | .root, leaf => finishLeaf ".[ value " leaf

def visitor (options : Options) : Visitor (StateT Run Option) where
  node inside := do
    -- only the root opens a path of its own
    if (← get).trail.depth = 0 then
      append "/"
      below inside
      onTrail Trail.clear
    else
      inside
  mapping _ inside := below do
    separate
    inside
  entry inside := below inside
  key text := do
    onTrail (Trail.setSlot .key)
    writeLeaf options (.scalar text)
    onTrail (Trail.setSlot .root)
  value inside := do
    onTrail (Trail.setSlot .value)
    inside
    onTrail (Trail.setSlot .root)
  sequence _ inside := below do
    separate
    inside
  element index inside := do
    below do
      onTrail (Trail.setSlot .element)
      append s!"*[ idx == {index} ]"
      inside
    onTrail (Trail.setSlot .root)
  leaf := writeLeaf options

end Compile

end TemplateCheck
