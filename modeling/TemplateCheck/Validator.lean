import TemplateCheck.Compile
import TemplateCheck.Path.Parse
import TemplateCheck.Path.Select

/-!
This module contains the validator: a growing list of compiled paths against which candidates are
checked, either loosely (some path matches) or strictly (every path matches).
-/

namespace TemplateCheck

/--
Decides whether an expression matches a candidate, keeping a state of type `σ` from one call to the
next. An error means that the expression is not understood.
-/
abbrev Matcher (σ : Type) := String → Data → StateM σ (Except PathError Bool)

def Matcher.byPath : Matcher Unit := fun expression d =>
  pure ((Path.parse expression).map fun path => path.selectsAny d)

structure MatchError where
  expression : String
  cause : PathError
  deriving DecidableEq, Repr

def MatchError.message (e : MatchError) : String :=
  "failed to evaluate path '" ++ e.expression ++ "': " ++ e.cause.message

structure Validator where
  options : Compile.Options
  strict : Bool
  paths : List String := []
  deriving DecidableEq, Repr

namespace Validator

variable {σ : Type}

abbrev Check (σ α : Type) := ExceptT MatchError (StateM σ) α

def load (v : Validator) (t : Template) : Validator :=
  { v with paths := v.paths ++ (Compile.compile v.options t).paths }

def loadAll (v : Validator) (ts : List Template) : Validator :=
  ts.foldl load v

def ask (m : Matcher σ) (expression : String) (d : Data) : Check σ Bool := do
  match ← m expression d with
  | .ok answer => pure answer
  | .error cause => throw ⟨expression, cause⟩

def anyMatch (m : Matcher σ) (d : Data) : List String → Check σ Bool
  | [] => pure false
  | e :: es => do
    if ← ask m e d then pure true else anyMatch m d es

def allMatch (m : Matcher σ) (d : Data) : List String → Check σ Bool
  | [] => pure true
  | e :: es => do
    if ← ask m e d then allMatch m d es else pure false

def validateOne (v : Validator) (m : Matcher σ) (d : Data) : Check σ Bool :=
  if v.strict then allMatch m d v.paths else anyMatch m d v.paths

def validate (v : Validator) (m : Matcher σ) : List Data → Check σ (List Bool)
  | [] => pure []
  | d :: ds => do
    let verdict ← v.validateOne m d
    let verdicts ← v.validate m ds
    pure (verdict :: verdicts)

def verdicts (v : Validator) (ds : List Data) : Except MatchError (List Bool) :=
  ((v.validate Matcher.byPath ds).run.run ()).1

end Validator

end TemplateCheck
