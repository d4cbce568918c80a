import TemplateCheck.Document.Parse
import TemplateCheck.Settings

/-!
This module contains sessions: steps that load templates into a validator and have it check
candidates, and what they answer.
-/

namespace TemplateCheck

namespace Session

/--
A step of a session. The steps of a fork run on a copy of the validator, which is then forgotten.
-/
inductive Step where
  | load (template : Template)
  | loadAll (templates : List Template)
  | loadText (text : String)
  | listPaths
  | validate (candidates : List Data)
  | validateText (text : String)
  | validateOne (candidate : Data)
  | fork (steps : List Step)

inductive Answer (σ : Type) where
  | added (count total : Nat) (state : σ)
  | unreadable (error : Document.Error) (total : Nat) (state : σ)
  | paths (paths : List String) (total : Nat) (state : σ)
  | verdicts (verdicts : List Bool) (total : Nat) (state : σ)
  | verdict (verdict : Bool) (total : Nat) (state : σ)
  | notUnderstood (error : MatchError) (total : Nat) (state : σ)
  | forked (answers : List (Answer σ)) (total : Nat) (state : σ)

structure Stage (σ : Type) where
  validator : Validator
  state : σ

namespace Stage

variable {σ : Type}

def load (ts : List Template) (s : Stage σ) : Answer σ × Stage σ :=
  let v := s.validator.loadAll ts
  (.added (v.paths.length - s.validator.paths.length) v.paths.length s.state,
    { s with validator := v })

def check {α : Type} (c : Validator.Check σ α) (answer : α → Nat → σ → Answer σ) (s : Stage σ) :
    Answer σ × Stage σ :=
  let (outcome, state) := c.run.run s.state
  let total := s.validator.paths.length
  let a := match outcome with
    | .ok x => answer x total state
    | .error e => .notUnderstood e total state
  (a, { s with state := state })

def reading {α : Type} (read : Except Document.Error α) (act : α → Stage σ → Answer σ × Stage σ)
    (s : Stage σ) : Answer σ × Stage σ :=
  match read with
  | .ok x => act x s
  | .error e => (.unreadable e s.validator.paths.length s.state, s)

end Stage

variable {σ : Type} (settings : Settings) (m : Matcher σ)

def validate (ds : List Data) (s : Stage σ) : Answer σ × Stage σ :=
  s.check (s.validator.validate m ds) .verdicts

mutual

def runStep (s : Stage σ) : Step → Answer σ × Stage σ
  | .load t => s.load [t]
  | .loadAll ts => s.load ts
  | .loadText text => s.reading (Document.templates settings.wildcard text) Stage.load
  | .listPaths =>
    (.paths s.validator.paths s.validator.paths.length s.state, s)
  | .validate ds => validate m ds s
  | .validateText text => s.reading (Document.candidates text) (validate m)
  | .validateOne d => s.check (s.validator.validateOne m d) .verdict
  -- the validator of a fork is forgotten, but not what its matcher has learnt
  | .fork steps =>
    let (answers, state) := runSteps s steps
    (.forked answers s.validator.paths.length state, { s with state := state })

def runSteps (s : Stage σ) : List Step → List (Answer σ) × σ
  | [] => ([], s.state)
  | step :: steps =>
    let (a, s) := runStep s step
    let (answers, state) := runSteps s steps
    (a :: answers, state)

end

def run (state : σ) (steps : List Step) : List (Answer σ) :=
  (runSteps settings m ⟨settings.validator, state⟩ steps).1

end Session

end TemplateCheck
