import TemplateCheck.Command.Report
import TemplateCheck.Source.Load

/-!
This module contains a run of the command line: from its arguments, the files, the file of settings
of the user and standard input to what is printed and the exit status.
-/

namespace TemplateCheck

namespace Command

inductive Error where
  | source (cause : Source.Error)
  | noData
  | validation (name : String) (cause : MatchError)
  deriving DecidableEq, Repr

def Error.message : Error → String
  | .source cause => cause.message
  | .noData => "No data files given"
  | .validation name cause => "Failed to validate " ++ name ++ ": " ++ cause.message

def elements : Data → List Data
  | .sequence items => items
  | d => [d]

def defaultConfig : String :=
  ".config/dpath-validator/config.toml"

def settings (files : Source.Files) (home : Source.Entry) (a : Arguments) :
    Except Source.Error Settings := do
  let s ← match a.config? with
    | some name => Source.settings files name
    | none =>
      -- settings of the user that cannot be loaded are as good as none
      match Source.settingsOf defaultConfig home with
      | .ok s => .ok s
      | .error _ => .ok {}
  return if a.strict then { s with strict := true } else s

def validator (files : Source.Files) (home : Source.Entry) (a : Arguments) :
    Except Source.Error Validator := do
  let s ← settings files home a
  a.templates.foldlM (fun v name => return v.loadAll (← Source.templates files s.wildcard name))
    s.validator

def candidates (files : Source.Files) (input : List UInt8) (each : Bool) (source : String) :
    Except Source.Error (List Data) := do
  let ds ← if source = "-" then Source.inputCandidates input else Source.candidates files source
  return if each then ds.flatMap elements else ds

def judge (v : Validator) (files : Source.Files) (each : Bool) :
    List UInt8 → List String → Except Error (List Verdict)
  | _, [] => .ok []
  | input, source :: sources => do
    let ds ← (candidates files input each source).mapError .source
    let results ← (v.verdicts ds).mapError (.validation source)
    let verdicts := results.zipIdx.map fun (valid, index) => ⟨source, index, valid⟩
    -- standard input can be read once and is empty after that
    let input := if source = "-" then [] else input
    return verdicts ++ (← judge v files each input sources)

def execute (files : Source.Files) (home : Source.Entry) (input : List UInt8) (a : Arguments) :
    Except Error (String × Bool) := do
  let v ← (validator files home a).mapError .source
  -- where paths are printed, data do not count
  if a.printPaths then
    return (String.join (v.paths.map fun path => path ++ "\n"), true)
  if a.data.isEmpty then throw .noData
  let verdicts ← judge v files a.each input a.data
  return (report (a.format?.getD .text) verdicts, verdicts.all Verdict.valid)

inductive Failure where
  | refused
  | run (error : Error)
  deriving DecidableEq, Repr

structure Result where
  status : Nat
  output : String := ""
  failure? : Option Failure := none
  deriving DecidableEq, Repr

/--
What a command line leads to. The status is 0 if every candidate is valid, 1 if one is not, and 2
if the run fails, which then prints nothing. Unless they are given apart, the settings of the user
are found from where the names of the files start.
-/
def result (files : Source.Files) (input : List UInt8) (arguments : List String)
    (home : Source.Entry := files defaultConfig) : Result :=
  match Request.ofArguments? arguments with
  | none => { status := 2, failure? := some .refused }
  | some .version => { status := 0, output := versionLine }
  | some .help => { status := 0, output := helpText }
  | some (.run a) =>
    match execute files home input a with
    | .ok (output, valid) => { status := if valid then 0 else 1, output := output }
    | .error e => { status := 2, failure? := some (.run e) }

end Command

end TemplateCheck
