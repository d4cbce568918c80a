/-!
This module contains the arguments of the command line.
-/

namespace TemplateCheck

namespace Command

inductive Format where
  | text
  | json
  deriving DecidableEq, Repr

def Format.ofWord? : String → Option Format
  | "text" => some .text
  | "json" => some .json
  | _ => none

structure Arguments where
  templates : List String := []
  data : List String := []
  strict : Bool := false
  each : Bool := false
  printPaths : Bool := false
  format? : Option Format := none
  config? : Option String := none
  deriving DecidableEq, Repr

inductive Request where
  | run (arguments : Arguments)
  | version
  | help
  deriving DecidableEq, Repr

namespace Arguments

inductive Valued where
  | template
  | format
  | config
  deriving DecidableEq, Repr

inductive Item where
  | positional (value : String)
  | valued (o : Valued) (attached? : Option String)
  | strict
  | each
  | printPaths
  | version
  | help
  | onlyPositional
  deriving DecidableEq, Repr

def longItem? (name : List Char) (attached? : Option String) : Option Item :=
  match String.ofList name, attached? with
  | "template", value? => some (.valued .template value?)
  | "format", value? => some (.valued .format value?)
  | "config", value? => some (.valued .config value?)
  | "strict", none => some .strict
  | "each", none => some .each
  | "print-paths", none => some .printPaths
  | "version", none => some .version
  | "help", none => some .help
  | _, _ => none

def item? (argument : String) : Option Item :=
  match argument.toList with
  | ['-', '-'] => some .onlyPositional
  | '-' :: '-' :: s =>
    let name := s.takeWhile (· ≠ '=')
    let attached? :=
      if s.contains '=' then some (String.ofList (s.drop (name.length + 1))) else none
    longItem? name attached?
  | ['-'] => some (.positional argument)
  | '-' :: 't' :: s =>
    let value? := match s with
      | [] => none
      | '=' :: s => some (String.ofList s)
      | s => some (String.ofList s)
    some (.valued .template value?)
  | '-' :: 'V' :: _ => some .version
  | '-' :: 'h' :: _ => some .help
  | '-' :: _ => none
  | _ => some (.positional argument)

def setValue? (a : Arguments) : Valued → String → Option Arguments
  | .template, value =>
    if value.isEmpty then none else some { a with templates := a.templates ++ [value] }
  | .format, value =>
    if a.format?.isSome then none
    else (Format.ofWord? value).map fun format => { a with format? := some format }
  | .config, value =>
    if a.config?.isSome || value.isEmpty then none else some { a with config? := some value }

def addData (a : Arguments) (value : String) : Arguments :=
  { a with data := a.data ++ [value] }

def toRun? (a : Arguments) : Option Request :=
  if a.templates.isEmpty then none else some (.run a)

def readAll : Arguments → List String → Option Request
  | a, [] => a.toRun?
  | a, argument :: more =>
    match item? argument with
    | none => none
    | some (.positional value) => readAll (a.addData value) more
    | some (.valued o (some value)) => (a.setValue? o value).bind fun a => readAll a more
    | some (.valued o none) =>
      match more with
      | value :: more =>
        if item? value = some (.positional value) then
          (a.setValue? o value).bind fun a => readAll a more
        else
          none
      | [] => none
    | some .strict => if a.strict then none else readAll { a with strict := true } more
    | some .each => if a.each then none else readAll { a with each := true } more
    | some .printPaths => if a.printPaths then none else readAll { a with printPaths := true } more
    | some .version => some .version
    | some .help => some .help
    | some .onlyPositional => (more.foldl addData a).toRun?

end Arguments

def Request.ofArguments? (arguments : List String) : Option Request :=
  Arguments.readAll {} arguments

end Command

end TemplateCheck
