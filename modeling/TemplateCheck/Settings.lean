import TemplateCheck.Toml.Parse
import TemplateCheck.Validator

/-!
This module contains the settings of a validation and their reading from a TOML text.
-/

namespace TemplateCheck

structure Settings where
  strict : Bool := false
  wildcard : String := "*"
  quoteAllKeys : Bool := false
  deriving DecidableEq, Repr

namespace Settings

def compileOptions (s : Settings) : Compile.Options :=
  ⟨s.quoteAllKeys⟩

def validator (s : Settings) : Validator where
  options := s.compileOptions
  strict := s.strict

inductive Error where
  | malformed
  | emptyWildcard
  deriving DecidableEq, Repr

def Error.message : Error → String
  | .malformed => ""
  | .emptyWildcard => "wildcard must not be empty"

def boolean? (t : Toml.Table) (key : String) (missing : Bool) : Option Bool :=
  match t.get? key.toList with
  | none => some missing
  | some (.boolean b) => some b
  | some _ => none

def string? (t : Toml.Table) (key missing : String) : Option String :=
  match t.get? key.toList with
  | none => some missing
  | some (.string s) => some (String.ofList s)
  | some _ => none

def ofTable? (t : Toml.Table) : Option Settings := do
  let unset : Settings := {}
  return {
    strict := ← boolean? t "strict_mode" unset.strict
    wildcard := ← string? t "wildcard" unset.wildcard
    quoteAllKeys := ← boolean? t "quote_all_keys" unset.quoteAllKeys }

def parse (text : String) : Except Error Settings :=
  match (Toml.parse? text).bind ofTable? with
  | none => .error .malformed
  | some s => if s.wildcard.isEmpty then .error .emptyWildcard else .ok s

end Settings

end TemplateCheck
