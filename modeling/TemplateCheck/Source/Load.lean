import TemplateCheck.Document.Parse
import TemplateCheck.Gzip.Member
import TemplateCheck.Settings
import TemplateCheck.Source.Files
import TemplateCheck.Text

/-!
This module contains the loading of templates, candidates and settings from files, and of candidates
from standard input.
-/

namespace TemplateCheck

namespace Source

inductive Error where
  | unreadable (name : String)
  | unopenable
  | corrupt
  | template (name : String) (cause : Document.Error)
  | data (name : String) (cause : Document.Error)
  | unreadableSettings (name : String)
  | settings (name : String) (cause : Settings.Error)
  | corruptInput
  | inputEncoding
  | input (cause : Document.Error)
  deriving DecidableEq, Repr

def causedBy (text cause : String) : String :=
  if cause.isEmpty then text else text ++ ": " ++ cause

def Error.message : Error → String
  | .unreadable name => "Failed to read " ++ name
  | .unopenable => "Failed to open gzipped file"
  | .corrupt => "Failed to decompress gzipped file - file may be corrupted"
  | .template name cause => causedBy ("Failed to parse template " ++ name) cause.message
  | .data name cause => causedBy ("Failed to parse data " ++ name) cause.message
  | .unreadableSettings name => "Failed to read config " ++ name
  | .settings name cause => causedBy ("Failed to parse config " ++ name) cause.message
  | .corruptInput => "Failed to decompress gzipped stdin"
  | .inputEncoding => "Invalid UTF-8 in stdin"
  | .input cause =>
    causedBy "Failed to parse stdin: input is neither YAML/JSON nor JSON Lines" cause.message

def textOf? : Entry → Option String
  | .file bytes => Text.ofUtf8? bytes
  | _ => none

def decompressed? (bytes : List UInt8) : Option String :=
  (Gzip.decompress? bytes).bind Text.ofUtf8?

def orElse {α : Type} (error : Error) : Option α → Except Error α
  | some x => .ok x
  | none => .error error

def readText (files : Files) (name : String) : Except Error String :=
  if isCompressed name then
    match files name with
    | .missing => .error .unopenable
    | .directory => .error .corrupt
    | .file bytes => orElse .corrupt (decompressed? bytes)
  else
    orElse (.unreadable name) (textOf? (files name))

def templates (files : Files) (wildcard name : String) : Except Error (List Template) := do
  let text ← readText files name
  (Document.templates wildcard text).mapError (.template name)

def candidates (files : Files) (name : String) : Except Error (List Data) := do
  let text ← readText files name
  let read := if isJsonLines name then Document.jsonLines text else Document.candidates text
  read.mapError (.data name)

def settingsOf (name : String) (entry : Entry) : Except Error Settings := do
  let text ← orElse (.unreadableSettings name) (textOf? entry)
  (Settings.parse text).mapError (.settings name)

def settings (files : Files) (name : String) : Except Error Settings :=
  settingsOf name (files name)

def looksCompressed (bytes : List UInt8) : Bool :=
  [0x1F, 0x8B].isPrefixOf bytes

def inputCandidates (bytes : List UInt8) : Except Error (List Data) := do
  let text ←
    if looksCompressed bytes then orElse .corruptInput (decompressed? bytes)
    else orElse .inputEncoding (Text.ofUtf8? bytes)
  -- there is no name to tell the format, so only what is not YAML is read as JSON Lines
  match Document.candidates text with
  | .ok ds => .ok ds
  | .error _ => (Document.jsonLines text).mapError .input

end Source

end TemplateCheck
