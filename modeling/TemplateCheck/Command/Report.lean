import TemplateCheck.Command.Arguments
import TemplateCheck.Text

/-!
This module contains what the command line prints: the verdicts of a run in each format, and the
texts for those who ask for the version or for help.
-/

namespace TemplateCheck

namespace Command

structure Verdict where
  source : String
  index : Nat
  valid : Bool
  deriving DecidableEq, Repr

def jsonChar (c : Char) : List Char :=
  match c with
  | '"' => ['\\', '"']
  | '\\' => ['\\', '\\']
  | '\x08' => ['\\', 'b']
  | '\x0c' => ['\\', 'f']
  | '\n' => ['\\', 'n']
  | '\r' => ['\\', 'r']
  | '\t' => ['\\', 't']
  | c => if c < ' ' then '\\' :: 'u' :: Text.hexDigits 4 c.toNat else [c]

def jsonString (s : String) : String :=
  String.ofList ('"' :: (s.toList.flatMap jsonChar ++ ['"']))

def truthWord (b : Bool) : String :=
  if b then "true" else "false"

def Verdict.json (v : Verdict) : String :=
  String.join ["  \x7b\n    \"source\": ", jsonString v.source, ",\n    \"index\": ",
    toString v.index, ",\n    \"valid\": ", truthWord v.valid, "\n  \x7d"]

def Verdict.line (v : Verdict) : String :=
  v.source ++ "#" ++ toString v.index ++ "\t" ++ (if v.valid then "PASS" else "FAIL") ++ "\n"

def report (format : Format) (vs : List Verdict) : String :=
  match format with
  | .text => String.join (vs.map Verdict.line)
  | .json =>
    if vs.isEmpty then "[]\n"
    else "[\n" ++ String.intercalate ",\n" (vs.map Verdict.json) ++ "\n]\n"

def versionLine : String :=
  "dpath-validator 0.1.0\n"

def helpRows (rows : List (String × String)) : String :=
  let width := (rows.map fun row => row.1.length).foldl max 0
  String.join (rows.map fun (name, text) =>
    "  " ++ String.ofList (name.toList.rightpad (width + 2) ' ') ++ text ++ "\n")

def helpText : String :=
  String.join [
    "Validate YAML/JSON data against structural templates\n\n",
    "Usage: dpath-validator [OPTIONS] --template <FILE> [DATA]...\n\n",
    "Arguments:\n",
    helpRows [("[DATA]...", "Data files to validate (\"-\" reads stdin)")],
    "\nOptions:\n",
    helpRows [
      ("-t, --template <FILE>",
        "Template file; may be repeated. Every document in the file is loaded"),
      ("    --strict", "Require every path to match (overrides the config file)"),
      ("    --each", "Treat each element of a top-level sequence as its own candidate"),
      ("    --print-paths", "Print the compiled path expressions and exit"),
      ("    --format <FORMAT>",
        "Output format for verdicts [default: text] [possible values: text, json]"),
      ("    --config <FILE>", "Config file (default: ~/.config/dpath-validator/config.toml)"),
      ("-h, --help", "Print help"),
      ("-V, --version", "Print version")]]

end Command

end TemplateCheck
