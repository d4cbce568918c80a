import TemplateCheck.Command.Run

/-!
This module contains the command line program.
-/

namespace TemplateCheck

namespace Command

def readEntry (name : String) : IO Source.Entry := do
  match ← (IO.FS.Handle.mk name .read).toBaseIO with
  | .error _ => return .missing
  | .ok handle =>
    match ← handle.readBinToEnd.toBaseIO with
    | .error _ => return .directory
    | .ok bytes => return .file bytes.toList

def readFiles (a : Arguments) : IO Source.Files := do
  let names := a.config?.toList ++ a.templates ++ a.data.filter (· ≠ "-")
  let entries ← names.mapM fun name => do return (name, ← readEntry name)
  return fun name => (entries.lookup name).getD .missing

def readHome : IO Source.Entry := do
  match ← IO.getEnv "HOME" with
  | some home => readEntry (home ++ "/" ++ defaultConfig)
  | none => return .missing

partial def readAll (stream : IO.FS.Stream) : IO (List UInt8) := do
  let bytes ← stream.read 65536
  if bytes.isEmpty then return [] else return bytes.toList ++ (← readAll stream)

def readInput (a : Arguments) : IO (List UInt8) := do
  if a.data.contains "-" then
    readAll (← IO.getStdin)
  else
    return []

end Command

end TemplateCheck

open TemplateCheck in
def main (arguments : List String) : IO UInt32 := do
  let a := match Command.Request.ofArguments? arguments with
    | some (.run a) => a
    | _ => {}
  let files ← Command.readFiles a
  let input ← Command.readInput a
  let r := Command.result files input arguments (← Command.readHome)
  IO.print r.output
  match r.failure? with
  | none => pure ()
  | some .refused => IO.eprintln "Error: these arguments are not understood"
  | some (.run e) => IO.eprintln ("Error: " ++ e.message)
  return UInt32.ofNat r.status
