import TagTemplate.Command

/-!
# The program

The command line: finds out what is at the path that a command names, and carries out the report.
-/

namespace TagTemplate

/-- What reading a file failed with, as a finding. An error of the wrong type that names the file
comes from opening it, and then a name on the way to it is no directory; without the name it comes
from reading, and then the file itself is one. -/
def foundOfError : IO.Error → Found
  | .noFileOrDirectory .. | .invalidArgument .. | .inappropriateType (some _) .. => .missing
  | .inappropriateType none .. => .directory
  | e => .unreadable (toString e)

/-- What is at a path. -/
def findFile (path : String) : IO Found :=
  try return .file (← IO.FS.readBinFile path)
  catch e => return foundOfError e

/-- Carries out a report on the file at a path. -/
def carryOut (path : Option String) (report : Report) : IO UInt32 := do
  if let (some path, some text) := (path, report.replacement) then
    try IO.FS.writeFile path text
    catch e =>
      IO.eprintln ("Error writing " ++ path ++ ": " ++ toString e)
      return 1
  IO.print report.output
  IO.eprint report.notes
  return report.code

/-- How the program is called. -/
def usage : String :=
  "usage: check PATH | fmt [--write] PATH | tokens PATH | tree PATH | --version"

end TagTemplate

open TagTemplate in
/-- Runs the command that the arguments ask for. -/
def main (args : List String) : IO UInt32 := do
  match Command.ofArgs? args with
  | none =>
    IO.eprintln usage
    return 2
  | some command =>
    let found ← match command.path? with
      | some path => findFile path
      | none => pure .missing
    carryOut command.path? (command.report found)
