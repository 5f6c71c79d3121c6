import TagTemplate.Source

/-!
# Commands

A command names what to do and the file to do it with. What comes of it is a `Report`: an exit
code, what is to be printed, and the text that the file is to be given, if it is to be changed.
The report is a function of the command and of what was found at its path, so no command needs to
touch a file to say what it would do. A file is only ever changed by a command that succeeds.
-/

namespace TagTemplate

/-! ## Commands and how they are given -/

/-- What a user can ask for. -/
inductive Command where
  /-- Say whether a file is a template. -/
  | check (path : String)
  /-- Print a template in its normal form, or overwrite it with that. -/
  | format (path : String) (overwrite : Bool)
  /-- Print the tokens of a template. -/
  | tokens (path : String)
  /-- Print the outline of a template. -/
  | tree (path : String)
  /-- Print the version. -/
  | version
deriving DecidableEq, Repr

namespace Command

/-- Whether an argument is an option rather than a path. -/
def isOption (arg : String) : Bool := arg.startsWith "-" && arg != "-"

/-- The options and the paths among some arguments; two dashes alone end the options. -/
def splitOptions : List String → List String × List String
  | [] => ([], [])
  | arg :: args =>
    if arg = "--" then ([], args)
    else
      let (options, paths) := splitOptions args
      if isOption arg then (arg :: options, paths) else (options, arg :: paths)

/-- The command with a name and, in this order, options and paths. -/
def ofParts? : String → List String → List String → Option Command
  | "check", [], [path] => some (check path)
  | "fmt", [], [path] => some (format path false)
  | "fmt", ["--write"], [path] => some (format path true)
  | "tokens", [], [path] => some (tokens path)
  | "tree", [], [path] => some (tree path)
  | _, _, _ => none

/-- Whether the first argument asks for the version. The letter for it is obeyed as soon as it is
read, whatever else is written behind the dash. -/
def asksVersion (arg : String) : Bool := arg = "--version" || arg.startsWith "-V"

/-- The command that arguments ask for, if they ask for one. -/
def ofArgs? : List String → Option Command
  | [] => none
  | arg :: args =>
    if asksVersion arg then some version
    else
      let (options, paths) := splitOptions args
      ofParts? arg options paths

/-- The file that a command works on. -/
def path? : Command → Option String
  | check path | format path _ | tokens path | tree path => some path
  | version => none

end Command

/-! ## What is found at a path -/

/-- What is found at a path. -/
inductive Found where
  /-- Nothing. -/
  | missing
  /-- A directory. -/
  | directory
  /-- Something that cannot be read. -/
  | unreadable (reason : String)
  /-- A file with these bytes. -/
  | file (bytes : ByteArray)

/-- Why a file cannot be worked on. -/
inductive FileError where
  /-- It is not there. -/
  | missing
  /-- It cannot be read. -/
  | unreadable (reason : String)
  /-- Its text could not be worked on. -/
  | source (e : SourceError)
deriving DecidableEq, Repr

/-- An error in words, with the path that it concerns. -/
def FileError.message (path : String) : FileError → String
  | missing => "Error: file not found: " ++ path
  | unreadable reason => "Error reading " ++ path ++ ": " ++ reason
  | source e => path ++ ": " ++ e.message

/-- The text of a file. -/
def Found.source : Found → Except FileError String
  | missing => .error .missing
  | directory => .error (.unreadable "Is a directory (os error 21)")
  | unreadable reason => .error (.unreadable reason)
  | file bytes =>
    match String.fromUTF8? bytes with
    | some text => .ok text
    | none => .error (.unreadable "stream did not contain valid UTF-8")

@[simp] theorem Found.source_file_toUTF8 (text : String) :
    (file text.toUTF8).source = .ok text := by
  have h : String.fromUTF8? text.toUTF8 = some text := dif_pos text.isValidUTF8
  rw [source, h]

/-! ## Reports -/

/-- What comes of a command. -/
structure Report where
  /-- The exit code. -/
  code : UInt32 := 0
  /-- What is printed as the result. -/
  output : String := ""
  /-- What is printed beside it. -/
  notes : String := ""
  /-- What the file is to hold from now on, if it is to be changed. -/
  replacement : Option String := none
deriving DecidableEq, Repr

namespace Report

/-- A failure; nothing is changed. -/
def failure (path : String) (e : FileError) : Report :=
  { code := 1, notes := e.message path ++ "\n" }

/-- The report on work with the text of a file. -/
def ofSource (path : String) (found : Found) (work : String → Except SourceError Report) : Report :=
  let result := do
    let source ← found.source
    (work source).mapError FileError.source
  match result with
  | .ok report => report
  | .error e => failure path e

end Report

/-- What comes of a command, given what is found at its path. -/
def Command.report (command : Command) (found : Found) : Report :=
  match command with
  | .check path => .ofSource path found fun source ↦ do
    Source.check source
    return { notes := "OK: " ++ path ++ "\n" }
  | .format path false => .ofSource path found fun source ↦ do
    return { output := ← Source.format source }
  | .format path true => .ofSource path found fun source ↦ do
    let text ← Source.format source
    return { notes := "Wrote: " ++ path ++ "\n", replacement := some text }
  | .tokens path => .ofSource path found fun source ↦ do
    let lines ← Source.tokenLines "\t" source
    return { output := String.join (lines.map (· ++ "\n")) }
  | .tree path => .ofSource path found fun source ↦ do
    return { output := ← Source.outline source }
  | .version => { output := "smartscript " ++ TagTemplate.version ++ "\n" }

end TagTemplate
