import TagTemplate.Command

/-!
# Files by name

A `FileStore` holds files and directories, each under the names on the way to it from the root, and
the working directory. A path as a user gives it is followed name by name as a file system does it,
from the root if it begins with a slash and from the working directory if not: every name but the
last has to lead to a directory, a dot stays where it is, and two dots go up, which the root does
not. So one file can be named by many paths. Running a command on a store gives its report and the
store afterwards.
-/

namespace TagTemplate

/-- What is kept under some names. -/
inductive StoredEntry where
  /-- A file with its bytes. -/
  | file (bytes : ByteArray)
  /-- A directory. -/
  | directory

/-- Files and directories, each under the names on the way to it from the root. -/
structure FileStore where
  /-- What is kept under which names. -/
  entries : List (List String × StoredEntry)
  /-- The names of the directory that a path is followed from if it does not begin at the root. -/
  workingDirectory : List String

/-- Whether a name on a path means the directory that it stands in: a dot, or nothing, as between
two slashes. -/
def staysInPlace (name : String) : Bool := name = "" || name = "."

namespace FileStore

/-- The names of the directory that a path is followed from. -/
def startOf (workingDirectory : List String) (path : String) : List String :=
  if path.startsWith '/' then [] else workingDirectory

/-- The names on a path, one between any two slashes. -/
def namesOn (path : String) : List String := (path.toList.splitOn '/').map String.ofList

/-! ## Filling -/

/-- An entry under the rest of a path, from the given names on, and the directories that the path
passes. -/
def layOut (entry : StoredEntry) : List String → List String → List (List String × StoredEntry)
  | names, [] => [(names, entry)]
  | names, name :: path =>
    if staysInPlace name then layOut entry names path
    else if name = ".." then (names, .directory) :: layOut entry names.dropLast path
    else (names, .directory) :: layOut entry (names ++ [name]) path

/-- The store with the given files and directories under their paths, with the directories that the
paths pass, and with the working directory, which is one of its own below the root if nothing else
is said. Of several files for one place the last one is kept there. -/
def ofFiles (files : List (String × StoredEntry))
    (workingDirectory : List String := ["templates"]) : FileStore where
  entries :=
    (files.reverse.flatMap fun (path, entry) ↦
      layOut entry (startOf workingDirectory path) (namesOn path))
        ++ layOut .directory [] workingDirectory
  workingDirectory := workingDirectory

/-! ## Looking up -/

/-- What is kept under some names; the root is a directory. -/
def entryAt? (store : FileStore) (names : List String) : Option StoredEntry :=
  if names = [] then some .directory else store.entries.lookup names

/-- Whether there is a directory under some names. -/
def isDirectory (store : FileStore) (names : List String) : Bool :=
  match store.entryAt? names with
  | some .directory => true
  | _ => false

/-- The names with one more, if something is kept there. -/
def child? (store : FileStore) (names : List String) (name : String) : Option (List String) :=
  if (store.entryAt? (names ++ [name])).isSome then some (names ++ [name]) else none

/-- Follows one more name of a path. -/
def follow? (store : FileStore) (names : List String) (name : String) : Option (List String) :=
  if !store.isDirectory names then none
  else if staysInPlace name then some names
  else if name = ".." then some names.dropLast
  else store.child? names name

/-- How many bytes a path may have: with the zero that ends it, it has to fit into 4096. -/
def maxPathSize : Nat := 4095

/-- The names of what a path leads to, counted from the root. -/
def resolve? (store : FileStore) (path : String) : Option (List String) :=
  if path = "" ∨ maxPathSize < path.utf8ByteSize then none
  else (namesOn path).foldlM store.follow? (startOf store.workingDirectory path)

/-- What is found at a path. -/
def find (store : FileStore) (path : String) : Found :=
  match (store.resolve? path).bind store.entryAt? with
  | none => .missing
  | some .directory => .directory
  | some (.file bytes) => .file bytes

/-! ## Changing -/

/-- The store with a text in place of the file at a path. -/
def write (store : FileStore) (path text : String) : FileStore :=
  match store.resolve? path with
  | some names =>
    { store with
      entries := store.entries.map fun (key, entry) ↦
        if key = names then (key, .file text.toUTF8) else (key, entry) }
  | none => store

/-! ## Commands -/

/-- The report of a command on a store. -/
def report (store : FileStore) (command : Command) : Report :=
  command.report ((command.path?.map store.find).getD .missing)

/-- The store after a command. -/
def run (store : FileStore) (command : Command) : FileStore :=
  match command.path?, (store.report command).replacement with
  | some path, some text => store.write path text
  | _, _ => store

end FileStore

end TagTemplate
