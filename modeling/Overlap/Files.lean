/-
  A directory of files.

  * `Files.read` gives the content of a file, or says why it cannot be read;
  * `Files.write` replaces it, `Files.createDirectories` makes room for it;
  * `Files.kind?` tells files from directories.
-/
import Overlap.Profile.Samples
import Overlap.Store.Table
import Overlap.Text.Path

namespace Overlap

open Text

/-- The content of a file: a text, an encoded profile of sampled stacks, or a database. -/
inductive FileContent where
  | text (text : String)
  | samples (profile : SampleProfile)
  | tables (tables : List Store.Table)
deriving Inhabited

/-- Why a file cannot be read or written, or a directory not be created. -/
inductive FileError where
  | missing (name : String)
  | isDirectory (name : String)
  | notDirectory (name : String)
  /-- A directory cannot be opened for writing. -/
  | opensDirectory (name : String)
  /-- A directory cannot be created in a file. -/
  | insideFile (name : String)
deriving DecidableEq, Repr

/-- The text of an error. -/
def FileError.message : FileError → String
  | .missing name => "open " ++ name ++ ": no such file or directory"
  | .isDirectory name => "read " ++ name ++ ": is a directory"
  | .notDirectory name => "open " ++ name ++ ": not a directory"
  | .opensDirectory name => "open " ++ name ++ ": is a directory"
  | .insideFile name => "mkdir " ++ name ++ ": not a directory"

/-- What a name stands for. -/
inductive FileKind where
  | file
  | directory
deriving DecidableEq, Repr

/-- A directory: the files in it and below it by name, and directories created empty. -/
structure Files where
  entries : List (String × FileContent) := []
  directories : List String := []
deriving Inhabited

namespace Files

/-- The entry of a file. -/
def entry? (fs : Files) (name : String) : Option FileContent :=
  (fs.entries.find? fun e => Path.clean e.1 == Path.clean name).map (·.2)

/-- What a name stands for, if anything. -/
def kind? (fs : Files) (name : String) : Option FileKind :=
  let path := Path.clean name
  if name.isEmpty then none
  else if (fs.entry? name).isSome then (if name.endsWith "/" then none else some .file)
  else if path == "." || path == "/" || fs.directories.any (Path.clean · == path) ||
      fs.entries.any fun e => (Path.clean e.1).startsWith (path ++ "/") then some .directory
  else none

/-- The names of the directories that lead to a path. -/
def ancestors (path : String) : List String :=
  let parts := Path.components path
  (List.range (parts.length - 1)).map fun n => "/".intercalate (parts.take (n + 1))

/-- Why a name that stands for nothing cannot be opened. -/
def absent (fs : Files) (name : String) : FileError :=
  if (ancestors name).any fun d => fs.kind? d == some .file then .notDirectory name else .missing name

/-- The content of a file. -/
def read (fs : Files) (name : String) : Except FileError FileContent :=
  match fs.kind? name, fs.entry? name with
  | some .file, some content => .ok content
  | some .directory, _ => .error (.isDirectory name)
  | _, _ => .error (fs.absent name)

/-- Whether a directory can be created, or its name is taken already. -/
def canCreate (fs : Files) (name : String) : Bool :=
  (fs.kind? name).isSome || (!name.isEmpty && fs.kind? (Path.dir (Path.clean name)) == some .directory)

/-- The files after a directory has been created. -/
def createDirectory (fs : Files) (name : String) : Files :=
  if (fs.kind? name).isSome then fs else { fs with directories := name :: fs.directories }

/-- The files after a file has been created or replaced. -/
def write (fs : Files) (name : String) (content : FileContent) : Except FileError Files :=
  match fs.kind? name with
  | some .directory => .error (.opensDirectory name)
  | some .file =>
    let replace (e : String × FileContent) :=
      if Path.clean e.1 == Path.clean name then (e.1, content) else e
    .ok { fs with entries := fs.entries.map replace }
  | none =>
    if fs.kind? (Path.dir (Path.clean name)) == some .directory && !name.isEmpty then
      .ok { fs with entries := fs.entries ++ [(name, content)] }
    else .error (fs.absent name)

/-- The files after a directory and all that lead to it have been created. -/
def createDirectories (fs : Files) (name : String) : Except FileError Files :=
  match (ancestors name ++ [name]).find? fun d => fs.kind? d == some .file with
  | some d => .error (.insideFile d)
  | none => .ok (fs.createDirectory name)

/-- The files in a directory and below it, with their texts. -/
def textsUnder (fs : Files) (directory : String) : List (String × String) :=
  let path := Path.clean directory
  fs.entries.filterMap fun (name, content) => match content with
    | .text text =>
      let name := Path.clean name
      if path == "." || name.startsWith (path ++ "/") then some (name, text) else none
    | _ => none

end Files

end Overlap
