/-
  Databases in files.

  * `openDatabase` opens the database of a file, a new one if there is none;
  * `saveDatabase` stores it.
-/
import Overlap.Files
import Overlap.Store.Results

namespace Overlap.Store

/-- Why a database could not be opened. -/
inductive OpenError where
  | unopenable (path : String)
  | notDatabase (path : String)
  | tables (e : TableError)
deriving DecidableEq, Repr

/-- The text of an error. -/
def OpenError.message : OpenError → String
  | .unopenable path =>
    "open sqlite: sqlite: open " ++ Text.quote path ++ ": unable to open database file"
  | .notDatabase path =>
    "open sqlite: sqlite: open " ++ Text.quote path ++ ": file is not a database: file is not a database"
  | .tables e => "create tables: " ++ e.message

/-- Whether a path means a database that is in no file. -/
def isPrivate (path : String) : Bool := path == ":memory:" || path.isEmpty

/-- The tables in a file; an empty file has none. -/
def tablesAt (fs : Files) (path : String) : Except OpenError (List Table) :=
  if isPrivate path then .ok []
  else match fs.read path with
    | .ok (.tables tables) => .ok tables
    | .ok (.text "") => .ok []
    | .ok _ => .error (.notDatabase path)
    | .error (.missing _) => if fs.canCreate path then .ok [] else .error (.unopenable path)
    | .error _ => .error (.unopenable path)

/-- Opens the database at a path. -/
def openDatabase (fs : Files) (path : String) : Except OpenError Database := do
  (Database.ofTables (← tablesAt fs path)).mapError .tables

/-- The files after a database has been stored at a path. -/
def saveDatabase (fs : Files) (path : String) (db : Database) : Files :=
  if isPrivate path then fs
  else match fs.write path (.tables [db.runs, db.nodeSets, db.members, db.dependencies]) with
    | .ok fs => fs
    | .error _ => fs

end Overlap.Store
