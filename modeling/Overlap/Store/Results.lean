/-
  The database of analysis results.

  A run is a row of `runs`; its groups, their members and their dependences
  are rows of three further tables, found by the number of the run.  A run is
  written as a whole or not at all.

  * `Database.ofTables` adds the tables that are missing;
  * `Database.writeRun` stores the groups of an analysis;
  * `Database.runs` and `Database.nodeSets` read them back.
-/
import Overlap.Report.Group
import Overlap.Store.Table
import Overlap.Store.Timestamp
import Overlap.Text.Quoted

namespace Overlap.Store

/-! ## Tables -/

/-- A database of results. -/
structure Database where
  runs : Table
  nodeSets : Table
  members : Table
  dependencies : Table
deriving Inhabited

/-- A new table of runs, in which the number of a row is its `id`. -/
def runTable : Table where
  name := "runs"
  columns := ["id", "root", "main_time", "created"]
  required := ["root", "main_time", "created"]
  key := []
  numbered := some "id"
  rows := []

/-- A new table of groups. -/
def nodeSetTable : Table where
  name := "node_sets"
  columns := ["run", "rank", "parent", "parent_file", "true_deps", "anti_deps", "output_deps",
    "control_deps", "no_dominate_deps", "cost", "score", "min_saving", "max_saving", "min_percent",
    "max_percent", "stores"]
  required := ["run", "rank", "parent", "true_deps", "anti_deps", "output_deps", "control_deps",
    "no_dominate_deps", "cost", "score", "min_saving", "max_saving", "min_percent", "max_percent",
    "stores"]
  key := ["run", "rank"]
  numbered := none
  rows := []

/-- A new table of members of groups. -/
def memberTable : Table where
  name := "members"
  columns := ["run", "rank", "position", "callee", "file", "line", "time", "stores"]
  required := ["run", "rank", "position", "callee", "time", "stores"]
  key := ["run", "rank", "position"]
  numbered := none
  rows := []

/-- A new table of dependences of groups. -/
def dependenceTable : Table where
  name := "dependencies"
  columns := ["run", "rank", "position", "callee", "own_object", "foreign_object", "kinds"]
  required := ["run", "rank", "position", "callee", "kinds"]
  key := ["run", "rank", "position"]
  numbered := none
  rows := []

/-- The database without any run. -/
def Database.empty : Database := ⟨runTable, nodeSetTable, memberTable, dependenceTable⟩

/-- The table among some with the name of a new one, or else the new one. -/
def existing (tables : List Table) (new : Table) : Table :=
  (tables.find? (·.name == new.name)).getD new

/-- The database with some tables; those that are missing are new. The groups must have the
    columns they are searched by. -/
def Database.ofTables (tables : List Table) : Except TableError Database := do
  let sets := existing tables nodeSetTable
  sets.checkRead ["run", "parent"]
  return ⟨existing tables runTable, sets, existing tables memberTable, existing tables dependenceTable⟩

/-! ## Statements -/

/-- A statement on the database, by what it does. -/
inductive Statement where
  | insertRun | insertNodeSet | insertMember | insertDependence
  | selectNodeSets | selectMembers | selectDependences
deriving DecidableEq, Repr

/-- The text of a statement. -/
def Statement.text : Statement → String
  | .insertRun => "INSERT INTO runs (root, main_time, created) VALUES (?, ?, ?)"
  | .insertNodeSet => "INSERT INTO node_sets (run, rank, parent, parent_file, true_deps, anti_deps,\n\t\toutput_deps, control_deps, no_dominate_deps, cost, score, min_saving, max_saving, min_percent, max_percent,\n\t\tstores) VALUES (?, ?, ?, ?, ?, ?, ?, ?, ?, ?, ?, ?, ?, ?, ?, ?)"
  | .insertMember => "INSERT INTO members (run, rank, position, callee, file, line, time, stores)\n\t\tVALUES (?, ?, ?, ?, ?, ?, ?, ?)"
  | .insertDependence => "INSERT INTO dependencies (run, rank, position, callee, own_object,\n\t\tforeign_object, kinds) VALUES (?, ?, ?, ?, ?, ?, ?)"
  | .selectNodeSets => "SELECT rank, parent, parent_file, true_deps, anti_deps, output_deps,\n\t\tcontrol_deps, no_dominate_deps, cost, score, min_saving, max_saving, min_percent, max_percent, stores\n\t\tFROM node_sets WHERE run = ? ORDER BY rank"
  | .selectMembers => "SELECT rank, callee, file, line, time, stores FROM members WHERE run = ?\n\t\tORDER BY rank, position"
  | .selectDependences => "SELECT rank, callee, own_object, foreign_object, kinds FROM dependencies\n\t\tWHERE run = ? ORDER BY rank, position"

/-- The text of an error that a statement has before it runs. -/
def Statement.unprepared (s : Statement) (e : TableError) : String :=
  "sqlite: prepare " ++ Text.quote s.text ++ ": " ++ e.message

/-! ## Writing -/

/-- Why a run could not be written. -/
inductive WriteError where
  | runStatement (e : TableError)
  | run (e : TableError)
  | nodeSetStatement (e : TableError)
  | nodeSet (rank : Int) (e : TableError)
  | memberStatement (e : TableError)
  | member (callee : String) (rank : Int) (e : TableError)
  | dependenceStatement (e : TableError)
  | dependence (rank : Int) (e : TableError)
deriving DecidableEq, Repr

/-- The text of an error. -/
def WriteError.message : WriteError → String
  | .runStatement e => "insert run: sqlitex.Exec: " ++ Statement.insertRun.unprepared e
  | .run e => "insert run: " ++ e.message
  | .nodeSetStatement e => "prepare node set insert: " ++ Statement.insertNodeSet.unprepared e
  | .nodeSet rank e => "insert node set " ++ toString rank ++ ": " ++ e.message
  | .memberStatement e => "prepare member insert: " ++ Statement.insertMember.unprepared e
  | .member callee rank e =>
    "insert member " ++ callee ++ " of node set " ++ toString rank ++ ": " ++ e.message
  | .dependenceStatement e => "prepare dependence insert: " ++ Statement.insertDependence.unprepared e
  | .dependence rank e => "insert dependence of node set " ++ toString rank ++ ": " ++ e.message

/-- The row of a run. -/
def runCells (root : String) (mainTime : Float) (created : String) : List (String × Datum) :=
  [("root", .text root), ("main_time", .ofFloat mainTime), ("created", .text created)]

/-- The row of a group. -/
def nodeSetCells (run : Int) (g : Group Float) : List (String × Datum) :=
  [("run", .integer run), ("rank", .integer g.rank), ("parent", .text g.parent),
    ("parent_file", .ofText g.parentFile), ("true_deps", .integer g.flowDeps),
    ("anti_deps", .integer g.antiDeps), ("output_deps", .integer g.outputDeps),
    ("control_deps", .integer g.controlDeps), ("no_dominate_deps", .integer g.noDominateDeps),
    ("cost", .ofFloat g.cost), ("score", .ofFloat g.score), ("min_saving", .ofFloat g.minSaving),
    ("max_saving", .ofFloat g.maxSaving), ("min_percent", .ofFloat g.minPercent),
    ("max_percent", .ofFloat g.maxPercent), ("stores", .integer g.stores)]

/-- The row of a member. -/
def memberCells (run rank position : Int) (m : MemberReport Float) : List (String × Datum) :=
  [("run", .integer run), ("rank", .integer rank), ("position", .integer position),
    ("callee", .text m.callee), ("file", .ofText m.file), ("line", .ofNonzero m.line),
    ("time", .ofFloat m.time), ("stores", .integer m.stores)]

/-- The row of a dependence, whose kinds are joined by commas. -/
def dependenceCells (run rank position : Int) (d : DependenceReport) : List (String × Datum) :=
  [("run", .integer run), ("rank", .integer rank), ("position", .integer position),
    ("callee", .text d.callee), ("own_object", .ofText d.own), ("foreign_object", .ofText d.foreign),
    ("kinds", .text (",".intercalate d.kinds))]

/-- The columns of the rows of groups. -/
def nodeSetColumns : List String := (nodeSetCells 0 default).map (·.1)

/-- The columns of the rows of members. -/
def memberColumns : List String := (memberCells 0 0 0 default).map (·.1)

/-- The columns of the rows of dependences. -/
def dependenceColumns : List String := (dependenceCells 0 0 0 default).map (·.1)

/-- Stores the groups of a run. -/
def insertNodeSets (t : Table) (run : Int) (groups : List (Group Float)) : Except WriteError Table := do
  (t.checkWritten nodeSetColumns).mapError .nodeSetStatement
  groups.foldlM (fun t g => (t.insert (nodeSetCells run g)).mapError (.nodeSet g.rank)) t

/-- Stores the members of the groups of a run. -/
def insertMembers (t : Table) (run : Int) (groups : List (Group Float)) : Except WriteError Table := do
  (t.checkWritten memberColumns).mapError .memberStatement
  groups.foldlM (fun t g => g.members.zipIdx.foldlM (fun t (m, i) =>
    (t.insert (memberCells run g.rank i m)).mapError (.member m.callee g.rank)) t) t

/-- Stores the dependences of the groups of a run. -/
def insertDependencies (t : Table) (run : Int) (groups : List (Group Float)) :
    Except WriteError Table := do
  (t.checkWritten dependenceColumns).mapError .dependenceStatement
  groups.foldlM (fun t g => g.dependencies.zipIdx.foldlM (fun t (d, i) =>
    (t.insert (dependenceCells run g.rank i d)).mapError (.dependence g.rank)) t) t

namespace Database

variable (db : Database)

/-- Stores the groups of an analysis as a new run, and gives the number of the run. -/
def writeRun (root : String) (mainTime : Float) (created : String) (groups : List (Group Float)) :
    Except WriteError (Int × Database) := do
  let cells := runCells root mainTime created
  (db.runs.checkWritten (cells.map (·.1))).mapError .runStatement
  let runs ← (db.runs.insert cells).mapError .run
  let run : Int := runs.lastNumber
  let nodeSets ← insertNodeSets db.nodeSets run groups
  let members ← insertMembers db.members run groups
  let dependencies ← insertDependencies db.dependencies run groups
  return (run, ⟨runs, nodeSets, members, dependencies⟩)

/-- The database after an attempt to write a run: unchanged if that fails. -/
def afterWrite (root : String) (mainTime : Float) (created : String) (groups : List (Group Float)) :
    Database :=
  match db.writeRun root mainTime created groups with
  | .ok (_, db') => db'
  | .error _ => db

end Database

/-! ## Reading -/

/-- A run of an analysis. -/
structure Run where
  id : Int
  root : String
  mainTime : Float
  created : String
deriving Inhabited

/-- Why the runs could not be read. -/
inductive RunsError where
  | statement (e : TableError)
  | created (run : Int) (value : String) (e : TimestampError)
deriving DecidableEq, Repr

/-- The text of an error. -/
def RunsError.message : RunsError → String
  | .statement e => "query runs: sqlitex.Exec: " ++ e.message
  | .created run value e =>
    "query runs: invalid creation time of run " ++ toString run ++ ": " ++ Timestamp.errorText value e

/-- Why the groups of a run could not be read. -/
inductive NodeSetsError where
  | statement (s : Statement) (what : String) (run : Int) (e : TableError)
  | strayMember (run rank : Int)
  | strayDependence (run rank : Int)
deriving DecidableEq, Repr

/-- The text of an error. -/
def NodeSetsError.message : NodeSetsError → String
  | .statement s what run e =>
    "query " ++ what ++ " of run " ++ toString run ++ ": sqlitex.Exec: " ++ s.unprepared e
  | .strayMember run rank =>
    "query members of run " ++ toString run ++ ": member of unknown node set " ++ toString rank
  | .strayDependence run rank =>
    "query dependencies of run " ++ toString run ++ ": dependence of unknown node set " ++ toString rank

/-- The group of a row, without members and dependences. -/
def groupOf (r : Row) : Group Float where
  rank := (r.get "rank").toInt
  parent := (r.get "parent").toText
  parentFile := (r.get "parent_file").toText
  members := []
  dependencies := []
  flowDeps := (r.get "true_deps").toInt
  antiDeps := (r.get "anti_deps").toInt
  outputDeps := (r.get "output_deps").toInt
  controlDeps := (r.get "control_deps").toInt
  noDominateDeps := (r.get "no_dominate_deps").toInt
  cost := (r.get "cost").toFloat
  score := (r.get "score").toFloat
  minSaving := (r.get "min_saving").toFloat
  maxSaving := (r.get "max_saving").toFloat
  minPercent := (r.get "min_percent").toFloat
  maxPercent := (r.get "max_percent").toFloat
  stores := (r.get "stores").toInt

/-- The member of a row. -/
def memberOf (r : Row) : MemberReport Float where
  callee := (r.get "callee").toText
  file := (r.get "file").toText
  line := (r.get "line").toInt
  time := (r.get "time").toFloat
  stores := (r.get "stores").toInt

/-- The dependence of a row. -/
def dependenceOf (r : Row) : DependenceReport where
  callee := (r.get "callee").toText
  own := (r.get "own_object").toText
  foreign := (r.get "foreign_object").toText
  kinds := ((r.get "kinds").toText.split ',').toList.map (·.copy)

/-- Changes the last group with a rank; none if there is none. -/
def updateLast (groups : List (Group Float)) (rank : Int) (change : Group Float → Group Float) :
    Option (List (Group Float)) :=
  match groups with
  | [] => none
  | g :: rest => match updateLast rest rank change with
    | some rest => some (g :: rest)
    | none => if g.rank = rank then some (change g :: rest) else none

/-- Adds rows to the groups they belong to. -/
def addRows (rows : List Row) (change : Row → Group Float → Group Float)
    (stray : Int → NodeSetsError) (groups : List (Group Float)) :
    Except NodeSetsError (List (Group Float)) :=
  rows.foldlM (fun groups r =>
    let rank := (r.get "rank").toInt
    match updateLast groups rank (change r) with
    | some groups => .ok groups
    | none => .error (stray rank)) groups

namespace Database

variable (db : Database)

/-- All runs, the latest first. -/
def listRuns : Except RunsError (List Run) := do
  (db.runs.checkRead ["id", "root", "main_time", "created"]).mapError .statement
  let rows := db.runs.rows.mergeSort fun a b => (b.get "id").le (a.get "id")
  rows.mapM fun r => do
    let id := (r.get "id").toInt
    let created := (r.get "created").toText
    (Timestamp.check created).mapError (.created id created)
    return ⟨id, (r.get "root").toText, (r.get "main_time").toFloat, created⟩

/-- The groups of a run, by rank. -/
def readNodeSets (run : Int) : Except NodeSetsError (List (Group Float)) := do
  (db.nodeSets.checkRead (nodeSetColumns.drop 1 ++ ["run"])).mapError
    (.statement .selectNodeSets "node sets" run)
  let groups := (db.nodeSets.rowsWith "run" run ["rank"]).map groupOf
  (db.members.checkRead (["rank"] ++ memberColumns.drop 3 ++ ["run", "position"])).mapError
    (.statement .selectMembers "members" run)
  let groups ← addRows (db.members.rowsWith "run" run ["rank", "position"])
    (fun r g => { g with members := g.members ++ [memberOf r] }) (.strayMember run) groups
  (db.dependencies.checkRead (["rank"] ++ dependenceColumns.drop 3 ++ ["run", "position"])).mapError
    (.statement .selectDependences "dependencies" run)
  addRows (db.dependencies.rowsWith "run" run ["rank", "position"])
    (fun r g => { g with dependencies := g.dependencies ++ [dependenceOf r] }) (.strayDependence run)
    groups

end Database

end Overlap.Store
