/-
  The report as a JSON document.

  A document has no place for undefined and infinite numbers, so writing one
  fails; the first such number in the order of the document is reported.
-/
import Overlap.Decimal.Format
import Overlap.Report.Group
import Overlap.Text.Json

namespace Overlap

open Ssa Text

/-- A number that cannot be part of a document. -/
structure DocumentError where
  value : Float

/-- The message of an error. -/
def DocumentError.message (e : DocumentError) : String :=
  "json: unsupported value: " ++ Decimal.general e.value

/-- The text of a number in a document. -/
def Json.number (x : Float) : Except DocumentError Json :=
  match Decimal.parts x with
  | .finite .. => .ok (.num (Decimal.document x))
  | _ => .error ⟨x⟩

namespace Group

/-- A member of a group in a document. -/
def memberJson (m : MemberReport Float) : Except DocumentError Json := do
  return .object [("callee", .str m.callee), ("file", .str m.file), ("line", .int m.line),
    ("time", ← Json.number m.time), ("stores", .int m.stores)]

/-- A dependence of a group in a document. -/
def dependenceJson (d : DependenceReport) : Json :=
  .object [("callee", .str d.callee), ("own", .str d.own), ("foreign", .str d.foreign),
    ("kinds", .listOrNull (d.kinds.map .str))]

/-- A group in a document. -/
def json (g : Group Float) : Except DocumentError Json := do
  return .object [
    ("rank", .int g.rank), ("parent", .str g.parent), ("parentFile", .str g.parentFile),
    ("members", .listOrNull (← g.members.mapM memberJson)),
    ("dependencies", .listOrNull (g.dependencies.map dependenceJson)),
    ("trueDeps", .int g.flowDeps), ("antiDeps", .int g.antiDeps),
    ("outputDeps", .int g.outputDeps), ("controlDeps", .int g.controlDeps),
    ("noDominateDeps", .int g.noDominateDeps),
    ("cost", ← Json.number g.cost), ("score", ← Json.number g.score),
    ("minSaving", ← Json.number g.minSaving), ("maxSaving", ← Json.number g.maxSaving),
    ("minPercent", ← Json.number g.minPercent), ("maxPercent", ← Json.number g.maxPercent),
    ("stores", .int g.stores)]

end Group

/-- The document of a result. -/
def Result.jsonReport (r : Result Float) (P : Program) (opts : ReportOptions Float) :
    Except DocumentError String := do
  return (Json.object [
    ("maintime", ← Json.number r.totalTime), ("root", .str (P.runtimeName r.root)),
    ("groups", .arr (← (r.groups P opts).mapM (·.json)))]).render

end Overlap
