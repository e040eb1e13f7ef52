/-
  What the commands do with a program.

  * `analyze` reports the groups of calls that could run in parallel, and
    exports them if the configuration asks for it;
  * `render` draws the call tree or a dependence graph, or lists a function.
-/
import Overlap.Analysis.Setup
import Overlap.Annotation
import Overlap.Command.Options
import Overlap.Render
import Overlap.Report.Document
import Overlap.Report.Text
import Overlap.Store.Open

namespace Overlap.Command

open Ssa

/-- Why a command fails after the analysis was set up. -/
inductive RunError where
  | analysis (e : AnalysisError)
  | report (e : DocumentError)
  | openStore (e : Store.OpenError)
  | writeStore (e : Store.WriteError)
  | annotate (e : AnnotateError)
  | noFunction (name : String)
  | unreached (name : String)
  | drawing (e : DrawError)

/-- The text of an error. -/
def RunError.message (s : Setup) : RunError → String
  | .analysis (.root e) => s.failureText e
  | .analysis (.pair e) => e.message s.context.program
  | .report e => "could not write report: " ++ e.message
  | .openStore e => e.message
  | .writeStore e => e.message
  | .annotate e => "could not annotate sources: " ++ e.message
  | .noFunction name => "could not find function " ++ name ++ " in the program"
  | .unreached name =>
    "function " ++ name ++ " is not reachable from " ++ s.config.entry ++ " in the analysis"
  | .drawing e => e.message

/-- What a command has printed, and the files it leaves. -/
structure Finished where
  output : String
  files : Files

/-- The result of an analysis in the order that was asked for. -/
def ordered {τ : Type} [Quantity τ] (order : NodeSet.Order) (r : Result τ) : Result τ :=
  { r with nodeSets := NodeSet.sortBy r.weights order r.nodeSets }

/-- The report of a result. -/
def report (s : Setup) (json : Bool) (r : Result Float) : Except DocumentError String :=
  if json then r.jsonReport s.context.program s.config.reportOptions
  else .ok (r.textReport s.context.program s.config.reportOptions)

/-- Stores the reported groups in the database that the configuration names. -/
def exportGroups (s : Setup) (created : String) (r : Result Float) (fs : Files) : Except RunError Files :=
  let path := s.config.relative s.config.database
  if path.isEmpty then .ok fs
  else do
    let db ← (Store.openDatabase fs path).mapError .openStore
    let (_, db) ← (db.writeRun (s.context.program.runtimeName r.root) r.totalTime created
      (r.groups s.context.program s.config.reportOptions)).mapError .writeStore
    return Store.saveDatabase fs path db

/-- Writes annotated sources to the directory that the configuration names. -/
def annotateSources (s : Setup) (r : Result Float) (fs : Files) : Except AnnotateError Files :=
  let directory := s.config.relative s.config.annotateDir
  if directory.isEmpty then .ok fs
  else writeAnnotated directory fs (r.annotations s.context.program s.config.reportOptions)

/-- Runs `analyze`; `created` is the time of the run. -/
def analyze (s : Setup) (o : AnalyzeOptions) (created : String) (fs : Files) :
    Except RunError Finished := do
  let (r, _) ← s.run.mapError .analysis
  let r := ordered o.order r
  let output ← (report s o.json r).mapError .report
  let fs ← exportGroups s created r fs
  let fs ← (annotateSources s r fs).mapError .annotate
  return ⟨output, fs⟩

/-- What `render` writes. -/
def render (s : Setup) (o : RenderOptions) : Except RunError String := do
  let P := s.context.program
  let (r, state) ← s.run.mapError .analysis
  if o.function.isEmpty then return (drawCallTree P.runtimeName r.callTree o.cycles).text
  let f ← match P.findFunction? o.function with
    | some f => pure f
    | none => throw (.noFunction o.function)
  if o.ssa then return P.listings f
  match state.graphs[f]? with
  | none => throw (.unreached o.function)
  | some g =>
    let drawing ← (drawDependences P s.context.resolve g).mapError .drawing
    return drawing.text

/-- The files after the output of `render` has been written to the file that was asked for. -/
def writeOutput (file output : String) (fs : Files) : Except String Files :=
  (fs.write file (.text output)).mapError fun e => "could not create file: " ++ e.message

end Overlap.Command
