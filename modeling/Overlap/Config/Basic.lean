/-
  The configuration of the tool.

  * `Config` has the settings, `Config.default` those used without a file;
  * `Config.problems` lists the settings that have no meaning;
  * `Config.accepts` is the package filter: a regular expression, or the start
    of the import path if the filter is none;
  * `Config.relative` is a path relative to the configuration file.
-/
import Overlap.Decimal.Format
import Overlap.NodeSet
import Overlap.Regex.Pattern
import Overlap.Text.Path
import Overlap.Text.Quoted

namespace Overlap

open Text

/-- The verbosity of the tool. -/
inductive LogLevel where
  | error | warn | info | debug | trace
deriving DecidableEq, Repr

/-- The number of a level; messages of higher levels are dropped. -/
def LogLevel.number : LogLevel → Int
  | .error => 1
  | .warn => 2
  | .info => 3
  | .debug => 4
  | .trace => 5

/-- The settings of the tool. -/
structure Config where
  /-- The directory where reports are written; empty: reports are printed. -/
  reportsDir : String := ""
  /-- Restricts the analysis to packages. -/
  pkgFilter : String := ""
  logLevel : Int := LogLevel.info.number
  /-- The runtime name of the root function. -/
  entry : String := "main.main"
  /-- The file of the profile; empty: there is none. -/
  profile : String := ""
  /-- How memory nodes are found: `base` or `andersen`. -/
  pointerAnalysis : String := "base"
  /-- The call graph that resolves indirect calls; empty: none. -/
  callgraphResolution : String := ""
  dominatorAnalysis : Bool := false
  /-- The effect of unknown callees: `none` or `modref`. -/
  unknownCalleeEffect : String := "none"
  deduplicateEdges : Bool := false
  /-- The saving, in percent of the total time, below which a group is not reported. -/
  minSavingPercent : Float := 1
  /-- The greatest number of groups that are reported; ignored unless positive. -/
  maxNodeSets : Int := 0
  weights : Weights Float := .default
  /-- The file of the database to which results are exported; empty: none. -/
  database : String := ""
  /-- The directory of annotated sources; empty: none. -/
  annotateDir : String := ""
  /-- The file that the settings come from; empty: none. -/
  sourceFile : String := ""
  /-- The package filter as a regular expression, if it is one. -/
  pkgRegex : Option Regex := none
deriving Inhabited

namespace Config

/-- The settings used without a file. -/
def default : Config := {}

/-! ## Validity -/

/-- A setting that has no meaning. -/
inductive Problem where
  | pointerAnalysis (value : String)
  | unknownCalleeEffect (value : String)
  | callgraphResolution (value : String)
  | negativeWeight
  | decay (value : Float)
  | minSaving
deriving Repr

/-- The text of a problem. -/
def Problem.message : Problem → String
  | .pointerAnalysis v => "unknown pointer-analysis " ++ quote v
  | .unknownCalleeEffect v => "unknown unknown-callee-effect " ++ quote v
  | .callgraphResolution v => "unknown callgraph-resolution " ++ quote v
  | .negativeWeight => "dependence weights must be non-negative"
  | .decay v => "weights.decay must be positive, got " ++ Decimal.general v
  | .minSaving => "min-saving-percent must be non-negative"

/-- The names of pointer analyses. -/
def pointerAnalyses : List String := ["base", "andersen"]

/-- The names of the effects of unknown callees. -/
def unknownEffects : List String := ["none", "modref"]

/-- The names of call graphs. -/
def callgraphs : List String := ["", "none", "static", "cha", "rta", "vta", "pointer"]

/-- Whether some weight of a dependence is negative. -/
def hasNegativeWeight (w : Weights Float) : Bool :=
  w.flow < 0 || w.anti < 0 || w.output < 0 || w.control < 0 || w.noDominate < 0

/-- The settings that have no meaning, all of them. -/
def problems (c : Config) : List Problem :=
  (if pointerAnalyses.contains c.pointerAnalysis then [] else [.pointerAnalysis c.pointerAnalysis]) ++
  (if unknownEffects.contains c.unknownCalleeEffect then []
    else [.unknownCalleeEffect c.unknownCalleeEffect]) ++
  (if callgraphs.contains c.callgraphResolution then []
    else [.callgraphResolution c.callgraphResolution]) ++
  (if hasNegativeWeight c.weights then [.negativeWeight] else []) ++
  (if c.weights.decay ≤ 0 then [.decay c.weights.decay] else []) ++
  (if c.minSavingPercent < 0 then [.minSaving] else [])

/-- The texts of problems, one a line. -/
def problemText (ps : List Problem) : String := "\n".intercalate (ps.map Problem.message)

/-! ## Use -/

/-- A path relative to the configuration file. -/
def relative (c : Config) (path : String) : String :=
  if path.isEmpty || Path.isAbsolute path || c.sourceFile.isEmpty then path
  else Path.join (Path.dir c.sourceFile) path

/-- The path of the profile. -/
def profilePath (c : Config) : String := c.relative c.profile

/-- Whether the package filter lets an import path through. -/
def accepts (c : Config) (path : String) : Bool :=
  match c.pkgRegex with
  | some r => r.search path
  | none => c.pkgFilter.isEmpty || path.startsWith c.pkgFilter

/-- Whether more than the usual messages are logged. -/
def verbose (c : Config) : Bool := LogLevel.debug.number ≤ c.logLevel

/-- The configuration with at least the messages for debugging. -/
def raised (c : Config) (verbose : Bool) : Config :=
  if verbose && c.logLevel < LogLevel.debug.number then
    { c with logLevel := LogLevel.debug.number }
  else c

end Config

end Overlap
