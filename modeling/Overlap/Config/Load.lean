/-
  Configuration files.

  * `Config.parse` reads the text of a configuration;
  * `Config.load` loads a file, and creates the directory of reports.
-/
import Overlap.Config.Basic
import Overlap.Files
import Overlap.Yaml.Decode

namespace Overlap.Config

open Yaml

/-- Why a configuration could not be loaded. -/
inductive Error where
  | unreadable (e : FileError)
  | undecodable (e : DecodeError)
  | noDirectory (name : String)
  | invalid (file : String) (problems : List Problem)
deriving Repr

/-- The text of an error. -/
def Error.message : Error → String
  | .unreadable e => "could not read config file: " ++ e.message
  | .undecodable e => "could not unmarshal config file: " ++ e.message
  | .noDirectory name => "could not create directory " ++ name
  | .invalid file ps => "invalid config file " ++ file ++ ": " ++ problemText ps

/-- How weights are read. -/
def weightsDecoder : Decoder (Weights Float) :=
  Decode.record "config.Weights" [
    Decode.field "true-dependence" (·.flow) (fun w v => { w with flow := v }) Decode.float,
    Decode.field "anti-dependence" (·.anti) (fun w v => { w with anti := v }) Decode.float,
    Decode.field "output-dependence" (·.output) (fun w v => { w with output := v }) Decode.float,
    Decode.field "control-dependence" (·.control) (fun w v => { w with control := v }) Decode.float,
    Decode.field "no-dominate-dependence" (·.noDominate) (fun w v => { w with noDominate := v })
      Decode.float,
    Decode.field "decay" (·.decay) (fun w v => { w with decay := v }) Decode.float]

/-- How the general options are read. -/
def optionsDecoder : Decoder Config :=
  Decode.record "config.Options" [
    Decode.field "reports-dir" (·.reportsDir) (fun c v => { c with reportsDir := v }) Decode.string,
    Decode.field "pkg-filter" (·.pkgFilter) (fun c v => { c with pkgFilter := v }) Decode.string,
    Decode.field "log-level" (·.logLevel) (fun c v => { c with logLevel := v }) Decode.int]

/-- How a configuration is read. -/
def decoder : Decoder Config :=
  Decode.record "config.Config" [
    Decode.field "options" id (fun _ v => v) optionsDecoder,
    Decode.field "entry" (·.entry) (fun c v => { c with entry := v }) Decode.string,
    Decode.field "profile" (·.profile) (fun c v => { c with profile := v }) Decode.string,
    Decode.field "pointer-analysis" (·.pointerAnalysis) (fun c v => { c with pointerAnalysis := v })
      Decode.string,
    Decode.field "callgraph-resolution" (·.callgraphResolution)
      (fun c v => { c with callgraphResolution := v }) Decode.string,
    Decode.field "dominator-analysis" (·.dominatorAnalysis)
      (fun c v => { c with dominatorAnalysis := v }) Decode.bool,
    Decode.field "unknown-callee-effect" (·.unknownCalleeEffect)
      (fun c v => { c with unknownCalleeEffect := v }) Decode.string,
    Decode.field "deduplicate-edges" (·.deduplicateEdges)
      (fun c v => { c with deduplicateEdges := v }) Decode.bool,
    Decode.field "min-saving-percent" (·.minSavingPercent)
      (fun c v => { c with minSavingPercent := v }) Decode.float,
    Decode.field "max-node-sets" (·.maxNodeSets) (fun c v => { c with maxNodeSets := v }) Decode.int,
    Decode.field "weights" (·.weights) (fun c v => { c with weights := v }) weightsDecoder,
    Decode.field "database" (·.database) (fun c v => { c with database := v }) Decode.string,
    Decode.field "annotate-dir" (·.annotateDir) (fun c v => { c with annotateDir := v })
      Decode.string]

/-- The settings in the text of a file, over the usual ones.  A log level of zero is the usual
    one, and a package filter that is a regular expression is used as one. -/
def parse (file text : String) : Except DecodeError Config := do
  let c ← decode decoder default text
  return { c with
    sourceFile := file
    logLevel := if c.logLevel = 0 then LogLevel.info.number else c.logLevel
    pkgRegex := if c.pkgFilter.isEmpty then none else (Regex.parse c.pkgFilter).toOption }

/-- Loads a configuration file; the directory of reports is created if it does not exist. -/
def load (fs : Files) (file : String) : Except Error (Config × Files) := do
  let text ← match fs.read file with
    | .error e => throw (.unreadable e)
    | .ok (.text text) => pure text
    | .ok _ => throw (.undecodable .malformed)
  let c ← match parse file text with
    | .error e => throw (.undecodable e)
    | .ok c => pure c
  if !c.reportsDir.isEmpty && !fs.canCreate c.reportsDir then throw (.noDirectory c.reportsDir)
  let fs := if c.reportsDir.isEmpty then fs else fs.createDirectory c.reportsDir
  match c.problems with
  | [] => return (c, fs)
  | ps => throw (.invalid file ps)

/-- The configuration for a command: the usual one if no file is named. -/
def forCommand (fs : Files) (file : String) (verbose : Bool) : Except String (Config × Files) :=
  if file.isEmpty then .ok (default.raised verbose, fs)
  else match load fs file with
    | .error e => .error ("failed to load config file " ++ file ++ ": " ++ e.message)
    | .ok (c, fs) => .ok (c.raised verbose, fs)

end Overlap.Config
