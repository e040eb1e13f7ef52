/-
  Setting up an analysis from a configuration.

  * `Config.settings` are the settings of an analysis, `Config.reportOptions`
    which of its groups are reported;
  * `Config.memory` is the pointer analysis that a configuration asks for;
  * `Setup.make` finds the root, loads the profile, and computes memory nodes
    and call graph;
  * `Setup.run` analyses the program.
-/
import Overlap.Analysis.Run
import Overlap.CallGraph.Mode
import Overlap.Config.Basic
import Overlap.Profile.Load
import Overlap.Report.Group

namespace Overlap

open Ssa

/-- Why there are no memory nodes. -/
inductive MemoryError where
  | unknownName (name : String)
  | withoutMain
deriving DecidableEq, Repr

/-- The text of an error. -/
def MemoryError.message : MemoryError → String
  | .unknownName name => "unknown pointer analysis " ++ Text.quote name
  | .withoutMain => Memory.noMainMessage

namespace Config

variable (c : Config)

/-- The settings of an analysis. -/
def settings : Settings Float where
  unknown := if c.unknownCalleeEffect == "modref" then .modRef else .none
  dominators := c.dominatorAnalysis
  dedup := c.deduplicateEdges
  inScope := c.accepts
  weights := c.weights

/-- The groups that are reported. -/
def reportOptions : ReportOptions Float := ⟨c.minSavingPercent, c.maxNodeSets⟩

/-- The pointer analysis of a program: of the whole program for the functions that the package
    filter accepts, or inside each function. -/
def memory (P : Program) : Except MemoryError Memory.PointerAnalysis :=
  match c.pointerAnalysis with
  | "andersen" =>
    if P.mainPackages.isEmpty then .error .withoutMain
    else .ok (Memory.pointsTo P fun f => c.accepts (P.packagePath f))
  | "base" | "" => .ok (Memory.baseObjects P)
  | name => .error (.unknownName name)

end Config

/-- Why an analysis cannot start. -/
inductive SetupError where
  | noEntry (name : String)
  | profile (e : ProfileError)
  | memory (e : MemoryError)
  | mode (e : CallGraphError)
  | callGraph (e : CallGraphError)
deriving DecidableEq, Repr

/-- The text of an error. -/
def SetupError.message : SetupError → String
  | .noEntry name => "could not find entry function " ++ name ++ " in the program"
  | .profile e => e.message
  | .memory e => "could not compute memory nodes: " ++ e.message
  | .mode e => e.message
  | .callGraph e => "could not compute callgraph: " ++ e.message

/-- An analysis that is ready to run. -/
structure Setup where
  config : Config
  root : Nat
  context : Context Float

namespace Setup

/-- The profile that a configuration names. -/
def profile (fs : Files) (c : Config) : Except ProfileError (Option (Profile Float)) :=
  if c.profile.isEmpty then .ok none else (Profile.load fs c.profilePath).map some

/-- The call graph that a configuration asks for. -/
def callGraph (c : Config) (P : Program) : Except SetupError (Option CallGraph) := do
  let mode ← (CallGraphMode.parse c.callgraphResolution).mapError .mode
  (mode.compute P).mapError .callGraph

/-- Sets up the analysis of a program. -/
def make (fs : Files) (c : Config) (P : Program) : Except SetupError Setup :=
  match P.findFunction? c.entry, profile fs c, c.memory P, callGraph c P with
  | none, _, _, _ => .error (.noEntry c.entry)
  | _, .error e, _, _ => .error (.profile e)
  | _, _, .error e, _ => .error (.memory e)
  | _, _, _, .error e => .error e
  | some root, .ok profile, .ok pointers, .ok graph =>
    .ok { config := c
          root
          context := (Resolver.ofProgram P profile graph).context (some pointers) c.settings }

/-- Why an analysis that was set up fails. -/
def failureText (s : Setup) (e : RootError) : String :=
  "analysis of " ++ s.config.entry ++ " failed: " ++ e.message s.context.program

/-- Runs the analysis. -/
def run (s : Setup) : Except AnalysisError (Result Float × State) :=
  s.context.analyze (some s.root) .fresh

end Setup

end Overlap
