/-
  What an analysis of a program depends on, and what it has found so far.

  * `Context` holds the inputs: the program, the callees of its call sites, the
    pointer analysis, the profile and the settings;
  * `State` holds the dependence graphs and the tables of effects and global
    accesses, which grow as questions are asked;
  * `Context.candidates` are the call sites whose callee is known, and
    `Context.callees` the functions of the analysed packages they call.
-/
import Overlap.CallGraph.Resolver
import Overlap.CallTree
import Overlap.Dependence.Graph
import Overlap.GlobalAccess
import Overlap.Memory.Nodes
import Overlap.NodeSet

namespace Overlap

open Ssa

/-- The settings of an analysis. -/
structure Settings (τ : Type) where
  /-- The effect of callees that are not known or have no body. -/
  unknown : Effect
  /-- Whether call sites that do not dominate each other depend on each other. -/
  dominators : Bool
  /-- Whether graphs keep only the first of several equal edges. -/
  dedup : Bool
  /-- The import paths of the packages that are analysed. -/
  inScope : String → Bool
  weights : Weights τ

/-- The inputs of an analysis. -/
structure Context (τ : Type) where
  program : Program
  /-- The function with a body called at a site, if it is known. -/
  resolve : Loc → Option Nat
  pointers : Option Memory.PointerAnalysis
  profile : Option (Profile τ)
  settings : Settings τ

/-- The inputs of an analysis in which a resolver finds the callees. -/
def Resolver.context {τ : Type} (R : Resolver τ) (pointers : Option Memory.PointerAnalysis)
    (settings : Settings τ) : Context τ :=
  ⟨R.program, R.callee, pointers, R.profile, settings⟩

/-- What an analysis has found so far. -/
structure State where
  effects : EffectMemo
  accesses : Effect.Source.AccessMemo
  graphs : Std.HashMap Nat Dependence.Graph

/-- The state before the first question. -/
def State.fresh : State := ⟨∅, ∅, ∅⟩

namespace Context

variable {τ : Type} [Quantity τ] (C : Context τ)

/-- What effects depend on. -/
def source : Effect.Source := ⟨C.program, C.resolve, C.settings.unknown⟩

/-- The call sites of `f` whose callee is known, in order. -/
def candidates (f : Nat) : List Loc := (C.program.callSites f).filter fun l => (C.resolve l).isSome

/-- Whether a function belongs to an analysed package. -/
def inScope (f : Nat) : Bool := C.settings.inScope (C.program.packagePath f)

/-- The functions called at the candidate sites of `f`, each once, in the order of the sites. -/
def callees (f : Nat) : List Nat :=
  (((C.candidates f).filterMap C.resolve).filter C.inScope).eraseDups

/-- The call tree of the functions analysed from `root`. Besides the root it has no more functions
    than there are call sites. -/
def callTree (root : Nat) : CallTree := .build C.callees C.program.allCallSites.length root

/-- The time spent in the calls at a site. -/
def time (site : Loc) : τ :=
  match C.profile with
  | some p => p.executionTime C.program site
  | none => Quantity.zero

/-- The time of the whole run. -/
def totalTime : τ :=
  match C.profile with
  | some p => p.totalTime
  | none => Quantity.zero

end Context

namespace State

/-- The graph of a function, a new one if it has none. -/
def graph (s : State) (f : Nat) (dedup : Bool) : Dependence.Graph :=
  (s.graphs[f]?).getD (.empty f dedup)

/-- Changes the graph of a function, which is created if it does not exist. -/
def updateGraph (s : State) (f : Nat) (dedup : Bool)
    (change : Dependence.Graph → Dependence.Graph) : State :=
  { s with graphs := s.graphs.insert f (change (s.graph f dedup)) }

end State

end Overlap
