/-
  The analysis of a program from a root function.

  * `Context.buildGraphs` builds the dependence graphs of all functions of the
    call tree: every analysis runs on every pair of candidate sites;
  * `Context.collectNodeSets` makes a node set of every such pair;
  * `Context.analyze` does both and ranks the node sets.
-/
import Overlap.Dependence.Analyzer

namespace Overlap

open Ssa

/-- The result of an analysis. -/
structure Result (τ : Type) where
  root : Nat
  totalTime : τ
  /-- The node sets of the analysed functions, best first. -/
  nodeSets : List (NodeSet τ)
  callTree : CallTree
  weights : Weights τ

/-- Why there is nothing to analyse. -/
inductive RootError where
  | missing
  | external (func : Nat)
deriving DecidableEq, Repr

/-- The message of an error. -/
def RootError.message (P : Program) : RootError → String
  | .missing => "no root function"
  | .external f => "root function " ++ P.funcString f ++ " has no body"

/-- Why an analysis fails. -/
inductive AnalysisError where
  | root (e : RootError)
  | pair (e : PairError)
deriving DecidableEq, Repr

/-- The pairs of elements of a list, the first before the second. -/
def orderedPairs {α : Type} : List α → List (α × α)
  | [] => []
  | x :: rest => rest.map (x, ·) ++ orderedPairs rest

namespace Context

variable {τ : Type} [Quantity τ] (C : Context τ)

/-- Runs all analyses on one pair of call sites of `f`. -/
def analyzeSites (f : Nat) (s : State) (pair : Loc × Loc) : Except PairError State :=
  C.analyzers.foldlM (fun s analyzer => C.analyzePair analyzer f (some pair.1) (some pair.2) s) s

/-- Builds the dependence graph of one function. -/
def buildGraph (s : State) (f : Nat) : Except PairError State :=
  let sites := C.candidates f
  let s := s.updateGraph f C.settings.dedup fun g => sites.foldl (·.addNode ·) g
  (orderedPairs sites).foldlM (C.analyzeSites f) s

/-- Builds the dependence graphs of all functions of a call tree. -/
def buildGraphs (tree : CallTree) (s : State) : Except PairError State :=
  tree.functions.foldlM C.buildGraph s

/-- A candidate site as a member of node sets. -/
def member (site : Loc) : Member τ := ⟨site, C.resolve site, C.time site⟩

/-- The node sets of one function, a set for each pair of its candidate sites. -/
def functionNodeSets (s : State) (f : Nat) : List (NodeSet τ) :=
  (orderedPairs ((C.candidates f).map C.member)).map fun (x, y) =>
    .build C.program (s.graph f C.settings.dedup) [x, y]

/-- The node sets of the functions of a call tree, and the state, in which each function has a
    graph. -/
def collectNodeSets (tree : CallTree) (s : State) : List (NodeSet τ) × State :=
  (tree.functions.flatMap (C.functionNodeSets s),
    tree.functions.foldl (fun s f => s.updateGraph f C.settings.dedup id) s)

/-- The function to start from. -/
def checkRoot (root : Option Nat) : Except RootError Nat :=
  match root with
  | none => .error .missing
  | some f => if C.program.hasBody f then .ok f else .error (.external f)

/-- Analyses the functions reachable from `root`. -/
def analyze (root : Option Nat) (s : State) : Except AnalysisError (Result τ × State) := do
  let root ← (C.checkRoot root).mapError .root
  let tree := C.callTree root
  let s ← (C.buildGraphs tree s).mapError .pair
  let (sets, s) := C.collectNodeSets tree s
  return ({ root := root
            totalTime := C.totalTime
            nodeSets := NodeSet.rank C.settings.weights sets
            callTree := tree
            weights := C.settings.weights }, s)

end Context

end Overlap
