/-
  Reported groups: node sets in the form in which they are shown.

  `groups` reports the node sets of a result that may save enough of the run
  time, up to a number of sets.  The rank of a group is its position in the
  ranking of the result, starting at one, whatever is left out before it.
-/
import Overlap.Analysis.Run

namespace Overlap

open Ssa

/-- Which node sets are reported. -/
structure ReportOptions (τ : Type) where
  /-- The least saving that is reported, in percent of the time of the run. -/
  minSavingPercent : τ
  /-- The greatest number of sets; there is no limit unless it is positive. -/
  maxNodeSets : Int

/-- A call site of a reported group. -/
structure MemberReport (τ : Type) where
  callee : String
  file : String
  line : Int
  time : τ
  stores : Int
deriving Inhabited

/-- A dependence of a reported group, with the callee of its target. -/
structure DependenceReport where
  callee : String
  own : String
  foreign : String
  kinds : List String
deriving DecidableEq, Repr, Inhabited

/-- A reported group. -/
structure Group (τ : Type) where
  rank : Int
  parent : String
  parentFile : String
  members : List (MemberReport τ)
  dependencies : List DependenceReport
  /-- The numbers of dependences of each kind. -/
  flowDeps : Int
  antiDeps : Int
  outputDeps : Int
  controlDeps : Int
  noDominateDeps : Int
  cost : τ
  score : τ
  minSaving : τ
  maxSaving : τ
  minPercent : τ
  maxPercent : τ
  stores : Int
deriving Inhabited

variable {τ : Type} [Quantity τ]

/-- A time in percent of the time of the run, zero if that is not known. -/
def percent (x total : τ) : τ :=
  if Quantity.le total Quantity.zero then Quantity.zero else x / total * Quantity.ofInt 100

namespace Group

/-- A member as it is shown. -/
def memberReport (P : Program) (m : Member τ) : MemberReport τ :=
  let pos := P.sourcePos m.site
  { callee := P.displayFunction m.callee
    file := pos.fileBase
    line := pos.line
    time := m.time
    stores := (m.callee.map P.storeCount).getD 0 }

/-- The callee of a site among the members of a set; a site that is a member several times has
    the callee of its last one. -/
def calleeOf (members : List (Member τ)) (site : Loc) : Option Nat :=
  (members.reverse.find? (·.site == site)).bind (·.callee)

/-- The report of a node set of rank `rank`. -/
def ofNodeSet (P : Program) (weights : Weights τ) (totalTime : τ) (rank : Int) (s : NodeSet τ) :
    Group τ :=
  { rank := rank
    parent := P.shortName s.func
    parentFile := P.functionFile s.func
    members := s.members.map (memberReport P)
    dependencies := s.edges.map fun e =>
      ⟨P.displayFunction (calleeOf s.members e.target), e.own, e.foreign, e.kind.names⟩
    flowDeps := s.count .flow
    antiDeps := s.count .anti
    outputDeps := s.count .output
    controlDeps := s.count .control
    noDominateDeps := s.count .noDominate
    cost := s.cost weights
    score := s.score weights
    minSaving := s.minSaving
    maxSaving := s.maxSaving
    minPercent := percent s.minSaving totalTime
    maxPercent := percent s.maxSaving totalTime
    stores := s.stores }

end Group

namespace Result

/-- Whether a node set may save enough to be reported. Without a time of the run there is no
    threshold. -/
def isKept (r : Result τ) (opts : ReportOptions τ) (s : NodeSet τ) : Bool :=
  !(Quantity.isPositive r.totalTime &&
    Quantity.lt s.maxSaving (r.totalTime * opts.minSavingPercent / Quantity.ofInt 100))

/-- The ranks and node sets that are reported. -/
def kept (r : Result τ) (opts : ReportOptions τ) : List (Nat × NodeSet τ) :=
  let all := (r.nodeSets.zipIdx.filter fun (s, _) => r.isKept opts s).map fun (s, i) => (i + 1, s)
  if 0 < opts.maxNodeSets then all.take opts.maxNodeSets.toNat else all

/-- The node sets that are reported, each with its position in the ranking. -/
def reportedSets (r : Result τ) (P : Program) (opts : ReportOptions τ) :
    List (Group τ × NodeSet τ) :=
  (r.kept opts).map fun (rank, s) => (.ofNodeSet P r.weights r.totalTime rank s, s)

/-- The reports of the node sets kept by the options, in the order of the ranking. -/
def groups (r : Result τ) (P : Program) (opts : ReportOptions τ) : List (Group τ) :=
  (r.reportedSets P opts).map (·.1)

end Result

end Overlap
