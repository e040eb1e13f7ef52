/-
  Node sets: call sites of one function that could run in parallel, with the
  dependences between them and the time their parallel execution could save.

  * `NodeSet.build` collects the dependences between the members, each once,
    and bounds the saving;
  * `NodeSet.cost` is the weighted number of dependences, and `NodeSet.score`
    the greatest saving, which decays exponentially with the cost;
  * `NodeSet.rank` sorts sets by decreasing score.
-/
import Overlap.Dependence.Graph
import Overlap.Quantity
import Overlap.Ssa.Object

namespace Overlap

open Ssa Dependence

/-- The weights of the kinds of dependence in the cost of a node set, and the constant of the
    decay of its score. -/
structure Weights (τ : Type) where
  flow : τ
  anti : τ
  output : τ
  control : τ
  noDominate : τ
  decay : τ
deriving Inhabited

/-- The weights used where none are given. -/
def Weights.default {τ : Type} [Quantity τ] : Weights τ :=
  let n := fun (i : Int) => (Quantity.ofInt i : τ)
  ⟨n 2, n 1, n 1, n 2, n 2, n 10⟩

/-- A call site of a node set, with the function it calls and the time spent in its calls. -/
structure Member (τ : Type) where
  site : Loc
  callee : Option Nat
  time : τ
deriving Inhabited

/-- A node set. -/
structure NodeSet (τ : Type) where
  func : Nat
  members : List (Member τ)
  /-- The dependences between two members. -/
  edges : List Edge
  /-- The time saved if only the fastest member runs in parallel. -/
  minSaving : τ
  /-- The time saved if all members run in parallel with the slowest one. -/
  maxSaving : τ
  /-- The number of stores in the callees of the members. -/
  stores : Nat
deriving Inhabited

namespace NodeSet

variable {τ : Type} [Quantity τ]

/-- The dependences between any two members, from each member to each other one. -/
def memberEdges (g : Graph) (sites : List Loc) : List Edge :=
  sites.zipIdx.flatMap fun (a, i) => sites.zipIdx.flatMap fun (b, j) =>
    if i = j then [] else g.edgesBetween a b

/-- The least and the greatest time that can be saved: nothing if fewer than two members have
    been timed. -/
def savings (times : List τ) : τ × τ :=
  if 2 ≤ times.countP Quantity.isPositive then
    (Quantity.minimum times, Quantity.sum times - Quantity.maximum times)
  else (Quantity.zero, Quantity.zero)

/-- The node set of some call sites of a dependence graph. -/
def build (P : Program) (g : Graph) (members : List (Member τ)) : NodeSet τ :=
  let (least, greatest) := savings (members.map (·.time))
  { func := g.func
    members := members
    edges := memberEdges g (members.map (·.site))
    minSaving := least
    maxSaving := greatest
    stores := (members.map fun m => (m.callee.map P.storeCount).getD 0).foldr (· + ·) 0 }

/-- The number of dependences of a kind. -/
def count (s : NodeSet τ) (k : Kinds) : Nat := s.edges.countP (·.kind.has k)

/-- The numbers of dependences of each kind, in the order they are reported. -/
def counts (s : NodeSet τ) : List Nat := Kinds.reported.map fun r => s.count r.1

/-- The weighted sum of the dependences. -/
def cost (s : NodeSet τ) (w : Weights τ) : τ :=
  let n := fun k => (Quantity.ofInt (s.count k) : τ)
  w.flow * n .flow + w.anti * n .anti + w.output * n .output + w.control * n .control +
    w.noDominate * n .noDominate

/-- The greatest saving, decaying with the cost. A decay that is not positive stands for the
    usual one. -/
def score (s : NodeSet τ) (w : Weights τ) : τ :=
  let decay := if Quantity.le w.decay Quantity.zero then (Weights.default : Weights τ).decay
    else w.decay
  Quantity.exp (-s.cost w / decay) * s.maxSaving

/-- The sets by decreasing score; those with the same score keep their order. -/
def rank (w : Weights τ) (sets : List (NodeSet τ)) : List (NodeSet τ) :=
  Quantity.sortDescending (·.score w) sets

/-- The orders in which node sets can be listed: the highest score, the greatest saving or the
    fewest stores first. -/
inductive Order where
  | score | time | stores
deriving DecidableEq, Repr

/-- The key that decreases in an order. -/
def Order.key (w : Weights τ) : Order → NodeSet τ → τ
  | .score, s => s.score w
  | .time, s => s.maxSaving
  | .stores, s => -(Quantity.ofInt s.stores)

/-- The sets by decreasing key of an order; those with the same key keep their order. -/
def sortBy (w : Weights τ) (order : Order) (sets : List (NodeSet τ)) : List (NodeSet τ) :=
  Quantity.sortDescending (order.key w) sets

end NodeSet

end Overlap
