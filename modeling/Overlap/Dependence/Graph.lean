/-
  The dependence graph of one function: its nodes are call sites and its edges
  the dependences between them.

  An edge is stored once, in order of creation, and each of its two nodes holds
  its number.  Seen from its destination (`EdgeRef`), an edge is marked as
  incoming and its two objects are swapped.  A graph that `dedup`licates keeps
  only the first of several equal edges.

  * `Graph.addNode` and `Graph.addDependence` build a graph;
  * `Graph.out`, `Graph.incoming` and `Graph.edgesBetween` look edges up.
-/
import Overlap.Dependence.Kind
import Overlap.Ssa.Text

namespace Overlap.Dependence

open Ssa

/-- A dependence of the call site `target` on the call site `source`. -/
structure Edge where
  kind : Kinds
  source : Loc
  target : Loc
  /-- The name of the memory of the source the dependence is about; may be empty. -/
  own : String
  /-- The name of the memory of the target the dependence is about; may be empty. -/
  foreign : String
deriving DecidableEq, Repr, Inhabited

/-- An edge seen from one of its nodes. -/
structure EdgeRef where
  edge : Edge
  backward : Bool
deriving DecidableEq, Repr, Inhabited

namespace EdgeRef

/-- The kind of the edge, marked if it is seen from its target. -/
def kind (r : EdgeRef) : Kinds := if r.backward then r.edge.kind.union .incoming else r.edge.kind

/-- The memory on the side of the node the edge is seen from. -/
def own (r : EdgeRef) : String := if r.backward then r.edge.foreign else r.edge.own

/-- The memory on the side of the other node. -/
def foreign (r : EdgeRef) : String := if r.backward then r.edge.own else r.edge.foreign

/-- The node at the other end. -/
def other (r : EdgeRef) : Loc := if r.backward then r.edge.source else r.edge.target

end EdgeRef

/-- A node: a call site with the numbers of the edges that start and end at it. -/
structure Node where
  site : Loc
  out : Array Nat
  incoming : Array Nat
deriving DecidableEq, Repr, Inhabited

/-- A dependence graph. -/
structure Graph where
  func : Nat
  dedup : Bool
  nodes : Array Node
  edges : Array Edge
deriving DecidableEq, Repr, Inhabited

namespace Graph

/-- The graph of a function without nodes. -/
def empty (func : Nat) (dedup : Bool) : Graph := ⟨func, dedup, #[], #[]⟩

/-- The call sites of the graph in order of creation. -/
def sites (g : Graph) : List Loc := g.nodes.toList.map (·.site)

/-- The node of a call site. -/
def node? (g : Graph) (site : Loc) : Option Node := g.nodes.find? (·.site == site)

/-- Adds the node of a call site if it is not there yet. -/
def addNode (g : Graph) (site : Loc) : Graph :=
  if (g.node? site).isSome then g else { g with nodes := g.nodes.push ⟨site, #[], #[]⟩ }

/-- Gives the nodes of an edge its number `n`. -/
def link (n : Nat) (e : Edge) (node : Node) : Node :=
  { node with
    out := if node.site = e.source then node.out.push n else node.out
    incoming := if node.site = e.target then node.incoming.push n else node.incoming }

/-- Adds an edge between two nodes of the graph. -/
def pushEdge (g : Graph) (e : Edge) : Graph :=
  { g with nodes := g.nodes.map (link g.edges.size e), edges := g.edges.push e }

/-- Records a dependence of `b` on `a`. The edge is none if the graph already has it and keeps
    no duplicates. -/
def addDependence (g : Graph) (a b : Loc) (kind : Kinds) (own foreign : String) :
    Graph × Option Edge :=
  let g := (g.addNode a).addNode b
  let e : Edge := ⟨kind.withoutIncoming, a, b, own, foreign⟩
  if g.dedup && g.edges.contains e then (g, none) else (g.pushEdge e, some e)

/-- Records a dependence and forgets the edge. -/
def record (g : Graph) (a b : Loc) (kind : Kinds) (own foreign : String) : Graph :=
  (g.addDependence a b kind own foreign).1

/-- The edges with the given numbers. -/
def edgesAt (g : Graph) (ids : Array Nat) : List Edge := ids.toList.filterMap (g.edges[·]?)

/-- The edges that start at a call site, seen from it. -/
def out (g : Graph) (site : Loc) : List EdgeRef :=
  match g.node? site with
  | some n => (g.edgesAt n.out).map (⟨·, false⟩)
  | none => []

/-- The edges that end at a call site, seen from it. -/
def incoming (g : Graph) (site : Loc) : List EdgeRef :=
  match g.node? site with
  | some n => (g.edgesAt n.incoming).map (⟨·, true⟩)
  | none => []

/-- The edges from `a` to `b`. -/
def edgesBetween (g : Graph) (a b : Loc) : List Edge :=
  ((g.out a).map (·.edge)).filter (·.target == b)

end Graph

/-! ## Call sites that may be missing -/

/-- A call site was needed and none given. -/
inductive GraphError where
  | missingSite
deriving DecidableEq, Repr

/-- The message of an error. -/
def GraphError.message : GraphError → String
  | .missingSite => "dependence graph node for a nil instruction"

/-- The node of a call site, created if it is missing and `create` is set; the answer says
    whether there is one. A missing site has no node and none can be created for it. -/
def Graph.requireNode (g : Graph) (site : Option Loc) (create : Bool) :
    Except GraphError (Graph × Option Loc) :=
  match site with
  | some s =>
    if (g.node? s).isSome then .ok (g, some s)
    else if create then .ok (g.addNode s, some s) else .ok (g, none)
  | none => if create then .error .missingSite else .ok (g, none)

/-- Records a dependence between two call sites that may be missing; the first one gets its
    node even if the second is missing. -/
def Graph.requireDependence (g : Graph) (a b : Option Loc) (kind : Kinds) (own foreign : String) :
    Graph × Except GraphError (Option Edge) :=
  match a, b with
  | none, _ => (g, .error .missingSite)
  | some a, none => (g.addNode a, .error .missingSite)
  | some a, some b =>
    let (g, e) := g.addDependence a b kind own foreign
    (g, .ok e)

/-! ## Text -/

/-- The text of a call site as a node. -/
def nodeText (P : Program) : Option Loc → String
  | some site => P.instrText site
  | none => "<nil>"

/-- The text of an edge. -/
def Edge.text (P : Program) (e : Edge) : String :=
  P.instrText e.source ++ " -> " ++ P.instrText e.target ++ " [" ++ e.kind.text ++ "] (" ++
    e.own ++ " -> " ++ e.foreign ++ ")"

end Overlap.Dependence
