/-
  The call tree of an analysis: the functions reachable from a root through
  calls, callees before callers.

  The nodes of the tree are numbered in post-order, so the root has the largest
  number.  A subtree keeps the numbers of the whole tree.

  * `CallTree.build` builds the tree from a function that lists callees;
  * `CallTree.callees`, `CallTree.callers`, `CallTree.calls`, `CallTree.edge?`
    and `CallTree.visit` present its edges;
  * `CallTree.recursiveGroups` and `CallTree.cycles` find recursion, with the
    strongly connected components of a tree and its subtrees;
  * `CallTree.stats` counts edges and nodes.
-/
import Overlap.Graph.Cycle
import Overlap.Graph.PostOrder

namespace Overlap

/-- A call tree. -/
structure CallTree where
  /-- The functions of the whole tree by number. -/
  order : Array Nat
  /-- The numbers of the nodes. -/
  keys : List Nat
  /-- The numbers of the callees of each node, in increasing order. -/
  edges : Array (List Nat)
deriving DecidableEq, Repr, Inhabited

namespace CallTree

/-- The numbers of the functions in an order, each once and in increasing order. -/
def numbersIn (order : List Nat) (fs : List Nat) : List Nat :=
  (List.range order.length).filter fun i => (order[i]?).any fs.contains

/-- The tree of the functions reachable from `root`, where `callees` lists the functions that a
    function calls and there are at most `size` functions besides the root. -/
def build (callees : Nat → List Nat) (size root : Nat) : CallTree :=
  let order := Graph.postOrder callees size root
  { order := order.toArray
    keys := List.range order.length
    edges := (order.map fun f => numbersIn order (callees f)).toArray }

variable (t : CallTree)

/-- Whether a number is a node of the tree. -/
def hasNode (id : Nat) : Bool := t.keys.contains id

/-- The function of a node. -/
def function? (id : Nat) : Option Nat := if t.hasNode id then t.order[id]? else none

/-- The functions of the tree in post-order. -/
def functions : List Nat := t.keys.filterMap t.function?

/-- The number of a function of the whole tree. -/
def number? (f : Nat) : Option Nat := t.order.findIdx? (· == f)

/-- The nodes that a node calls, in increasing order. -/
def callees (id : Nat) : List Nat := (t.edges[id]?).getD []

/-- Whether a node calls another one. -/
def calls (a b : Nat) : Bool := (t.callees a).contains b

/-- The nodes that call a node. -/
def callers (id : Nat) : List Nat := t.keys.filter (t.calls · id)

/-- Whether one of two nodes calls the other. -/
def connected (a b : Nat) : Bool := t.calls a b || t.calls b a

/-- A node of a tree with its function. -/
structure Node where
  id : Nat
  func : Nat
deriving DecidableEq, Repr

/-- A node by its number. -/
def node? (id : Nat) : Option Node := (t.function? id).map fun f => ⟨id, f⟩

/-- A call of one node by another. -/
structure Edge where
  source : Node
  target : Node
deriving DecidableEq, Repr

/-- The edge in the other direction. -/
def Edge.reversed (e : Edge) : Edge := ⟨e.target, e.source⟩

/-- The call of node `b` by node `a`, if there is one. -/
def edge? (a b : Nat) : Option Edge :=
  if t.calls a b then do return ⟨← t.node? a, ← t.node? b⟩ else none

/-- The callees of a node until the `n`-th one, with whether the visit stopped there. -/
def visit (id n : Nat) : List Nat × Bool :=
  let all := if t.hasNode id then t.callees id else []
  if 0 < n && n ≤ all.length then (all.take n, true) else (all, false)

/-- The tree on some of its nodes, with the edges between them. -/
def subtree (kept : List Nat) : CallTree :=
  { t with
    keys := kept
    edges := (List.range t.order.size).toArray.map fun id =>
      if kept.contains id then (t.callees id).filter kept.contains else [] }

/-- All numbers of the whole tree. -/
def numbers : List Nat := List.range t.order.size

/-! ## Recursion -/

/-- The groups of mutually recursive functions, self-recursive ones included, as nodes, where
    `split` finds components. -/
def recursiveNodesBy (split : Graph.Splitting) : List (List Nat) :=
  Graph.recursiveGroups t.callees (split t.order.size t.callees)

/-- The groups of mutually recursive functions, by their first function in post-order. -/
def recursiveGroupsBy (split : Graph.Splitting) : List (List Nat) :=
  (t.recursiveNodesBy split).map fun g => g.filterMap t.function?

/-- The elementary cycles among the nodes from the `start`-th one on: those through the least node
    on a cycle, then those beyond it. The search takes at most `fuel` rounds. -/
def cyclesFrom (split : Graph.Splitting) : Nat → Nat → Option (List (List Nat))
  | 0, _ => none
  | fuel + 1, start =>
    if t.keys.length ≤ start then some []
    else
      let sub := t.subtree (t.keys.drop start)
      match Graph.leastCyclic? sub.callees (split sub.order.size sub.callees) with
      | none => some []
      | some least => do
        let through ← Graph.circuitsThrough sub.callees sub.order.size least
        let rest ← cyclesFrom split fuel
          (Graph.upperBound t.keys.toArray least 0 t.keys.length)
        return through ++ rest

/-- The elementary cycles of the tree, as nodes, where `split` finds components. -/
def cyclesBy (split : Graph.Splitting) : Option (List (List Nat)) :=
  t.cyclesFrom split (t.keys.length + 1) 0

/-- The groups of mutually recursive functions. -/
def recursiveGroups : List (List Nat) := t.recursiveGroupsBy Graph.strongComponents

/-- The elementary cycles of the tree, as nodes. -/
def cycles : List (List Nat) := (t.cyclesBy Graph.strongComponents).getD []

/-- Counts about a tree. -/
structure Stats where
  edges : Nat
  loops : Nat
  /-- Nodes without callees, those that a subtree left out included. -/
  sinks : Nat
  nodes : Nat
deriving DecidableEq, Repr

/-- The counts of a tree. -/
def stats : Stats where
  edges := (t.numbers.map fun id => (t.callees id).length).foldr (· + ·) 0
  loops := t.numbers.countP fun id => t.calls id id
  sinks := t.numbers.countP fun id => (t.callees id).isEmpty
  nodes := t.order.size

/-! ## Walking through nodes -/

/-- A position in a list of nodes: before the first one or at one of them. -/
structure Cursor where
  ids : List Nat
  /-- How many nodes have been passed, the current one included. -/
  passed : Nat
deriving DecidableEq, Repr

namespace Cursor

/-- Moves to the next node if there is one. -/
def next (c : Cursor) : Cursor × Bool :=
  if c.passed < c.ids.length then ({ c with passed := c.passed + 1 }, true) else (c, false)

/-- The number of nodes left. -/
def remaining (c : Cursor) : Nat := c.ids.length - c.passed

/-- The current node. -/
def current? (c : Cursor) : Option Nat := if c.passed = 0 then none else c.ids[c.passed - 1]?

/-- Back before the first node. -/
def reset (c : Cursor) : Cursor := { c with passed := 0 }

end Cursor

end CallTree

end Overlap
