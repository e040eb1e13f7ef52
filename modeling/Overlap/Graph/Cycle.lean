/-
  Strongly connected components and elementary cycles of finite directed graphs
  whose nodes are the numbers below a bound.

  * `strongComponents` splits a graph into its strongly connected components;
    what follows takes them from any `Splitting`;
  * `recursiveGroups` are the components that contain a cycle, by their least
    nodes, and `leastCyclic?` is the least node of all of them;
  * `circuitsThrough` lists the elementary cycles through a node by a
    depth-first search.  A node is blocked while it is on the path, and beyond
    that if no cycle was found from it, until one of its successors is unblocked.

  A cycle is written as the list of its nodes, the first one repeated at the
  end.
-/
import Overlap.Graph.Closure

namespace Overlap.Graph

/-! ## Components -/

/-- A way to split the graph on the numbers below a bound into lists of nodes. -/
abbrev Splitting := Nat → (Nat → List Nat) → List (List Nat)

/-- What can be reached from each node, the node itself included. -/
def reachTable (size : Nat) (next : Nat → List Nat) : Array (List Nat) :=
  ((List.range size).map fun x => closure (List.range size) next [x]).toArray

/-- Whether each of two nodes can be reached from the other. -/
def linked (table : Array (List Nat)) (x y : Nat) : Bool :=
  (table[x]?).any (·.contains y) && (table[y]?).any (·.contains x)

/-- The component of a node, in increasing order. -/
def component (table : Array (List Nat)) (x : Nat) : List Nat :=
  (List.range table.size).filter (linked table x)

/-- The strongly connected components, by their least nodes. -/
def strongComponents : Splitting := fun size next =>
  let table := reachTable size next
  (List.range size).filterMap fun x =>
    let nodes := component table x
    if nodes.head? = some x then some nodes else none

section
variable (next : Nat → List Nat)

/-- Whether a component contains a cycle: it has several nodes, or one that follows itself. -/
def isCyclic (component : List Nat) : Bool :=
  2 ≤ component.length || component.head?.any fun x => (next x).contains x

/-- The components that contain a cycle, each in increasing order. -/
def cyclicComponents (components : List (List Nat)) : List (List Nat) :=
  (components.filter (isCyclic next)).map (·.mergeSort)

/-- The components that contain a cycle, each in increasing order, by their least nodes. -/
def recursiveGroups (components : List (List Nat)) : List (List Nat) :=
  (cyclicComponents next components).mergeSort fun a b => a.headD 0 ≤ b.headD 0

/-- The least node of all components that contain a cycle. -/
def leastCyclic? (components : List (List Nat)) : Option Nat :=
  ((cyclicComponents next components).filterMap List.head?).min?

end

/-! ## Cycles through a node -/

/-- The state of a search for cycles. -/
structure CircuitSearch where
  /-- The nodes that are not to be visited. -/
  blocked : List Nat
  /-- A pair of a node and another one that is unblocked with it. -/
  waiting : List (Nat × Nat)
  /-- The cycles found so far, the latest first. -/
  cycles : List (List Nat)
deriving DecidableEq, Repr

namespace CircuitSearch

/-- The state before a search. -/
def fresh : CircuitSearch := ⟨[], [], []⟩

variable (s : CircuitSearch)

/-- Blocks a node. -/
def block (v : Nat) : CircuitSearch := { s with blocked := v :: s.blocked }

/-- Adds a cycle to those found. -/
def record (cycle : List Nat) : CircuitSearch := { s with cycles := cycle :: s.cycles }

/-- Lets `v` wait until one of some nodes is unblocked. -/
def await (v : Nat) (nodes : List Nat) : CircuitSearch :=
  { s with waiting := nodes.foldr (fun w => List.insert (w, v)) s.waiting }

/-- The nodes that wait for `u`. -/
def waiters (u : Nat) : List Nat := (s.waiting.filter (·.1 == u)).map (·.2)

/-- Unblocks a node, and no node waits for it any longer. -/
def release (u : Nat) : CircuitSearch :=
  { s with
    blocked := s.blocked.filter (· != u)
    waiting := s.waiting.filter (·.1 != u) }

/-- Unblocks those of some nodes that are blocked, and in turn the nodes that wait for them. -/
def unblockAll (s : CircuitSearch) : List Nat → CircuitSearch
  | [] => s
  | u :: todo =>
    if u ∈ s.blocked then (s.release u).unblockAll (s.waiters u ++ todo) else s.unblockAll todo
termination_by todo => (s.blocked.length, todo.length)
decreasing_by
  · apply Prod.Lex.left
    refine Nat.lt_of_le_of_ne (List.length_filter_le _ _) fun h => ?_
    have := List.length_filter_eq_length_iff.1 h u ‹_›
    simp at this
  · apply Prod.Lex.right
    simp

/-- Unblocks a node, and in turn the nodes that wait for it. -/
def unblock (u : Nat) : CircuitSearch := (s.release u).unblockAll (s.waiters u)

end CircuitSearch

/-- Looks at a successor of the first node of `path`, which is kept in reverse: it closes a cycle,
    or it is blocked, or `visit` goes on from there. -/
def trySuccessor (start : Nat) (path : List Nat)
    (visit : Nat → CircuitSearch → Option (Bool × CircuitSearch))
    (state : Bool × CircuitSearch) (w : Nat) : Option (Bool × CircuitSearch) :=
  if w = start then some (true, state.2.record (w :: path).reverse)
  else if w ∈ state.2.blocked then some state
  else (visit w state.2).map fun (found, s) => (state.1 || found, s)

/-- Searches for the cycles through `start` that go on from `path` to `v`, and tells whether there
    are any. A path has at most `fuel` more nodes. -/
def circuit (next : Nat → List Nat) (start : Nat) :
    Nat → List Nat → Nat → CircuitSearch → Option (Bool × CircuitSearch)
  | 0, _, _, _ => none
  | fuel + 1, path, v, s => do
    let (found, s) ←
      (next v).foldlM (trySuccessor start (v :: path) (circuit next start fuel (v :: path)))
        (false, s.block v)
    return if found then (true, s.unblock v) else (false, s.await v (next v))

/-- The elementary cycles through a node, in a graph of at most `size` nodes. -/
def circuitsThrough (next : Nat → List Nat) (size start : Nat) : Option (List (List Nat)) :=
  (circuit next start size [] start .fresh).map fun (_, s) => s.cycles.reverse

/-- The number of elements of `keys` that are looked at before the first one greater than `x`,
    found by bisection of the range from `low` to `high`. -/
def upperBound (keys : Array Nat) (x : Nat) (low high : Nat) : Nat :=
  if h : low < high then
    let mid := (low + high) / 2
    if (keys[mid]?).getD 0 > x then upperBound keys x low mid
    else upperBound keys x (mid + 1) high
  else low
termination_by high - low

end Overlap.Graph
