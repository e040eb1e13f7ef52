/-
  Depth-first post-order of a directed graph given by its successor lists.

  `postOrder` walks the graph with an explicit stack of nodes and the
  successors of each that remain to be looked at; `Visit` is the recursive
  traversal as a relation: the unvisited successors of a node are visited in
  order, then the node is emitted.
-/

namespace Overlap.Graph

variable {α : Type} [DecidableEq α]

/-- The number of steps that a stack still needs. -/
def stackWeight (stack : List (α × List α)) : Nat :=
  (stack.map fun frame => frame.2.length + 1).foldr (· + ·) 0

/-- Walks the graph from a stack of nodes with their remaining successors. A node joins `seen`
    when it is put on the stack and the order, which is kept in reverse, when it leaves it. Each
    new node uses one unit of `fuel`. -/
def walk (next : α → List α) : Nat → List (α × List α) → List α → List α → List α
  | _, [], _, order => order.reverse
  | fuel, (x, []) :: stack, seen, order => walk next fuel stack seen (x :: order)
  | fuel, (x, y :: rest) :: stack, seen, order =>
    if y ∈ seen then walk next fuel ((x, rest) :: stack) seen order
    else match fuel with
      | 0 => walk next 0 ((x, rest) :: stack) seen order
      | fuel + 1 => walk next fuel ((y, next y) :: (x, rest) :: stack) (y :: seen) order
termination_by fuel stack => (fuel, stackWeight stack)
decreasing_by all_goals simp [stackWeight]; try omega

/-- The nodes reachable from `root` in depth-first post-order: a node appears after all nodes
    reachable from it, except along back edges. There are at most `size` nodes besides the
    root. -/
def postOrder (next : α → List α) (size : Nat) (root : α) : List α :=
  walk next size [(root, next root)] [root] []

mutual

/-- `Visit next seen x seen' order`: visiting `x`, which is not in `seen`, emits `order`. -/
inductive Visit (next : α → List α) : List α → α → List α → List α → Prop where
  | node {seen seen' order : List α} {x : α} :
      VisitAll next (x :: seen) (next x) seen' order → Visit next seen x seen' (order ++ [x])

/-- `VisitAll next seen xs seen' order`: visiting those of `xs` that are not yet in `seen`, one
    after the other, emits `order`. -/
inductive VisitAll (next : α → List α) : List α → List α → List α → List α → Prop where
  | nil {seen : List α} : VisitAll next seen [] seen []
  | skip {seen seen' order : List α} {x : α} {xs : List α} :
      x ∈ seen → VisitAll next seen xs seen' order → VisitAll next seen (x :: xs) seen' order
  | visit {seen mid seen' first order : List α} {x : α} {xs : List α} :
      x ∉ seen → Visit next seen x mid first → VisitAll next mid xs seen' order →
      VisitAll next seen (x :: xs) seen' (first ++ order)

end

end Overlap.Graph
