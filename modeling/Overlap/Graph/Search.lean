/-
  Breadth-first search for a path between two points of a directed graph given
  by its successor lists.

  The search starts with its first point as seen, and looks for the second one
  among the successors of the points it takes from the queue; so it finds a
  path back to where it started only if there is one of at least one step.

  * `search` is one search, `hasPathTo` the search between two points;
  * `PathTable` keeps the answers of earlier searches, and `PathTable.query`
    answers from it if it can.
-/
import Std.Data.HashMap

namespace Overlap.Graph

variable {α : Type} [DecidableEq α]

/-- Whether `target` follows a point of the queue, or a point that is reached from there through
    points not yet seen. Each point taken from the queue uses one unit of `fuel`. -/
def search (next : α → List α) (target : α) : Nat → List α → List α → Bool
  | 0, _, _ => false
  | _ + 1, _, [] => false
  | fuel + 1, seen, x :: queue =>
    if target ∈ next x then true
    else
      let new := ((next x).filter (· ∉ seen)).eraseDups
      search next target fuel (seen ++ new) (queue ++ new)

/-- Whether there is a path of at least one step from `x` to `y`, in a graph of at most `size`
    points besides `x`. -/
def hasPathTo (next : α → List α) (size : Nat) (x y : α) : Bool :=
  search next y (size + 1) [x] [x]

/-- The answers of earlier searches: a row for each first point, with the answers by second
    point. -/
abbrev PathTable (α : Type) [DecidableEq α] [Hashable α] := Std.HashMap α (Std.HashMap α Bool)

namespace PathTable

variable [Hashable α]

/-- The answer of an earlier search from `x` to `y`. -/
def answer? (table : PathTable α) (x y : α) : Option Bool := (table[x]?).bind (·[y]?)

/-- Keeps the answer of a search from `x` to `y`. -/
def keep (table : PathTable α) (x y : α) (answer : Bool) : PathTable α :=
  table.insert x ((table.getD x ∅).insert y answer)

/-- Whether there is a path of at least one step from `x` to `y`, and the table afterwards. Without
    a table nothing is kept. -/
def query (next : α → List α) (size : Nat) (x y : α) :
    Option (PathTable α) → Bool × Option (PathTable α)
  | none => (hasPathTo next size x y, none)
  | some table => match table.answer? x y with
    | some answer => (answer, some table)
    | none =>
      let answer := hasPathTo next size x y
      (answer, some (table.keep x y answer))

end PathTable

end Overlap.Graph
