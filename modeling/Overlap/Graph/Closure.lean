/-
  Exploration of a finite directed graph given by its successor lists.

  `explore next` collects what can be reached from a list of starting points;
  it spends one unit of fuel for each new point, so fuel as large as the number
  of points is enough.  `Reaches next` is the relation it decides, and `Path`
  the same with at least one step.

  * `closure` explores with the fuel of a list that holds every point;
  * `unseen` counts the points that an exploration has not seen;
  * `chase` follows a partial function until it has no more value.
-/

namespace Overlap.Graph

variable {α : Type} [DecidableEq α]

/-- There is a chain of successors, possibly empty, between two points. -/
inductive Reaches (next : α → List α) : α → α → Prop where
  | refl (x : α) : Reaches next x x
  | step {x y z : α} : y ∈ next x → Reaches next y z → Reaches next x z

/-- There is a chain of at least one successor between two points. -/
def Path (next : α → List α) (x y : α) : Prop := ∃ z ∈ next x, Reaches next z y

/-- Adds to `seen` the points reachable from `todo`, the latest first; points already in
    `seen` are not explored again. -/
def explore (next : α → List α) : Nat → List α → List α → List α
  | _, seen, [] => seen
  | fuel, seen, x :: todo =>
    if x ∈ seen then explore next fuel seen todo
    else match fuel with
      | 0 => seen
      | fuel + 1 => explore next fuel (x :: seen) (next x ++ todo)
termination_by fuel _ todo => (fuel, todo.length)

/-- The points reachable from `start`, where `points` lists all points of the graph. -/
def closure (points : List α) (next : α → List α) (start : List α) : List α :=
  explore next points.length [] start

/-- Whether there is a path of at least one step from `x` to `y`. -/
def hasPath (points : List α) (next : α → List α) (x y : α) : Bool :=
  decide (y ∈ closure points next (next x))

/-- The number of points that have not been seen. -/
def unseen (points seen : List α) : Nat := (points.filter (· ∉ seen)).length

theorem unseen_cons (points seen : List α) (x : α) :
    unseen points (x :: seen) = ((points.filter (· ∉ seen)).filter (· ≠ x)).length := by
  unfold unseen
  rw [List.filter_filter]
  congr 2
  funext y
  simp

theorem unseen_le_of_subset (points : List α) {seen seen' : List α} (h : seen ⊆ seen') :
    unseen points seen' ≤ unseen points seen := by
  unfold unseen
  rw [← List.countP_eq_length_filter, ← List.countP_eq_length_filter]
  refine List.countP_mono_left fun x _ hx => ?_
  simp only [decide_eq_true_eq] at hx ⊢
  exact fun hseen => hx (h hseen)

theorem unseen_cons_le (points seen : List α) (x : α) :
    unseen points (x :: seen) ≤ unseen points seen :=
  unseen_le_of_subset points (List.subset_cons_self x seen)

theorem unseen_cons_lt {points seen : List α} {x : α} (hx : x ∈ points) (hnew : x ∉ seen) :
    unseen points (x :: seen) < unseen points seen := by
  rw [unseen_cons]
  refine List.length_filter_lt_length_iff_exists.2 ⟨x, ?_, by simp⟩
  simp [hx, hnew]

omit [DecidableEq α] in
/-- Follows `step` from `x` for at most `fuel` steps, until it has no value. -/
def chase (step : α → Option α) : Nat → α → α
  | 0, x => x
  | fuel + 1, x => match step x with
    | some y => chase step fuel y
    | none => x

end Overlap.Graph
