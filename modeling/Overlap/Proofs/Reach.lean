/-
  Chains of successors.

  * `Reaches` is reflexive and transitive;
  * `Path` is the same with at least one step; a point is on a cycle if it has
    a path to itself, and `Calm` if no cycle can be reached from it.
-/
import Overlap.Graph.Closure

namespace Overlap.Graph

variable {α : Type} {next : α → List α} {x y z : α}

theorem Reaches.of_mem (h : y ∈ next x) : Reaches next x y := .step h (.refl y)

theorem Reaches.trans (hxy : Reaches next x y) (hyz : Reaches next y z) : Reaches next x z := by
  induction hxy with
  | refl => exact hyz
  | step hy _ ih => exact .step hy (ih hyz)

theorem Reaches.tail (hxy : Reaches next x y) (hz : z ∈ next y) : Reaches next x z :=
  hxy.trans (.of_mem hz)

/-- What is closed under successors contains what can be reached. -/
theorem Reaches.closed {motive : α → Prop} (hnext : ∀ x, motive x → ∀ y ∈ next x, motive y)
    (hxy : Reaches next x y) (hx : motive x) : motive y := by
  induction hxy with
  | refl => exact hx
  | step hy _ ih => exact ih (hnext _ hx _ hy)

theorem Path.of_mem (h : y ∈ next x) : Path next x y := ⟨y, h, .refl y⟩

theorem Path.trans_reaches (hxy : Path next x y) (hyz : Reaches next y z) : Path next x z := by
  obtain ⟨w, hw, hwy⟩ := hxy
  exact ⟨w, hw, hwy.trans hyz⟩

theorem Path.reaches (hxy : Path next x y) : Reaches next x y := by
  obtain ⟨w, hw, hwy⟩ := hxy
  exact .step hw hwy

theorem Reaches.trans_path (hxy : Reaches next x y) (hyz : Path next y z) : Path next x z := by
  cases hxy with
  | refl => exact hyz
  | step hw hwy => exact ⟨_, hw, hwy.trans hyz.reaches⟩

theorem Reaches.path_of_ne (hxy : Reaches next x y) (hne : x ≠ y) : Path next x y := by
  cases hxy with
  | refl => exact absurd rfl hne
  | step hw hwy => exact ⟨_, hw, hwy⟩

theorem Path.tail (hxy : Path next x y) (hz : z ∈ next y) : Path next x z :=
  hxy.trans_reaches (.of_mem hz)

/-- No point on a cycle can be reached from `x`. -/
def Calm (next : α → List α) (x : α) : Prop := ∀ y, Reaches next x y → ¬ Path next y y

theorem Calm.of_reaches (hx : Calm next x) (hxy : Reaches next x y) : Calm next y :=
  fun z hz => hx z (hxy.trans hz)

theorem Calm.not_path (hx : Calm next x) : ¬ Path next x x := hx x (.refl x)

end Overlap.Graph
