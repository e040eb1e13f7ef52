/-
  Real numbers as quantities: times without rounding.

  The simp lemmas turn the operations of `Quantity` into those of the real
  numbers; none of them is undefined, and comparisons order them.
-/
import Mathlib.Analysis.Complex.Exponential
import Overlap.Proofs.Sorting

namespace Overlap

/-- Exact arithmetic. -/
noncomputable instance : Quantity ℝ where
  ofInt := fun n => n
  exp := Real.exp
  lt := fun x y => decide (x < y)
  le := fun x y => decide (x ≤ y)

namespace Quantity

@[simp] theorem lt_real (x y : ℝ) : lt x y = decide (x < y) := rfl

@[simp] theorem le_real (x y : ℝ) : le x y = decide (x ≤ y) := rfl

@[simp] theorem ofInt_real (n : Int) : (ofInt n : ℝ) = n := rfl

@[simp] theorem exp_real (x : ℝ) : exp x = Real.exp x := rfl

@[simp] theorem zero_real : (zero : ℝ) = 0 := Int.cast_zero

@[simp] theorem isPositive_real (x : ℝ) : isPositive x = decide (0 < x) := by simp [isPositive]

@[simp] theorem isZero_real (x : ℝ) : isZero x = decide (x = 0) := by
  simp [isZero, le_antisymm_iff]

@[simp] theorem isDefined_real (x : ℝ) : isDefined x = true := by simp [isDefined]

instance : Ordered ℝ where
  lt_asymm x y := by simpa using le_of_lt
  not_lt_trans x y z _ _ _ := by simpa using fun hxy hyz => le_trans hyz hxy

theorem sum_real (xs : List ℝ) : sum xs = xs.sum := by
  rw [sum, zero_real]
  exact List.sum_eq_foldl.symm

theorem sum_pair (x y : ℝ) : sum [x, y] = x + y := by simp [sum_real]

theorem maximum_pair (x y : ℝ) : maximum [x, y] = max x y := by
  simp [maximum, max_def_lt]

end Quantity

end Overlap
