/-
  The numbers that times, costs and scores are measured in.

  The analysis only adds, subtracts, scales and compares its measurements, so
  it is written over a class of such numbers.  Floating-point numbers are the
  instance the program runs with; an ordered field is one without rounding.

  * `Quantity` is the class;
  * `sum`, `minimum` and `maximum` fold lists, leaving out undefined numbers
    where a comparison decides;
  * `sortDescending` sorts by a key, stably.
-/

namespace Overlap

/-- Numbers with the operations of the analysis. -/
class Quantity (τ : Type) extends Add τ, Sub τ, Mul τ, Div τ, Neg τ where
  ofInt : Int → τ
  exp : τ → τ
  lt : τ → τ → Bool
  le : τ → τ → Bool

instance : Quantity Float where
  ofInt := Float.ofInt
  exp := Float.exp
  lt := fun x y => decide (x < y)
  le := fun x y => decide (x ≤ y)

namespace Quantity

variable {τ : Type} [Quantity τ]

/-- The number zero. -/
def zero : τ := ofInt 0

/-- Whether a number is greater than zero. -/
def isPositive (x : τ) : Bool := lt zero x

/-- Whether a number is zero. -/
def isZero (x : τ) : Bool := le x zero && le zero x

/-- Whether a number is comparable with itself, which an undefined one is not. -/
def isDefined (x : τ) : Bool := le x x

/-- The sum of a list, from left to right. -/
def sum (xs : List τ) : τ := xs.foldl (· + ·) zero

/-- The first least number of a list, undefined ones left out. -/
def minimum (xs : List τ) : τ :=
  match xs.filter isDefined with
  | [] => (xs.head?).getD zero
  | x :: rest => rest.foldl (fun m y => if lt y m then y else m) x

/-- The first greatest number of a list, undefined ones left out. -/
def maximum (xs : List τ) : τ :=
  match xs.filter isDefined with
  | [] => (xs.head?).getD zero
  | x :: rest => rest.foldl (fun m y => if lt m y then y else m) x

/-- Inserts `x` behind the elements of a list that is kept in reverse: it passes the elements
    before which it belongs. -/
def insertBack {α : Type} (precedes : α → α → Bool) (x : α) : List α → List α
  | [] => [x]
  | y :: ys => if precedes x y then y :: insertBack precedes x ys else x :: y :: ys

/-- Stable insertion sort. -/
def insertionSort {α : Type} (precedes : α → α → Bool) (xs : List α) : List α :=
  (xs.foldl (fun sorted x => insertBack precedes x sorted) []).reverse

/-- The elements of a list by decreasing key; those with the same key keep their order. -/
def sortDescending {α : Type} (key : α → τ) (xs : List α) : List α :=
  (insertionSort (fun a b => lt b.2 a.2) (xs.map fun x => (x, key x))).map (·.1)

end Quantity

end Overlap
