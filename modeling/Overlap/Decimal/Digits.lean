/-
  Decimal digits of binary floating-point numbers.

  A finite number is `m * 2 ^ q` with a natural number `m`.  All arithmetic is
  exact: a number is compared with a point of a decimal grid as a fraction.

  * `shortest m q` are the fewest digits that read back as the number, the
    nearest to it among those, and the even ones of two equally near;
  * `rounded n m q` are its first `n` digits, rounded to the nearest and to the
    even neighbour of two equally near.
-/

namespace Overlap.Decimal

/-- The decimal number `0.d₁d₂… * 10 ^ point`; the first digit is not zero, nor is the last,
    and zero has no digits. -/
structure Digits where
  digits : List Char
  point : Int
deriving DecidableEq, Repr, Inhabited

/-- A floating-point number taken apart. -/
inductive Parts where
  | nan
  | infinite (negative : Bool)
  /-- The number `m * 2 ^ q`. -/
  | finite (negative : Bool) (m : Nat) (q : Int)
deriving Repr, Inhabited

/-- The parts of a floating-point number of 64 bits. -/
def parts (x : Float) : Parts :=
  let bits := x.toBits.toNat
  let negative := Nat.pow 2 63 ≤ bits
  let biased : Nat := bits / Nat.pow 2 52 % Nat.pow 2 11
  let fraction := bits % Nat.pow 2 52
  if biased = 2047 then (if fraction = 0 then .infinite negative else .nan)
  else if biased = 0 then .finite negative fraction (-1074)
  else .finite negative (Nat.pow 2 52 + fraction) ((biased : Int) - 1075)

/-- The number `n * 10 ^ e` in normal form. -/
def Digits.ofScaled (n : Nat) (e : Int) : Digits :=
  if n = 0 then ⟨[], 0⟩
  else
    let ds := Nat.toDigits 10 n
    ⟨(ds.reverse.dropWhile (· == '0')).reverse, ds.length + e⟩

/-- A nonnegative fraction. -/
structure Fraction where
  num : Nat
  den : Nat

/-- The number `n * b ^ e`. -/
def Fraction.scaled (n b : Nat) (e : Int) : Fraction :=
  if 0 ≤ e then ⟨n * Nat.pow b e.toNat, 1⟩ else ⟨n, Nat.pow b (-e).toNat⟩

/-- Order of two fractions. -/
def Fraction.lt (x y : Fraction) : Bool := x.num * y.den < y.num * x.den

/-- Equality of two fractions. -/
def Fraction.same (x y : Fraction) : Bool := x.num * y.den == y.num * x.den

/-- The largest integer that is at most `x / 10 ^ e`, with whether something remains, and how
    the remainder compares with a half. -/
def Fraction.onGrid (x : Fraction) (e : Int) : Nat × Bool × Ordering :=
  let (num, den) :=
    if 0 ≤ e then (x.num, x.den * Nat.pow 10 e.toNat) else (x.num * Nat.pow 10 (-e).toNat, x.den)
  let r := num % den
  (num / den, r != 0, compare (2 * r) den)

/-- The exponent `k` with `10 ^ (k - 1) ≤ x < 10 ^ k`, searched downwards from `k + fuel`. -/
def Fraction.magnitudeFrom (x : Fraction) (k : Int) : Nat → Int
  | 0 => k
  | fuel + 1 =>
    if (Fraction.scaled 1 10 (k + fuel)).lt x || (Fraction.scaled 1 10 (k + fuel)).same x
    then k + fuel + 1
    else magnitudeFrom x k fuel

/-- The exponent `k` with `10 ^ (k - 1) ≤ x < 10 ^ k` of a positive number `m * 2 ^ q`: its
    number of binary digits gives an estimate that is exceeded by at most two. -/
def magnitude (m : Nat) (q : Int) : Int :=
  let bits : Int := Nat.log2 m + q
  (Fraction.scaled m 2 q).magnitudeFrom (bits * 30103 / 100000 - 1) 4

/-- The real numbers that round to `m * 2 ^ q` lie between these two; the interval is narrower
    below a power of two. -/
def neighbourhood (m : Nat) (q : Int) : Fraction × Fraction :=
  (if m = Nat.pow 2 52 && -1074 < q then .scaled (4 * m - 1) 2 (q - 2)
    else .scaled (2 * m - 1) 2 (q - 1),
    .scaled (2 * m + 1) 2 (q - 1))

/-- Whether `y` rounds to `m * 2 ^ q`; the ends of the interval do if `m` is even. -/
def roundsTo (m : Nat) (q : Int) (y : Fraction) : Bool :=
  let (low, high) := neighbourhood m q
  (low.lt y && y.lt high) || (m % 2 == 0 && (low.same y || y.same high))

/-- The digits on the grid `10 ^ e` that round to the number `m * 2 ^ q`, if there are any. -/
def onGrid? (m : Nat) (q e : Int) : Option Nat :=
  let (below, inexact, half) := (Fraction.scaled m 2 q).onGrid e
  let above := if inexact then below + 1 else below
  let okBelow := roundsTo m q (.scaled below 10 e)
  let okAbove := roundsTo m q (.scaled above 10 e)
  match okBelow, okAbove with
  | true, true =>
    some (match half with
      | .lt => below
      | .gt => above
      | .eq => if below % 2 = 0 then below else above)
  | true, false => some below
  | false, true => some above
  | false, false => none

/-- The digits on the first of the grids with `n`, `n + 1`, … digits that has some. -/
def shortestFrom (m : Nat) (q k : Int) (n : Nat) : Nat → Digits
  | 0 => .ofScaled ((Fraction.scaled m 2 q).onGrid (k - n)).1 (k - n)
  | fuel + 1 => match onGrid? m q (k - n) with
    | some d => .ofScaled d (k - n)
    | none => shortestFrom m q k (n + 1) fuel

/-- The fewest digits that read back as `m * 2 ^ q`; 17 are always enough. -/
def shortest (m : Nat) (q : Int) : Digits :=
  if m = 0 then ⟨[], 0⟩ else shortestFrom m q (magnitude m q) 1 17

/-- The number `m * 2 ^ q` on the grid `10 ^ e`, to the nearest point, ties to the even one. -/
def roundedTo (e : Int) (m : Nat) (q : Int) : Digits :=
  let (below, _, half) := (Fraction.scaled m 2 q).onGrid e
  let up := match half with
    | .lt => false
    | .gt => true
    | .eq => below % 2 == 1
  .ofScaled (if up then below + 1 else below) e

/-- The first `n` digits of `m * 2 ^ q`, rounded to the nearest, ties to the even one. -/
def rounded (n : Nat) (m : Nat) (q : Int) : Digits :=
  if m = 0 then ⟨[], 0⟩ else roundedTo (magnitude m q - n) m q

/-- The floating-point number nearest to a decimal one. -/
def Digits.toFloat (d : Digits) : Float :=
  let n := d.digits.foldl (fun n c => 10 * n + (c.toNat - '0'.toNat)) 0
  let e := d.point - d.digits.length
  if 0 ≤ e then Float.ofScientific n false e.toNat else Float.ofScientific n true (-e).toNat

end Overlap.Decimal
