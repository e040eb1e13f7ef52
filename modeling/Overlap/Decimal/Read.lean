/-
  Reading decimal numbers.

  * `decimal?` reads a number without a sign, `float?` one with a sign, as the
    nearest floating-point number.
-/
import Overlap.Decimal.Digits

namespace Overlap.Decimal

/-- The number written by decimal digits, of which there is at least one. -/
def natural? : List Char → Option Nat
  | [] => none
  | cs => if cs.all Char.isDigit then some (cs.foldl (fun n c => 10 * n + (c.toNat - '0'.toNat)) 0)
    else none

/-- An exponent: a letter `e`, a sign and digits, or nothing. -/
def exponent? : List Char → Option Int
  | [] => some 0
  | c :: cs =>
    if c == 'e' || c == 'E' then
      match cs with
      | '-' :: ds => (natural? ds).map fun n => -(n : Int)
      | '+' :: ds => (natural? ds).map Int.ofNat
      | ds => (natural? ds).map Int.ofNat
    else none

/-- A decimal number without a sign: digits with a point, of which one side may be empty, and an
    exponent. -/
def decimal? (cs : List Char) : Option Digits :=
  let whole := cs.takeWhile Char.isDigit
  let rest := cs.dropWhile Char.isDigit
  let (fraction, rest) := match rest with
    | '.' :: rest => (rest.takeWhile Char.isDigit, rest.dropWhile Char.isDigit)
    | rest => ([], rest)
  if whole.isEmpty && fraction.isEmpty then none
  else do
    let e ← exponent? rest
    let digits := whole ++ fraction
    let significant := digits.dropWhile (· == '0')
    some ⟨significant, e + whole.length - (digits.length - significant.length : Nat)⟩

/-- The float of a decimal number without a sign, if it is not too large for one.  A number with
    a point far to the right is too large, and one with a point far to the left is zero. -/
def finite? (d : Digits) : Option Float :=
  if d.digits.isEmpty then some 0.0
  else if d.point > 400 then none
  else
    let x := if d.point < -400 then 0.0 else d.toFloat
    if x.isInf then none else some x

/-- A floating-point number with a sign. -/
def float? : List Char → Option Float
  | '-' :: cs => ((decimal? cs).bind finite?).map (-·)
  | '+' :: cs => (decimal? cs).bind finite?
  | cs => (decimal? cs).bind finite?

end Overlap.Decimal
