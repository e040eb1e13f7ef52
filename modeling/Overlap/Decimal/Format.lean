/-
  Texts of floating-point numbers.

  The digits are those of `Digits`; what remains is notation.  A number is
  *positional* (`0.00012`) or *exponential* (`1.2e-04`), and a `Layout`
  record says where one ends and the other begins, and how exponents are
  written.

  * `general` is the notation of reports, with all digits or the first `n`;
  * `document` is that of JSON documents;
  * `roundFloat` keeps the first digits of a number.
-/
import Overlap.Decimal.Digits

namespace Overlap.Decimal

/-- How a number is written. -/
structure Layout where
  /-- The smallest exponent of a number in positional notation. -/
  least : Int
  /-- The smallest exponent above those in positional notation. -/
  limit : Int
  /-- The least number of digits of a negative exponent. -/
  negativeWidth : Nat
deriving Repr

/-- The exponent of a number in exponential notation. -/
def Digits.exponent (d : Digits) : Int := if d.digits.isEmpty then 0 else d.point - 1

/-- The digits before and after the point, without an exponent. -/
def Digits.positional (d : Digits) : String :=
  let whole := if d.point ≤ 0 then ['0'] else
    let n := d.point.toNat
    d.digits.take n ++ List.replicate (n - d.digits.length) '0'
  let rest := if d.point ≤ 0 then
      if d.digits.isEmpty then [] else List.replicate (-d.point).toNat '0' ++ d.digits
    else d.digits.drop d.point.toNat
  String.ofList (if rest.isEmpty then whole else whole ++ '.' :: rest)

/-- An exponent with its sign and at least `width` digits if negative, two otherwise. -/
def exponentText (e : Int) (negativeWidth : Nat) : String :=
  let digits := Nat.toDigits 10 e.natAbs
  let width := if e < 0 then negativeWidth else 2
  (if e < 0 then "e-" else "e+") ++
    String.ofList (List.replicate (width - digits.length) '0' ++ digits)

/-- One digit, the others after a point, and the exponent. -/
def Digits.exponential (d : Digits) (negativeWidth : Nat) : String :=
  let mantissa := match d.digits with
    | [] => ['0']
    | [c] => [c]
    | c :: cs => c :: '.' :: cs
  String.ofList mantissa ++ exponentText d.exponent negativeWidth

/-- The text of digits in a layout. -/
def Layout.text (layout : Layout) (d : Digits) : String :=
  if d.exponent < layout.least || layout.limit ≤ d.exponent then
    d.exponential layout.negativeWidth
  else d.positional

/-- Digits of the number `m * 2 ^ q`: all that are needed, or the first ones. -/
def digitsOf (places : Option Nat) (m : Nat) (q : Int) : Digits :=
  match places with
  | none => shortest m q
  | some n => rounded n m q

/-- The text of a number in a layout, with infinities and the undefined number as words. -/
def Layout.write (layout : Layout) (places : Option Nat) (x : Float) : String :=
  match parts x with
  | .nan => "NaN"
  | .infinite negative => if negative then "-Inf" else "+Inf"
  | .finite negative m q => (if negative then "-" else "") ++ layout.text (digitsOf places m q)

/-- The notation of reports: numbers from 0.0001 to below a million are positional. -/
def general (x : Float) : String := Layout.write ⟨-4, 6, 2⟩ none x

/-- The first `n` digits of a number in the notation of reports, where numbers of more than `n`
    digits before the point are exponential. -/
def generalRounded (n : Nat) (x : Float) : String := Layout.write ⟨-4, n, 2⟩ (some n) x

/-- The notation of JSON documents: numbers from a millionth to below 10 ^ 21 are positional. -/
def document (x : Float) : String := Layout.write ⟨-6, 21, 1⟩ none x

/-- A number rounded to its first `n` digits. -/
def roundFloat (n : Nat) (x : Float) : Float :=
  match parts x with
  | .finite negative m q =>
    let y := (rounded n m q).toFloat
    if negative then -y else y
  | _ => x

end Overlap.Decimal
