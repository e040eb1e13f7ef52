/-
  What plain scalars stand for.

  A plain scalar is null, a truth value, an integer, a floating-point number
  or a date if it is spelled like one, and otherwise a text.

  * `resolve` gives the value of a scalar and its tag.
-/
import Overlap.Decimal.Read
import Overlap.Text.Base64
import Overlap.Text.Bytes

namespace Overlap.Yaml

/-- The values of scalars. -/
inductive Scalar where
  | null
  | bool (value : Bool)
  | int (value : Int)
  | float (value : Float)
  | time
  | text (value : String)
  /-- A text that is written in the base 64 alphabet. -/
  | encoded (value : String)
deriving Inhabited

/-- The tag of a value. -/
def Scalar.tag : Scalar → String
  | .null => "!!null"
  | .bool _ => "!!bool"
  | .int _ => "!!int"
  | .float _ => "!!float"
  | .time => "!!timestamp"
  | .text _ => "!!str"
  | .encoded _ => "!!binary"

/-- The short form of a tag of the YAML language itself. -/
def shortTag (tag : String) : String :=
  let long := "tag:yaml.org,2002:"
  if tag.startsWith long then "!!" ++ String.ofList (tag.toList.drop long.length) else tag

/-! ## Words -/

/-- The words that stand for a value. -/
def word? : String → Option Scalar
  | "" | "~" | "null" | "Null" | "NULL" => some .null
  | "true" | "True" | "TRUE" => some (.bool true)
  | "false" | "False" | "FALSE" => some (.bool false)
  | ".nan" | ".NaN" | ".NAN" => some (.float (0.0 / 0.0))
  | ".inf" | ".Inf" | ".INF" | "+.inf" | "+.Inf" | "+.INF" => some (.float (1.0 / 0.0))
  | "-.inf" | "-.Inf" | "-.INF" => some (.float (-1.0 / 0.0))
  | _ => none

/-! ## Numbers -/

/-- The value of a digit in a base up to sixteen. -/
def digitValue? (base : Nat) (c : Char) : Option Nat :=
  let value :=
    if c.isDigit then c.toNat - '0'.toNat
    else if 'a' ≤ c && c ≤ 'f' then c.toNat - 'a'.toNat + 10
    else if 'A' ≤ c && c ≤ 'F' then c.toNat - 'A'.toNat + 10
    else base
  if value < base then some value else none

/-- The number written by digits of a base. -/
def natIn? (base : Nat) : List Char → Option Nat
  | [] => none
  | cs => cs.foldl (fun n c => do return base * (← n) + (← digitValue? base c)) (some 0)

/-- The number written by digits after a mark of their base: `0x`, `0o`, `0b`, or a zero for
    base eight. -/
def natural? : List Char → Option Nat
  | '0' :: c :: cs =>
    if c == 'x' || c == 'X' then natIn? 16 cs
    else if c == 'o' || c == 'O' then natIn? 8 cs
    else if c == 'b' || c == 'B' then natIn? 2 cs
    else natIn? 8 (c :: cs)
  | cs => natIn? 10 cs

/-- An integer of 64 bits, signed or unsigned. -/
def integer? : List Char → Option Int
  | '-' :: cs => do
    let n ← natural? cs
    if n ≤ Nat.pow 2 63 then some (-(n : Int)) else none
  | '+' :: cs => do
    let n ← natural? cs
    if n < Nat.pow 2 63 then some n else none
  | cs => do
    let n ← natural? cs
    if n < Nat.pow 2 64 then some n else none

/-! ## Dates -/

/-- Between `least` and `most` digits at the start of a text. -/
def digits? (least most : Nat) (cs : List Char) : Option (Nat × List Char) :=
  let ds := (cs.take most).takeWhile Char.isDigit
  if ds.length < least then none
  else (natIn? 10 ds).map fun n => (n, cs.drop ds.length)

/-- The rest of a text that starts with `c`. -/
def after? (c : Char) : List Char → Option (List Char)
  | d :: cs => if d == c then some cs else none
  | [] => none

/-- Whether a year has a 29 February. -/
def isLeap (year : Nat) : Bool := year % 4 == 0 && (year % 100 != 0 || year % 400 == 0)

/-- The number of days of a month. -/
def daysIn (year month : Nat) : Nat :=
  if month == 2 then (if isLeap year then 29 else 28)
  else if month == 4 || month == 6 || month == 9 || month == 11 then 30 else 31

/-- A date, and what follows it. -/
def date? (cs : List Char) : Option (List Char) := do
  let (year, cs) ← digits? 4 4 cs
  let (month, cs) ← digits? 1 2 (← after? '-' cs)
  let (day, cs) ← digits? 1 2 (← after? '-' cs)
  if 1 ≤ month && month ≤ 12 && 1 ≤ day && day ≤ daysIn year month then some cs else none

/-- A time of the day with an optional fraction of a second, and what follows it. -/
def clock? (cs : List Char) : Option (List Char) := do
  let (hour, cs) ← digits? 1 2 cs
  let (minute, cs) ← digits? 1 2 (← after? ':' cs)
  let (second, cs) ← digits? 1 2 (← after? ':' cs)
  if hour < 24 && minute < 60 && second < 60 then
    match cs with
    | c :: d :: _ =>
      if (c == '.' || c == ',') && d.isDigit then some ((cs.drop 1).dropWhile Char.isDigit)
      else some cs
    | _ => some cs
  else none

/-- A distance from universal time: `Z`, or hours and minutes with a sign. -/
def zone? (cs : List Char) : Option (List Char) := do
  match cs with
  | 'Z' :: cs => some cs
  | c :: cs =>
    if c == '+' || c == '-' then
      let (hours, cs) ← digits? 2 2 cs
      let (minutes, cs) ← digits? 2 2 (← after? ':' cs)
      if hours ≤ 24 && minutes ≤ 60 then some cs else none
    else none
  | [] => none

/-- Whether a text is a date, alone or with a time of the day. -/
def isTime (cs : List Char) : Bool :=
  match date? cs with
  | none => false
  | some [] => true
  | some (c :: cs) =>
    if c == 'T' || c == 't' then ((clock? cs).bind zone?) == some []
    else if c == ' ' then clock? (cs.dropWhile (· == ' ')) == some []
    else false

/-! ## Resolution -/

/-- The value of a number or date that starts with a digit or a sign. -/
def numeral? (withTime : Bool) (cs : List Char) : Option Scalar :=
  if withTime && isTime cs then some .time
  else
    let plain := cs.filter (· != '_')
    match integer? plain with
    | some n => some (.int n)
    | none => (Decimal.float? plain).map .float

/-- The value of a plain scalar that has no tag, or only the tag of its own value. -/
def plainValue (withTime : Bool) (text : String) : Scalar :=
  match word? text with
  | some v => v
  | none =>
    match text.toList with
    | [] => .null
    | c :: _ =>
      let value :=
        if c.isDigit || c == '+' || c == '-' then numeral? withTime text.toList
        else if c == '.' then (Decimal.float? text.toList).map .float
        else none
      value.getD (.text text)

/-- The value of a scalar with a tag (short, empty if there is none), if the tag fits it: a text
    fits any scalar, and a float may be spelled like an integer. -/
def resolve (tag text : String) : Option Scalar :=
  if tag == "!!str" then some (.text text)
  else if tag == "!!binary" then
    (Text.Base64.decode? text).map fun bytes => .encoded (Text.textOfBytes bytes)
  else
    let value := plainValue (tag == "" || tag == "!!timestamp") text
    if tag == "" || tag == value.tag then some value
    else match tag, value with
      | "!!float", .int n => some (.float (Float.ofInt n))
      | _, _ => none

end Overlap.Yaml
