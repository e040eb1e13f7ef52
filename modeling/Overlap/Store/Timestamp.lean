/-
  Timestamps `2006-01-02T15:04:05Z`, with an offset in place of `Z`.

  `Timestamp.check` says why a text is none: which part does not have its form,
  or which number is out of range.  An hour may have one digit, and seconds may
  have a fraction.
-/

namespace Overlap.Store

/-- Why a text is no timestamp. -/
inductive TimestampError where
  /-- The rest of the text does not start with the part that the layout shows. -/
  | mismatch (rest part : String)
  | outOfRange (what : String)
  | extra (rest : String)
deriving DecidableEq, Repr

namespace Timestamp

/-- The form of timestamps, shown by an example. -/
def layout : String := "2006-01-02T15:04:05Z07:00"

/-- A byte as two hexadecimal digits. -/
def byteText (b : UInt8) : String :=
  let digit (n : Nat) : Char := Nat.digitChar n
  String.ofList ['\\', 'x', digit (b.toNat / 16), digit (b.toNat % 16)]

/-- A text between quotes, in which only printable ASCII stands for itself. -/
def quote (s : String) : String :=
  "\"" ++ String.join (s.toList.map fun c =>
    if c.toNat < 0x20 || 0x80 ≤ c.toNat then
      String.join (c.toString.toUTF8.toList.map byteText)
    else if c == '"' || c == '\\' then "\\" ++ c.toString
    else c.toString) ++ "\""

/-- The text of an error about a timestamp. -/
def errorText (value : String) : TimestampError → String
  | .mismatch rest part =>
    "parsing time " ++ quote value ++ " as " ++ quote layout ++ ": cannot parse " ++ quote rest ++
      " as " ++ quote part
  | .outOfRange what => "parsing time " ++ quote value ++ ": " ++ what ++ " out of range"
  | .extra rest => "parsing time " ++ quote value ++ ": extra text: " ++ quote rest

/-- The value of decimal digits. -/
def digitsValue (cs : List Char) : Nat := cs.foldl (fun n c => 10 * n + (c.toNat - '0'.toNat)) 0

/-- Reads a separator. -/
def separator (part : Char) : List Char → Except TimestampError (List Char)
  | c :: rest => if c == part then .ok rest
    else .error (.mismatch (String.ofList (c :: rest)) part.toString)
  | [] => .error (.mismatch "" part.toString)

/-- Reads the four digits of a year. -/
def year (cs : List Char) : Except TimestampError (Nat × List Char) :=
  let digits := cs.take 4
  if digits.length == 4 && digits.all Char.isDigit then .ok (digitsValue digits, cs.drop 4)
  else .error (.mismatch (String.ofList cs) "2006")

/-- Reads a number of two digits, or of one if that is allowed. -/
def number (part : String) (fixed : Bool) (cs : List Char) : Except TimestampError (Nat × List Char) :=
  match cs with
  | a :: b :: rest =>
    if a.isDigit && b.isDigit then .ok (digitsValue [a, b], rest)
    else if a.isDigit && !fixed then .ok (digitsValue [a], b :: rest)
    else .error (.mismatch (String.ofList cs) part)
  | [a] =>
    if a.isDigit && !fixed then .ok (digitsValue [a], [])
    else .error (.mismatch (String.ofList cs) part)
  | [] => .error (.mismatch "" part)

/-- Fails unless a number is within bounds. -/
def within (what : String) (low high n : Nat) : Except TimestampError Unit :=
  if low ≤ n && n ≤ high then .ok () else .error (.outOfRange what)

/-- Skips the fraction of a second. -/
def fraction : List Char → List Char
  | p :: d :: rest =>
    if (p == '.' || p == ',') && d.isDigit then rest.dropWhile Char.isDigit else p :: d :: rest
  | cs => cs

/-- Reads `Z` or an offset `+07:00`. -/
def zone (cs : List Char) : Except TimestampError (List Char) :=
  let bad := TimestampError.mismatch (String.ofList cs) "Z07:00"
  match cs with
  | 'Z' :: rest => .ok rest
  | sign :: a :: b :: ':' :: c :: d :: rest =>
    if a.isDigit && b.isDigit && 24 < digitsValue [a, b] then .error (.outOfRange "time zone offset hour")
    else if !(a.isDigit && b.isDigit && c.isDigit && d.isDigit) then .error bad
    else if 60 < digitsValue [c, d] then .error (.outOfRange "time zone offset minute")
    else if sign == '+' || sign == '-' then .ok rest
    else .error bad
  | _ => .error bad

/-- The number of days of a month. -/
def daysIn (year month : Nat) : Nat :=
  if month == 2 then
    if year % 4 == 0 && (year % 100 != 0 || year % 400 == 0) then 29 else 28
  else if [4, 6, 9, 11].contains month then 30 else 31

/-- Checks that a text is a timestamp. -/
def check (value : String) : Except TimestampError Unit := do
  let (y, cs) ← year value.toList
  let (m, cs) ← number "01" true (← separator '-' cs)
  within "month" 1 12 m
  let (d, cs) ← number "02" true (← separator '-' cs)
  let (h, cs) ← number "15" false (← separator 'T' cs)
  within "hour" 0 23 h
  let (min, cs) ← number "04" true (← separator ':' cs)
  within "minute" 0 59 min
  let (s, cs) ← number "05" true (← separator ':' cs)
  within "second" 0 59 s
  let rest ← zone (fraction cs)
  if !rest.isEmpty then throw (.extra (String.ofList rest))
  within "day" 1 (daysIn y m) d

end Timestamp

end Overlap.Store
