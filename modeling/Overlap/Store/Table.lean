/-
  Tables of a small relational database.

  A table has named columns and rows that are numbered from one.  Columns may
  be required, and a key may identify the rows; an insertion that breaks either
  rule fails.

  * `Datum` is a stored value, with the conversions of values that are read;
  * `Table.insert` adds a row, `Table.rowsWith` selects rows;
  * `TableError` says which rule an insertion breaks or which column is missing.
-/
import Overlap.Decimal.Format
import Overlap.Decimal.Read

namespace Overlap.Store

/-! ## Values -/

/-- A stored value. -/
inductive Datum where
  | null
  | integer (n : Int)
  | real (x : Float)
  | text (s : String)
deriving Inhabited

namespace Datum

/-- A number; there is none that is not a number. -/
def ofFloat (x : Float) : Datum := if x.isNaN then .null else .real x

/-- A text, absent if it is empty. -/
def ofText (s : String) : Datum := if s.isEmpty then .null else .text s

/-- A number, absent if it is zero. -/
def ofNonzero (n : Int) : Datum := if n = 0 then .null else .integer n

/-- Whether there is no value. -/
def isNull : Datum → Bool
  | .null => true
  | _ => false

/-- The number that a text starts with, zero if there is none. -/
def leadingNumber (s : String) : Float :=
  let cs := s.toList.dropWhile Char.isWhitespace
  ((List.range (cs.length + 1)).reverse.findSome? fun n => Decimal.float? (cs.take n)).getD 0

/-- The integer part of a number, within 64 bits. -/
def truncate (x : Float) : Int :=
  if x.isNaN then 0 else x.toInt64.toInt

/-- The value read as an integer. -/
def toInt : Datum → Int
  | .null => 0
  | .integer n => n
  | .real x => truncate x
  | .text s => truncate (leadingNumber s)

/-- The value read as a number. -/
def toFloat : Datum → Float
  | .null => 0
  | .integer n => Float.ofInt n
  | .real x => x
  | .text s => leadingNumber s

/-- The text of a number: a point is always there. -/
def numberText (x : Float) : String :=
  let text := Decimal.generalRounded 15 x
  if text.toList.any fun c => c == '.' || c == 'e' || c == 'I' then text else text ++ ".0"

/-- The value read as a text. -/
def toText : Datum → String
  | .null => ""
  | .integer n => toString n
  | .real x => numberText x
  | .text s => s

/-- The order of values: absent ones, numbers, texts. -/
def le : Datum → Datum → Bool
  | .null, _ => true
  | _, .null => false
  | .text a, .text b => decide (a ≤ b)
  | .text _, _ => false
  | _, .text _ => true
  | .integer a, .integer b => decide (a ≤ b)
  | a, b => a.toFloat ≤ b.toFloat

/-- Whether two values are equal; an absent value equals no other. -/
def same : Datum → Datum → Bool
  | .integer a, .integer b => a == b
  | .text a, .text b => a == b
  | .integer a, .real b => Float.ofInt a == b
  | .real a, .integer b => a == Float.ofInt b
  | .real a, .real b => a == b
  | _, _ => false

end Datum

/-! ## Tables -/

/-- A row: its number and its values by column. -/
structure Row where
  number : Nat
  cells : List (String × Datum)
deriving Inhabited

/-- The value in a column, absent if none was stored. -/
def Row.get (r : Row) (column : String) : Datum := (r.cells.lookup column).getD .null

/-- A table. -/
structure Table where
  name : String
  columns : List String
  /-- The columns that must have a value. -/
  required : List String
  /-- The columns that identify a row; none: rows may be equal. -/
  key : List String
  /-- The column that holds the number of the row. -/
  numbered : Option String
  rows : List Row
deriving Inhabited

/-- Why a table refuses a statement. -/
inductive TableError where
  /-- A column that is written does not exist. -/
  | noColumn (table column : String)
  /-- A column that is read does not exist. -/
  | unknownColumn (column : String)
  | missing (table column : String)
  | duplicate (table : String) (columns : List String)
deriving DecidableEq, Repr

/-- The text of an error. -/
def TableError.message : TableError → String
  | .noColumn table column => "SQL logic error: table " ++ table ++ " has no column named " ++ column
  | .unknownColumn column => "SQL logic error: no such column: " ++ column
  | .missing table column =>
    "sqlite: step: constraint failed: NOT NULL constraint failed: " ++ table ++ "." ++ column
  | .duplicate table columns =>
    "sqlite: step: constraint failed: UNIQUE constraint failed: " ++
      ", ".intercalate (columns.map fun c => table ++ "." ++ c)

namespace Table

variable (t : Table)

/-- The greatest number of a row. -/
def lastNumber : Nat := t.rows.foldl (fun n r => max n r.number) 0

/-- Checks that columns which are written exist. -/
def checkWritten (columns : List String) : Except TableError Unit :=
  match columns.find? fun c => !t.columns.contains c with
  | some c => .error (.noColumn t.name c)
  | none => .ok ()

/-- Checks that columns which are read exist. -/
def checkRead (columns : List String) : Except TableError Unit :=
  match columns.find? fun c => !t.columns.contains c with
  | some c => .error (.unknownColumn c)
  | none => .ok ()

/-- The row that an insertion adds. -/
def newRow (cells : List (String × Datum)) : Row :=
  let number := t.lastNumber + 1
  ⟨number, (t.numbered.map fun c => (c, Datum.integer number)).toList ++ cells⟩

/-- Whether two rows have the same key. -/
def sameKey (a b : Row) : Bool :=
  !t.key.isEmpty && t.key.all fun c => (a.get c).same (b.get c)

/-- Adds a row if the required columns have values and no row has its key. -/
def insert (cells : List (String × Datum)) : Except TableError Table :=
  let row := t.newRow cells
  match t.required.find? fun c => (row.get c).isNull with
  | some c => .error (.missing t.name c)
  | none =>
    if t.rows.any (t.sameKey row) then .error (.duplicate t.name t.key)
    else .ok { t with rows := t.rows ++ [row] }

/-- The rows with a number in a column, ordered by further columns. -/
def rowsWith (column : String) (n : Int) (order : List String) : List Row :=
  let rows := t.rows.filter fun r => (r.get column).same (.integer n)
  -- later columns first, so that the first one decides
  order.reverse.foldl (fun rows c => rows.mergeSort fun a b => (a.get c).le (b.get c)) rows

end Table

end Overlap.Store
