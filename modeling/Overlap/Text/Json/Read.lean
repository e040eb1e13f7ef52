/-
  Reading JSON documents.

  * `Json.parse` reads a document from a text;
  * `Json.field`, `Json.items` and the conversions look into a document.  They
    are total: what is absent or of another kind is null, empty or zero.
-/
import Overlap.Decimal.Read
import Overlap.Text.Json

namespace Overlap.Text.Json

/-! ## Parsing -/

/-- A text that is no JSON document. -/
inductive Malformed where
  | malformed
deriving DecidableEq, Repr

/-- The rest of a text after blanks. -/
def skipBlanks (cs : List Char) : List Char :=
  cs.dropWhile fun c => c == ' ' || c == '\n' || c == '\t' || c == '\r'

/-- The number of an escape `\u`, and the rest after its four digits. -/
def unit? : List Char → Option (Nat × List Char)
  | a :: b :: c :: d :: rest => (hexNumber? [a, b, c, d]).map (·, rest)
  | _ => none

/-- The character of an escape after its backslash, and the rest.  Two escapes may give the two
    halves of one character; half a character alone is a replacement character. -/
def escape? : List Char → Option (Char × List Char)
  | 'n' :: rest => some ('\n', rest)
  | 't' :: rest => some ('\t', rest)
  | 'r' :: rest => some ('\r', rest)
  | 'b' :: rest => some ('\x08', rest)
  | 'f' :: rest => some ('\x0c', rest)
  | 'u' :: rest => do
    let (n, rest) ← unit? rest
    if 0xd800 ≤ n && n < 0xdc00 then
      match rest with
      | '\\' :: 'u' :: more =>
        let (m, after) ← unit? more
        if 0xdc00 ≤ m && m < 0xe000 then
          some (Char.ofNat (0x10000 + (n - 0xd800) * 1024 + (m - 0xdc00)), after)
        else some ('�', rest)
      | _ => some ('�', rest)
    else if 0xdc00 ≤ n && n < 0xe000 then some ('�', rest)
    else some (Char.ofNat n, rest)
  | c :: rest => if c == '"' || c == '\\' || c == '/' then some (c, rest) else none
  | [] => none

/-- The characters of a text up to its closing quote, in reverse, and the rest. -/
def textFrom : Nat → List Char → List Char → Except Malformed (List Char × List Char)
  | 0, _, _ => .error .malformed
  | _ + 1, _, [] => .error .malformed
  | fuel + 1, done, c :: rest =>
    if c == '"' then .ok (done, rest)
    else if c == '\\' then
      match escape? rest with
      | some (d, rest) => textFrom fuel (d :: done) rest
      | none => .error .malformed
    else textFrom fuel (c :: done) rest

/-- Whether a character may be part of a number. -/
def isNumeric (c : Char) : Bool := c.isDigit || c == '-' || c == '+' || c == '.' || c == 'e' || c == 'E'

/-- The rest of a text that starts with a word. -/
def after? : List Char → List Char → Option (List Char)
  | [], cs => some cs
  | w :: ws, c :: cs => if w == c then after? ws cs else none
  | _ :: _, [] => none

mutual

/-- A value, and the rest of the text. -/
def valueFrom : Nat → List Char → Except Malformed (Json × List Char)
  | 0, _ => .error .malformed
  | fuel + 1, cs =>
    match skipBlanks cs with
    | '"' :: rest => do
      let (text, rest) ← textFrom (fuel + 1) [] rest
      return (.str (String.ofList text.reverse), rest)
    | '[' :: rest =>
      match skipBlanks rest with
      | ']' :: rest => .ok (.arr [], rest)
      | rest => do
        let (xs, rest) ← itemsFrom fuel rest
        return (.arr xs, rest)
    | '{' :: rest =>
      match skipBlanks rest with
      | '}' :: rest => .ok (.obj [] [], rest)
      | rest => do
        let (ns, vs, rest) ← membersFrom fuel rest
        return (.obj ns vs, rest)
    | 't' :: rest => ((after? ['r', 'u', 'e'] rest).map (Json.bool true, ·)).elim (.error .malformed) .ok
    | 'f' :: rest =>
      ((after? ['a', 'l', 's', 'e'] rest).map (Json.bool false, ·)).elim (.error .malformed) .ok
    | 'n' :: rest => ((after? ['u', 'l', 'l'] rest).map (Json.null, ·)).elim (.error .malformed) .ok
    | rest =>
      let digits := rest.takeWhile isNumeric
      if (Decimal.float? digits).isSome then
        .ok (.num (String.ofList digits), rest.drop digits.length)
      else .error .malformed

/-- The items of a list up to its closing bracket, and the rest of the text. -/
def itemsFrom : Nat → List Char → Except Malformed (List Json × List Char)
  | 0, _ => .error .malformed
  | fuel + 1, cs => do
    let (x, rest) ← valueFrom fuel cs
    match skipBlanks rest with
    | ',' :: rest =>
      let (xs, rest) ← itemsFrom fuel rest
      return (x :: xs, rest)
    | ']' :: rest => return ([x], rest)
    | _ => throw .malformed

/-- The members of an object up to its closing brace, and the rest of the text. -/
def membersFrom : Nat → List Char → Except Malformed (List String × List Json × List Char)
  | 0, _ => .error .malformed
  | fuel + 1, cs => do
    match skipBlanks cs with
    | '"' :: rest =>
      let (name, rest) ← textFrom (fuel + 1) [] rest
      match skipBlanks rest with
      | ':' :: rest =>
        let (v, rest) ← valueFrom fuel rest
        match skipBlanks rest with
        | ',' :: rest =>
          let (ns, vs, rest) ← membersFrom fuel rest
          return (String.ofList name.reverse :: ns, v :: vs, rest)
        | '}' :: rest => return ([String.ofList name.reverse], [v], rest)
        | _ => throw .malformed
      | _ => throw .malformed
    | _ => throw .malformed

end

/-- Reads a document. -/
def parse (text : String) : Except Malformed Json := do
  let cs := text.toList
  let (j, rest) ← valueFrom (cs.length + 1) cs
  if (skipBlanks rest).isEmpty then return j else throw .malformed

/-! ## Access -/

/-- The member of an object with a name. -/
def field (j : Json) (name : String) : Json :=
  match j with
  | .obj names values => (((names.zip values).lookup name)).getD .null
  | _ => .null

/-- The names and values of an object. -/
def members : Json → List (String × Json)
  | .obj names values => names.zip values
  | _ => []

/-- The items of a list. -/
def items : Json → List Json
  | .arr xs => xs
  | _ => []

/-- The item of a list with a number. -/
def item (j : Json) (n : Nat) : Json := (j.items[n]?).getD .null

/-- Whether a document is null. -/
def isNull : Json → Bool
  | .null => true
  | _ => false

/-- A text. -/
def toText : Json → String
  | .str s => s
  | _ => ""

/-- A truth value. -/
def toBool : Json → Bool
  | .bool b => b
  | _ => false

/-- A whole number without a sign. -/
def toNat? : Json → Option Nat
  | .num t => Decimal.natural? t.toList
  | _ => none

/-- A whole number without a sign, zero if there is none. -/
def toNat (j : Json) : Nat := j.toNat?.getD 0

/-- A whole number. -/
def toInt : Json → Int
  | .num t =>
    match t.toList with
    | '-' :: cs => -(((Decimal.natural? cs).getD 0 : Nat) : Int)
    | cs => ((Decimal.natural? cs).getD 0 : Nat)
  | _ => 0

/-- A floating-point number. -/
def toFloat : Json → Float
  | .num t => (Decimal.float? t.toList).getD 0
  | _ => 0

end Overlap.Text.Json
