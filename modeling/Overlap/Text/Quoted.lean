/-
  Quoted texts: a text between double quotes, in which quotes, backslashes and
  characters that cannot be printed are escaped.

  * `quote` quotes a text, `quoteCut` one that has been cut after a number of
    bytes, where the bytes of a split character are escaped one by one.
-/
import Overlap.Text.Hex
import Overlap.Text.Printable

namespace Overlap.Text

/-- The escape of a character that has no short one. -/
def escapeCode (c : Char) : String :=
  if c.toNat < 0x20 || c.toNat == 0x7f then "\\x" ++ hex 2 c.toNat
  else if c.toNat < 0x10000 then "\\u" ++ hex 4 c.toNat
  else "\\U" ++ hex 8 c.toNat

/-- A character inside a quoted text. -/
def quoteChar (c : Char) : String :=
  if c = '"' then "\\\""
  else if c = '\\' then "\\\\"
  else if isPrintable c then c.toString
  else match c.toNat with
    | 7 => "\\a"
    | 8 => "\\b"
    | 9 => "\\t"
    | 10 => "\\n"
    | 11 => "\\v"
    | 12 => "\\f"
    | 13 => "\\r"
    | _ => escapeCode c

/-- The characters of a text inside quotes. -/
def quoteChars (cs : List Char) : String := String.join (cs.map quoteChar)

/-- A text in double quotes. -/
def quote (s : String) : String := "\"" ++ quoteChars s.toList ++ "\""

/-- The characters that fit in the first `n` bytes of a text, and those bytes of the next
    character that fit too. -/
def takeBytes : Nat → List Char → List Char × List UInt8
  | _, [] => ([], [])
  | n, c :: cs =>
    if c.utf8Size ≤ n then
      let (chars, bytes) := takeBytes (n - c.utf8Size) cs
      (c :: chars, bytes)
    else ([], (String.utf8EncodeChar c).take n)

/-- A text in double quotes; if it is longer than `max` bytes it is cut so that it ends in
    three dots after `max` bytes. -/
def quoteCut (max : Nat) (s : String) : String :=
  if s.utf8ByteSize ≤ max then quote s
  else
    let (chars, bytes) := takeBytes (max - 3) s.toList
    "\"" ++ quoteChars chars ++ String.join (bytes.map fun b => "\\x" ++ hex 2 b.toNat) ++ "...\""

end Overlap.Text
