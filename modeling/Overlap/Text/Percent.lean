/-
  Texts in addresses, where bytes may be written as a percent sign and two
  hexadecimal digits.

  * `decode` reads such a text, `encodePath` writes a path;
  * `queryValue` is the value of a name in a query.
-/
import Overlap.Text.Bytes
import Overlap.Text.Hex

namespace Overlap.Text.Percent

/-- The bytes of a text with percent signs; none if a percent sign is not followed by two digits.
    In a query a plus sign is a blank. -/
def bytes? (inQuery : Bool) : List Char → Option (List UInt8)
  | [] => some []
  | '%' :: a :: b :: rest => do
    return UInt8.ofNat (← hexNumber? [a, b]) :: (← bytes? inQuery rest)
  | '%' :: _ => none
  | c :: rest => do
    let c := if inQuery && c == '+' then ' ' else c
    return c.toString.toUTF8.toList ++ (← bytes? inQuery rest)

/-- The text that a text with percent signs stands for. -/
def decode (inQuery : Bool) (s : String) : Option String := (bytes? inQuery s.toList).map textOfBytes

/-- Whether a byte of a path stands for itself. -/
def isPlain (b : UInt8) : Bool :=
  let c := Char.ofNat b.toNat
  b < 0x80 && (c.isAlphanum || "-_.~$&+,/:;=@".toList.contains c)

/-- A byte as a percent sign and two digits. -/
def encodeByte (b : UInt8) : String :=
  if isPlain b then (Char.ofNat b.toNat).toString
  else "%" ++ (hex 2 b.toNat).map Char.toUpper

/-- A path with percent signs for all that does not stand for itself. -/
def encodePath (s : String) : String := String.join (s.toUTF8.toList.map encodeByte)

/-- A text cut at the first occurrence of a character. -/
def cut (at_ : Char) (s : String) : String × String :=
  let before := s.toList.takeWhile (· != at_)
  (String.ofList before, String.ofList (s.toList.drop (before.length + 1)))

/-- The value of a name in a query, empty if there is none. Parts that cannot be decoded, or with
    a semicolon, do not count. -/
def queryValue (query name : String) : String :=
  let pairs := (query.splitOn "&").filterMap fun part =>
    if part.toList.contains ';' then none
    else do
      let (key, value) := cut '=' part
      return (← decode true key, ← decode true value)
  (pairs.lookup name).getD ""

end Overlap.Text.Percent
