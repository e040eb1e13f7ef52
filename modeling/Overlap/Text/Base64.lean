/-
  Bytes written in the base 64 alphabet: four letters for three bytes.

  * `decode?` reads them; ends of lines do not count, and equals signs fill up
    the last group of letters.
-/

namespace Overlap.Text.Base64

/-- The value of a letter. -/
def letter? (c : Char) : Option Nat :=
  if 'A' ≤ c && c ≤ 'Z' then some (c.toNat - 'A'.toNat)
  else if 'a' ≤ c && c ≤ 'z' then some (c.toNat - 'a'.toNat + 26)
  else if c.isDigit then some (c.toNat - '0'.toNat + 52)
  else if c == '+' then some 62
  else if c == '/' then some 63
  else none

/-- The first `count` bytes of a group of letters. -/
def group? (count : Nat) (letters : List Char) : Option (List UInt8) := do
  let n ← letters.foldlM (fun n c => (letter? c).map (64 * n + ·)) 0
  return ([n / 65536, n / 256, n].map UInt8.ofNat).take count

/-- The bytes of groups of letters. -/
def groups? : List Char → Option (List UInt8)
  | [] => some []
  | [a, b, '=', '='] => group? 1 [a, b, 'A', 'A']
  | [a, b, c, '='] => group? 2 [a, b, c, 'A']
  | a :: b :: c :: d :: rest => do return (← group? 3 [a, b, c, d]) ++ (← groups? rest)
  | _ => none

/-- The bytes that a text stands for. -/
def decode? (text : String) : Option (List UInt8) :=
  groups? (text.toList.filter fun c => c != '\n' && c != '\r')

end Overlap.Text.Base64
