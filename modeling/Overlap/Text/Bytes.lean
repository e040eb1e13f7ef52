/-
  The texts that bytes stand for.

  * `textOfBytes` reads UTF-8; a byte that is no part of a character is a
    replacement character.
-/

namespace Overlap.Text

/-- The character at the start of some bytes, and the number of its bytes. -/
def firstChar? (bytes : List UInt8) : Option (Char × Nat) :=
  [1, 2, 3, 4].findSome? fun n =>
    match (String.fromUTF8? ⟨(bytes.take n).toArray⟩).map String.toList with
    | some [c] => some (c, n)
    | _ => none

/-- The characters of some bytes, at most `fuel` of them. -/
def charsOfBytes : Nat → List UInt8 → List Char
  | 0, _ => []
  | _ + 1, [] => []
  | fuel + 1, b :: bytes => match firstChar? (b :: bytes) with
    | some (c, n) => c :: charsOfBytes fuel (bytes.drop (n - 1))
    | none => '�' :: charsOfBytes fuel bytes

/-- The text of some bytes. -/
def textOfBytes (bytes : List UInt8) : String := String.ofList (charsOfBytes bytes.length bytes)

end Overlap.Text
