/-
  Blanks and letter case, as far as names are compared with ASCII words.

  * `isBlank` is the white space of all scripts, `trim` removes it at both ends;
  * `lower` maps each character that has an ASCII lower-case form to it.
-/

namespace Overlap.Text

/-- White space in any script. -/
def isBlank (c : Char) : Bool :=
  let n := c.toNat
  (9 ≤ n && n ≤ 13) || n == 0x20 || n == 0x85 || n == 0xA0 || n == 0x1680 ||
    (0x2000 ≤ n && n ≤ 0x200A) || n == 0x2028 || n == 0x2029 || n == 0x202F || n == 0x205F || n == 0x3000

/-- A text without the blanks at its ends. -/
def trim (s : String) : String :=
  String.ofList ((s.toList.dropWhile isBlank).reverse.dropWhile isBlank).reverse

/-- The lower-case form of a character if that is in ASCII: besides the ASCII letters, the dotted
    capital I and the Kelvin sign have one. -/
def lowerChar (c : Char) : Char :=
  if c == '\u0130' then 'i' else if c == '\u212a' then 'k' else c.toLower

/-- A text in lower case, as far as it is compared with ASCII words. -/
def lower (s : String) : String := String.ofList (s.toList.map lowerChar)

end Overlap.Text
