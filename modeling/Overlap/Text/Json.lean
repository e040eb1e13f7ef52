/-
  JSON documents, as they are written.

  * `Json.render` writes a document with each member of a list or an object on
    a line of its own, indented by two blanks per level;
  * `Json.compact` writes it on one line.

  Characters that mean something in a web page are escaped.
-/
import Overlap.Text.Quoted

namespace Overlap.Text

/-- A JSON document; a number carries its own text. -/
inductive Json where
  | null
  | bool (value : Bool)
  | num (text : String)
  | str (s : String)
  | arr (elems : List Json)
  | obj (names : List String) (values : List Json)
deriving Inhabited

namespace Json

/-- A whole number. -/
def int (n : Int) : Json := .num (toString n)

/-- A list that is written as null if it is empty. -/
def listOrNull (xs : List Json) : Json := if xs.isEmpty then .null else .arr xs

/-- An object with the given members. -/
def object (members : List (String × Json)) : Json := .obj (members.map (·.1)) (members.map (·.2))

/-- A character inside a JSON text. -/
def escapeChar (c : Char) : String :=
  if c = '"' then "\\\""
  else if c = '\\' then "\\\\"
  else match c.toNat with
    | 8 => "\\b"
    | 9 => "\\t"
    | 10 => "\\n"
    | 12 => "\\f"
    | 13 => "\\r"
    | n =>
      if n < 0x20 || c = '<' || c = '>' || c = '&' || n = 0x2028 || n = 0x2029
      then "\\u" ++ hex 4 n
      else c.toString

/-- A text in quotes. -/
def quoteText (s : String) : String := "\"" ++ String.join (s.toList.map escapeChar) ++ "\""

/-- Lines inside brackets, each indented one level more than the brackets. -/
def bracketed (indent open' close' : String) (lines : List String) : String :=
  if lines.isEmpty then open' ++ close'
  else open' ++ "\n" ++ ",\n".intercalate (lines.map fun l => indent ++ "  " ++ l) ++ "\n" ++
    indent ++ close'

mutual

/-- The text of a document at a level of indentation. -/
def renderAt (indent : String) : Json → String
  | .null => "null"
  | .bool b => if b then "true" else "false"
  | .num t => t
  | .str s => quoteText s
  | .arr xs => bracketed indent "[" "]" (renderAll (indent ++ "  ") xs)
  | .obj ns vs => bracketed indent "\x7b" "\x7d"
      (ns.zipWith (fun n v => quoteText n ++ ": " ++ v) (renderAll (indent ++ "  ") vs))

/-- The texts of the members of a list. -/
def renderAll (indent : String) : List Json → List String
  | [] => []
  | x :: xs => renderAt indent x :: renderAll indent xs

end

/-- The text of a document, with a line break at the end. -/
def render (j : Json) : String := renderAt "" j ++ "\n"

mutual

/-- The text of a document on one line. -/
def compact : Json → String
  | .null => "null"
  | .bool b => if b then "true" else "false"
  | .num t => t
  | .str s => quoteText s
  | .arr xs => "[" ++ ",".intercalate (compactAll xs) ++ "]"
  | .obj ns vs =>
    "\x7b" ++ ",".intercalate (ns.zipWith (fun n v => quoteText n ++ ":" ++ v) (compactAll vs)) ++ "\x7d"

/-- The texts of the members of a list, each on one line. -/
def compactAll : List Json → List String
  | [] => []
  | x :: xs => compact x :: compactAll xs

end

end Json

end Overlap.Text
