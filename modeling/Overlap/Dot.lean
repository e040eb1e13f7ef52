/-
  Graph drawings in the DOT language.

  A `Dot.Drawing` is a list of nodes and a list of edges with attributes.
  `Dot.Drawing.text` writes the nodes by number and the edges by their ends.
  Names and values are quoted unless they are identifiers, numerals, quoted
  texts or markup (`Dot.ident`).
-/
import Overlap.Text.Quoted

namespace Overlap.Dot

open Text

/-! ## Identifiers -/

/-- Whether a character is a letter of an identifier. -/
def isIdentLetter (c : Char) : Bool :=
  c.isAlpha || c == '_' || (0x80 ≤ c.toNat && c.toNat ≤ 0xff)

/-- Letters, digits and underscores, a digit not being first. -/
def isIdentifier (s : String) : Bool :=
  match s.toList with
  | [] => false
  | c :: cs => isIdentLetter c && cs.all fun c => isIdentLetter c || c.isDigit

/-- An optional minus sign, then digits with at most one point and at least one digit. -/
def isNumeral (s : String) : Bool :=
  let cs := match s.toList with
    | '-' :: cs => cs
    | cs => cs
  let whole := cs.takeWhile Char.isDigit
  match cs.dropWhile Char.isDigit with
  | [] => !whole.isEmpty
  | '.' :: frac => frac.all Char.isDigit && !(whole.isEmpty && frac.isEmpty)
  | _ => false

/-- The number that a run of hexadecimal digits stands for, if the first `n` characters are
    such, and what follows. -/
def hexDigits? (n : Nat) (cs : List Char) : Option (Nat × List Char) :=
  if n ≤ cs.length then (hexNumber? (cs.take n)).map (·, cs.drop n) else none

/-- Whether a number is a character. -/
def isCodePoint (n : Nat) : Bool := n < 0xd800 || (0xe000 ≤ n && n < 0x110000)

/-- What follows a backslash escape, if it is a valid one. -/
def afterEscape? : List Char → Option (List Char)
  | 'x' :: cs => (hexDigits? 2 cs).map (·.2)
  | 'u' :: cs => (hexDigits? 4 cs).bind fun (n, rest) => if isCodePoint n then some rest else none
  | 'U' :: cs => (hexDigits? 8 cs).bind fun (n, rest) => if isCodePoint n then some rest else none
  | c :: cs =>
    if "abfnrtv\\\"".toList.contains c then some cs
    else match c :: cs with
      | a :: b :: d :: rest =>
        let octal := fun (c : Char) => '0' ≤ c && c ≤ '7'
        if octal a && octal b && octal d && a ≤ '3' then some rest else none
      | _ => none
  | [] => none

/-- Whether characters are the inside of a quoted text and its closing quote. -/
def isQuotedRest : Nat → List Char → Bool
  | 0, _ => false
  | fuel + 1, cs => match cs with
    | ['"'] => true
    | '\\' :: rest => match afterEscape? rest with
      | some rest => isQuotedRest fuel rest
      | none => false
    | c :: rest => c != '"' && c != '\n' && isQuotedRest fuel rest
    | [] => false

/-- Whether a text is in quotes, with valid escapes only. -/
def isQuoted (s : String) : Bool :=
  match s.toList with
  | '"' :: rest => isQuotedRest rest.length rest
  | _ => false

/-- Whether a text is markup: between angle brackets. -/
def isMarkup (s : String) : Bool := 2 ≤ s.length && s.startsWith "<" && s.endsWith ">"

/-- The words of the language, which are not identifiers in whichever case they are written. -/
def isKeyword (s : String) : Bool :=
  let folded := String.ofList (s.toList.map fun c => if c = 'ſ' then 's' else c.toLower)
  ["node", "edge", "graph", "digraph", "subgraph", "strict"].contains folded

/-- A name or value, quoted if it has to be. -/
def ident (s : String) : String :=
  if !isKeyword s && (isIdentifier s || isNumeral s || isQuoted s || isMarkup s) then s else quote s

/-! ## Drawings -/

/-- An attribute. -/
structure Attr where
  key : String
  value : String
deriving DecidableEq, Repr

/-- A node of a drawing. -/
structure Node where
  id : Nat
  attrs : List Attr
deriving DecidableEq, Repr

/-- An edge of a drawing. -/
structure Edge where
  source : Nat
  target : Nat
  attrs : List Attr
deriving DecidableEq, Repr

/-- A directed graph without self edges, with attributes for the whole graph. -/
structure Drawing where
  name : String
  attrs : List Attr
  nodes : List Node
  edges : List Edge
deriving DecidableEq, Repr

/-- The text of an attribute. -/
def Attr.text (a : Attr) : String := ident a.key ++ "=" ++ ident a.value

/-- Attributes on lines of their own between brackets. -/
def attrLines (attrs : List Attr) : String :=
  "[\n" ++ String.join (attrs.map fun a => "    " ++ a.text ++ "\n") ++ "  ]"

/-- The attributes of a node or an edge: a single one stands on the same line. -/
def attrText : List Attr → String
  | [] => ""
  | [a] => " [" ++ a.text ++ "]"
  | attrs => " " ++ attrLines attrs

/-- The text of a drawing; nodes are boxes. -/
def Drawing.text (d : Drawing) : String :=
  let nodes := d.nodes.mergeSort fun a b => decide (a.id ≤ b.id)
  let edges := d.edges.mergeSort fun a b =>
    decide (a.source < b.source) || (a.source == b.source && decide (a.target ≤ b.target))
  "strict digraph " ++ ident d.name ++ " \x7b\n  graph " ++ attrLines d.attrs ++ ";\n  node " ++
    attrLines [⟨"shape", "box"⟩] ++ ";\n\n" ++
  (if nodes.isEmpty then "" else "  // Node definitions.\n" ++
    String.join (nodes.map fun n => "  " ++ toString n.id ++ attrText n.attrs ++ ";\n")) ++
  (if edges.isEmpty then "" else "\n  // Edge definitions.\n" ++
    String.join (edges.map fun e =>
      "  " ++ toString e.source ++ " -> " ++ toString e.target ++ attrText e.attrs ++ ";\n")) ++
  "\x7d\n"

end Overlap.Dot
