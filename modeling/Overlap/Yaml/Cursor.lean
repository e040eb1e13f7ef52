/-
  Places in a YAML text.

  * `Cursor` is a place in a text: what follows it, and its index, line and
    column;
  * `Gap` is what stands between two words of a scalar: blanks on one line,
    which are kept, or line breaks, which are folded.
-/

namespace Overlap.Yaml

/-- A text that does not follow the grammar of YAML. -/
inductive Malformed where
  | malformed
deriving DecidableEq, Repr

/-- Whether a character ends a line. -/
def isBreak (c : Char) : Bool :=
  c == '\n' || c == '\r' || c == '\u0085' || c == '\u2028' || c == '\u2029'

/-- Whether a character separates words on a line. -/
def isBlank (c : Char) : Bool := c == ' ' || c == '\t'

/-- Whether a character may be part of the name of an anchor or of a tag handle. -/
def isWordChar (c : Char) : Bool := c.isAlphanum || c == '_' || c == '-'

/-- Whether a character may stand in a text at all: control characters may not. -/
def isAllowed (c : Char) : Bool :=
  let n := c.toNat
  n == 0x09 || n == 0x0a || n == 0x0d || (0x20 ≤ n && n ≤ 0x7e) || n == 0x85 ||
    (0xa0 ≤ n && n ≤ 0xd7ff) || (0xe000 ≤ n && n ≤ 0xfffd) || 0x10000 ≤ n

/-- A place in a text. -/
structure Cursor where
  rest : List Char
  index : Nat := 0
  line : Nat := 0
  column : Nat := 0
deriving Repr, Inhabited

namespace Cursor

/-- The character `n` places ahead. -/
def ahead (cur : Cursor) (n : Nat) : Option Char := cur.rest[n]?

/-- The next character. -/
def next (cur : Cursor) : Option Char := cur.rest.head?

/-- Whether the character `n` places ahead is `c`. -/
def sees (cur : Cursor) (c : Char) (n : Nat := 0) : Bool := cur.ahead n == some c

/-- Whether the next character satisfies `p`. -/
def nextIs (cur : Cursor) (p : Char → Bool) : Bool := cur.next.any p

/-- Whether a word ends before the character `n` places ahead: it is a blank or a line break, or
    the text has ended. -/
def wordEnds (cur : Cursor) (n : Nat := 0) : Bool :=
  (cur.ahead n).all fun c => isBlank c || isBreak c

/-- Whether the text has ended. -/
def atEnd (cur : Cursor) : Bool := cur.rest.isEmpty

/-- The place after the next character. -/
def advance (cur : Cursor) : Cursor :=
  { cur with rest := cur.rest.tail, index := cur.index + 1, column := cur.column + 1 }

/-- The place `n` characters later. -/
def advanceBy (cur : Cursor) : Nat → Cursor
  | 0 => cur
  | n + 1 => cur.advance.advanceBy n

/-- The place after a line break; a carriage return and a newline are one break. -/
def nextLine (cur : Cursor) : Cursor :=
  match cur.rest with
  | '\r' :: '\n' :: rest => ⟨rest, cur.index + 2, cur.line + 1, 0⟩
  | c :: rest => if isBreak c then ⟨rest, cur.index + 1, cur.line + 1, 0⟩ else cur
  | [] => cur

/-- What a line break reads as: the separators of lines and paragraphs stand for themselves,
    any other is a newline. -/
def breakText (cur : Cursor) : List Char :=
  match cur.next with
  | some c =>
    if c == '\u2028' || c == '\u2029' then [c] else if isBreak c then ['\n'] else []
  | none => []

/-- The characters that satisfy `p`, and the place after them. -/
def span (cur : Cursor) (p : Char → Bool) : List Char × Cursor :=
  let word := cur.rest.takeWhile p
  (word, cur.advanceBy word.length)

/-- The place after the blanks that follow. -/
def skipBlanks (cur : Cursor) : Cursor := (cur.span isBlank).2

/-- The place before the next line break. -/
def skipToBreak (cur : Cursor) : Cursor := (cur.span fun c => !isBreak c).2

/-- Whether a mark of three characters that separates documents stands at the start of a line. -/
def seesMark (cur : Cursor) (c : Char) : Bool :=
  cur.column == 0 && cur.sees c 0 && cur.sees c 1 && cur.sees c 2 && cur.wordEnds 3

/-- Whether a document starts or ends here. -/
def atDocumentMark (cur : Cursor) : Bool := cur.seesMark '-' || cur.seesMark '.'

end Cursor

/-! ## Gaps -/

/-- What stands between two words of a scalar. -/
structure Gap where
  /-- Whether the gap goes on to another line. -/
  broken : Bool := false
  /-- The blanks of a gap on one line. -/
  blanks : List Char := []
  /-- The first line break. -/
  first : List Char := []
  /-- The other line breaks. -/
  others : List Char := []
deriving Repr, Inhabited

/-- What a gap reads as: one newline becomes a space, the first of several is dropped. -/
def Gap.text (g : Gap) : List Char :=
  if !g.broken then g.blanks
  else match g.first with
    | '\n' :: _ => if g.others.isEmpty then [' '] else g.others
    | _ => g.first ++ g.others

/-- Reads on in a gap.  A tab may not stand left of the column `indent` of a new line. -/
def Gap.scan (indent : Nat) : Nat → Gap → Cursor → Except Malformed (Gap × Cursor)
  | 0, g, cur => .ok (g, cur)
  | fuel + 1, g, cur =>
    if cur.nextIs isBlank then
      if g.broken && cur.column < indent && cur.sees '\t' then .error .malformed
      else
        let kept := if g.broken then g.blanks else g.blanks ++ cur.next.toList
        Gap.scan indent fuel { g with blanks := kept } cur.advance
    else if cur.nextIs isBreak then
      let g' : Gap :=
        if g.broken then { g with others := g.others ++ cur.breakText }
        else { g with broken := true, blanks := [], first := cur.breakText }
      Gap.scan indent fuel g' cur.nextLine
    else .ok (g, cur)

end Overlap.Yaml
