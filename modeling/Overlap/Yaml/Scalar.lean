/-
  The texts of scalars.

  A scalar is written plainly, between single or double quotes, or as a block
  of indented lines that are kept (`|`) or folded (`>`).  Each reader starts
  at a cursor and gives the text and the place after it.

  * `plain`, `quoted` and `block` read the three forms.
-/
import Overlap.Text.Hex
import Overlap.Yaml.Cursor

namespace Overlap.Yaml

/-! ## Plain scalars -/

/-- Whether a plain word ends here: before a colon that ends a word, and inside brackets also
    before their punctuation. -/
def plainWordStops (inFlow : Bool) (cur : Cursor) : Bool :=
  (cur.sees ':' && cur.wordEnds 1) ||
    (inFlow && cur.nextIs fun c =>
      c == ',' || c == '?' || c == '[' || c == ']' || c == '{' || c == '}')

/-- A word of a plain scalar, in reverse. -/
def plainWord (inFlow : Bool) : Nat → List Char → Cursor → List Char × Cursor
  | 0, word, cur => (word, cur)
  | fuel + 1, word, cur =>
    if cur.wordEnds || plainWordStops inFlow cur then (word, cur)
    else plainWord inFlow fuel (cur.next.toList ++ word) cur.advance

/-- A scalar that has been read. -/
structure ScalarText where
  text : List Char
  /-- Whether the place after the scalar is on a later line than its end. -/
  broken : Bool := false
  after : Cursor
deriving Inhabited

/-- Reads the words and gaps of a plain scalar, whose lines are indented by at least `indent`. -/
def plainFrom (inFlow : Bool) (indent : Nat) :
    Nat → List Char → Gap → Cursor → Except Malformed ScalarText
  | 0, text, gap, cur => .ok ⟨text, gap.broken, cur⟩
  | fuel + 1, text, gap, cur =>
    if cur.atDocumentMark || cur.sees '#' then .ok ⟨text, gap.broken, cur⟩
    else
      let (word, cur) := plainWord inFlow cur.rest.length [] cur
      let (text, gap) :=
        if word.isEmpty then (text, gap) else (text ++ gap.text ++ word.reverse, ({} : Gap))
      if cur.atEnd || !cur.wordEnds then .ok ⟨text, gap.broken, cur⟩
      else match Gap.scan indent (cur.rest.length + 1) gap cur with
        | .error e => .error e
        | .ok (gap, cur) =>
          if !inFlow && cur.column < indent then .ok ⟨text, gap.broken, cur⟩
          else plainFrom inFlow indent fuel text gap cur

/-- A plain scalar. -/
def plain (inFlow : Bool) (indent : Nat) (cur : Cursor) : Except Malformed ScalarText :=
  plainFrom inFlow indent (cur.rest.length + 1) [] {} cur

/-! ## Quoted scalars -/

/-- The character that an escape of one letter stands for. -/
def shortEscape? : Char → Option Char
  | '0' => some '\x00'
  | 'a' => some '\x07'
  | 'b' => some '\x08'
  | 't' => some '\t'
  | '\t' => some '\t'
  | 'n' => some '\n'
  | 'v' => some '\x0b'
  | 'f' => some '\x0c'
  | 'r' => some '\r'
  | 'e' => some '\x1b'
  | ' ' => some ' '
  | '"' => some '"'
  | '\'' => some '\''
  | '\\' => some '\\'
  | 'N' => some '\u0085'
  | '_' => some '\u00a0'
  | 'L' => some '\u2028'
  | 'P' => some '\u2029'
  | _ => none

/-- The number of digits of an escape that gives a character by its number. -/
def escapeWidth? : Char → Option Nat
  | 'x' => some 2
  | 'u' => some 4
  | 'U' => some 8
  | _ => none

/-- The character of an escape after its backslash, and the place after it. -/
def escape (cur : Cursor) : Except Malformed (Char × Cursor) :=
  match cur.next with
  | none => .error .malformed
  | some c =>
    match shortEscape? c, escapeWidth? c with
    | some d, _ => .ok (d, cur.advance)
    | none, none => .error .malformed
    | none, some width =>
      let digits := cur.rest.tail.take width
      match Text.hexNumber? digits with
      | some n =>
        if digits.length == width && n.isValidChar then
          .ok (Char.ofNat n, cur.advanceBy (width + 1))
        else .error .malformed
      | none => .error .malformed

/-- The part of a quoted scalar up to the next blank, line break or closing quote, in reverse,
    and whether it ends in an escaped line break. -/
def quotedWord (single : Bool) : Nat → List Char → Cursor → Except Malformed (List Char × Bool × Cursor)
  | 0, word, cur => .ok (word, false, cur)
  | fuel + 1, word, cur =>
    if cur.wordEnds then .ok (word, false, cur)
    else if single then
      if cur.sees '\'' then
        if cur.sees '\'' 1 then quotedWord single fuel ('\'' :: word) (cur.advanceBy 2)
        else .ok (word, false, cur)
      else quotedWord single fuel (cur.next.toList ++ word) cur.advance
    else if cur.sees '"' then .ok (word, false, cur)
    else if cur.sees '\\' then
      if (cur.ahead 1).any isBreak then .ok (word, true, cur.advance.nextLine)
      else match escape cur.advance with
        | .error e => .error e
        | .ok (c, cur) => quotedWord single fuel (c :: word) cur
    else quotedWord single fuel (cur.next.toList ++ word) cur.advance

/-- Reads the words and gaps of a quoted scalar up to the closing quote. -/
def quotedFrom (single : Bool) : Nat → List Char → Cursor → Except Malformed ScalarText
  | 0, _, _ => .error .malformed
  | fuel + 1, text, cur =>
    if cur.atDocumentMark || cur.atEnd then .error .malformed
    else match quotedWord single (cur.rest.length + 1) [] cur with
      | .error e => .error e
      | .ok (word, broken, cur) =>
        let text := text ++ word.reverse
        if !broken && cur.sees (if single then '\'' else '"') then .ok ⟨text, false, cur.advance⟩
        else match Gap.scan 0 (cur.rest.length + 1) { broken } cur with
          | .error e => .error e
          | .ok (gap, cur) => quotedFrom single fuel (text ++ gap.text) cur

/-- A quoted scalar; the cursor is at its opening quote. -/
def quoted (single : Bool) (cur : Cursor) : Except Malformed ScalarText :=
  quotedFrom single (cur.rest.length + 1) [] cur.advance

/-! ## Block scalars -/

/-- What happens to the line breaks at the end of a block. -/
inductive Chomp where
  | strip
  | clip
  | keep
deriving DecidableEq, Repr

/-- The chomping indicator at the cursor. -/
def chompAt (cur : Cursor) : Option Chomp :=
  if cur.sees '+' then some .keep else if cur.sees '-' then some .strip else none

/-- The indentation indicator at the cursor, which may not be zero. -/
def indentAt (cur : Cursor) : Except Malformed (Option Nat) :=
  match cur.next with
  | some c =>
    if c == '0' then .error .malformed
    else if c.isDigit then .ok (some (c.toNat - '0'.toNat))
    else .ok none
  | none => .ok none

/-- The indicators of a block, in either order. -/
def blockHeader (cur : Cursor) : Except Malformed (Chomp × Option Nat × Cursor) := do
  match chompAt cur with
  | some chomp =>
    match ← indentAt cur.advance with
    | some n => return (chomp, some n, cur.advanceBy 2)
    | none => return (chomp, none, cur.advance)
  | none =>
    match ← indentAt cur with
    | some n =>
      match chompAt cur.advance with
      | some chomp => return (chomp, some n, cur.advanceBy 2)
      | none => return (.clip, some n, cur.advance)
    | none => return (.clip, none, cur)

/-- Reads the indentation of the next line with text, and the line breaks before it.  While the
    indentation of the block is unknown (`none`) it is found: the largest of these lines. -/
def blockBreaks (indent : Option Nat) :
    Nat → Nat → List Char → Cursor → Except Malformed (Nat × List Char × Cursor)
  | 0, largest, breaks, cur => .ok (largest, breaks, cur)
  | fuel + 1, largest, breaks, cur =>
    let limit := indent.getD (cur.column + cur.rest.length)
    let cur := cur.advanceBy ((cur.rest.takeWhile (· == ' ')).take (limit - cur.column)).length
    let largest := max largest cur.column
    if cur.sees '\t' && indent.all (cur.column < ·) then .error .malformed
    else if cur.nextIs isBreak then
      blockBreaks indent fuel largest (breaks ++ cur.breakText) cur.nextLine
    else .ok (largest, breaks, cur)

/-- The lines of a block that have been read. -/
structure BlockLines where
  text : List Char := []
  /-- The break after the last line with text. -/
  lastBreak : List Char := []
  /-- The breaks after that one. -/
  breaks : List Char := []
  /-- Whether the last line with text starts with a blank. -/
  startsBlank : Bool := false
deriving Inhabited

/-- What joins the next line to the text before it: in a folded block a newline between two
    lines that do not start with a blank is a space, and is dropped before an empty line. -/
def BlockLines.joint (literal : Bool) (b : BlockLines) (nextBlank : Bool) : List Char :=
  if !literal && !b.startsBlank && !nextBlank && b.lastBreak.head? == some '\n' then
    if b.breaks.isEmpty then [' '] else b.breaks
  else b.lastBreak ++ b.breaks

/-- Reads the lines of a block that are indented by `indent`. -/
def blockLines (literal : Bool) (indent : Nat) :
    Nat → BlockLines → Cursor → Except Malformed (BlockLines × Cursor)
  | 0, b, cur => .ok (b, cur)
  | fuel + 1, b, cur =>
    if cur.column != indent || cur.atEnd then .ok (b, cur)
    else
      let blank := cur.nextIs isBlank
      let (line, cur') := cur.span fun c => !isBreak c
      let text := b.text ++ b.joint literal blank ++ line
      match blockBreaks (some indent) (cur'.rest.length + 1) 0 [] cur'.nextLine with
      | .error e => .error e
      | .ok (_, breaks, cur'') =>
        blockLines literal indent fuel ⟨text, cur'.breakText, breaks, blank⟩ cur''

/-- A block scalar; the cursor is at `|` or `>`, inside a collection indented by `outer`. -/
def block (literal : Bool) (outer : Int) (cur : Cursor) : Except Malformed ScalarText := do
  let (chomp, increment, cur) ← blockHeader cur.advance
  let cur := cur.skipBlanks
  let cur := if cur.sees '#' then cur.skipToBreak else cur
  if !(cur.atEnd || cur.nextIs isBreak) then throw .malformed
  let cur := cur.nextLine
  let given := increment.map fun n => (max outer 0).toNat + n
  let (largest, breaks, cur) ← blockBreaks given (cur.rest.length + 1) 0 [] cur
  let indent := given.getD (max largest (max (outer + 1).toNat 1))
  let (b, cur) ← blockLines literal indent (cur.rest.length + 1) { breaks } cur
  let tail := match chomp with
    | .strip => []
    | .clip => b.lastBreak
    | .keep => b.lastBreak ++ b.breaks
  return ⟨b.text ++ tail, false, cur⟩

end Overlap.Yaml
