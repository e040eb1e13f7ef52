/-
  The words of a Go source file.

  * `Token` is a word with the lines it stands on;
  * `tokens` splits a text, without its comments; a semicolon is implied at the
    end of a line that can end a statement;
  * a text with a word that does not exist, such as a string without end, is
    `Malformed`.
-/

namespace Overlap.Source

/-- A source that does not have the form of a program. -/
inductive Malformed where
  | malformed
deriving DecidableEq, Repr

/-- The kind of a word. -/
inductive TokenKind where
  | name | literal | keyword | symbol
  /-- A semicolon, written or implied. -/
  | semicolon
deriving DecidableEq, Repr, Inhabited

/-- A word of a source: its text, the lines on which it starts and ends, and the number of
    characters before it on the first of them. -/
structure Token where
  kind : TokenKind
  text : String
  line : Nat
  lastLine : Nat
  column : Nat
deriving Repr, Inhabited

/-- The words with a fixed meaning. -/
def keywords : List String := ["break", "case", "chan", "const", "continue", "default", "defer", "else",
  "fallthrough", "for", "func", "go", "goto", "if", "import", "interface", "map", "package", "range",
  "return", "select", "struct", "switch", "type", "var"]

/-- The symbols, longer ones before their beginnings. -/
def symbols : List String := ["<<=", ">>=", "&^=", "...", "<<", ">>", "&^", "+=", "-=", "*=", "/=", "%=",
  "&=", "|=", "^=", "&&", "||", "<-", "++", "--", "==", "!=", "<=", ">=", ":=", "+", "-", "*", "/", "%",
  "&", "|", "^", "<", ">", "=", "!", "~", "(", "[", "\x7b", ",", ".", ")", "]", "\x7d", ":"]

/-- Whether a line that ends after a word ends a statement. -/
def Token.endsStatement (t : Token) : Bool :=
  match t.kind with
  | .name | .literal => true
  | .keyword => ["break", "continue", "fallthrough", "return"].contains t.text
  | .symbol => ["++", "--", ")", "]", "\x7d"].contains t.text
  | .semicolon => false

/-! ## Characters -/

/-- A letter; all characters outside ASCII count as letters. -/
def isLetter (c : Char) : Bool := c.isAlpha || c == '_' || 0x80 ≤ c.toNat

/-- A hexadecimal digit. -/
def isHexDigit (c : Char) : Bool := c.isDigit || ('a' ≤ c && c ≤ 'f') || ('A' ≤ c && c ≤ 'F')

/-- The value of a hexadecimal digit. -/
def hexValue (c : Char) : Nat :=
  if c.isDigit then c.toNat - '0'.toNat else c.toLower.toNat - 'a'.toNat + 10

/-- The start of a text up to a marker and the rest after it; none without a marker. -/
def splitAfter (marker : List Char) : List Char → Option (List Char × List Char)
  | [] => if marker.isEmpty then some ([], []) else none
  | c :: cs =>
    if marker.isPrefixOf (c :: cs) then some (marker, (c :: cs).drop marker.length)
    else (splitAfter marker cs).map fun (a, b) => (c :: a, b)

/-! ## Numbers -/

/-- The digits of a number and the underscores between them. -/
def digitsOf (isDigit : Char → Bool) (cs : List Char) : List Char :=
  cs.takeWhile fun c => isDigit c || c == '_'

/-- Whether each underscore stands between digits, or after a base mark. -/
def wellSeparated (digits : List Char) (afterBase : Bool) : Bool :=
  let marked := if afterBase then '0' :: digits else digits
  marked.head? != some '_' && marked.getLast? != some '_' &&
    !(marked.zip (marked.drop 1)).any fun p => p.1 == '_' && p.2 == '_'

/-- The length of an exponent; none if its digits are missing. -/
def exponentLength (cs : List Char) : Option Nat :=
  let sign := (cs.drop 1).takeWhile (fun c => c == '+' || c == '-') |>.take 1
  let digits := digitsOf Char.isDigit (cs.drop (1 + sign.length))
  if digits.isEmpty || !wellSeparated digits false then none
  else some (1 + sign.length + digits.length)

/-- The length of the number at the start of a text; none if it is malformed. -/
def numberLength (cs : List Char) : Option Nat := do
  let mark := ((cs.drop 1).head?.map Char.toLower).getD ' '
  let based := cs.head? == some '0' && (mark == 'x' || mark == 'o' || mark == 'b')
  let isHex := based && mark == 'x'
  let start := if based then 2 else 0
  let isDigit := if isHex then isHexDigit else Char.isDigit
  let whole := digitsOf isDigit (cs.drop start)
  let afterWhole := cs.drop (start + whole.length)
  let isFraction := afterWhole.head? == some '.'
  let part := if isFraction then digitsOf isDigit (afterWhole.drop 1) else []
  let dotted := if isFraction then 1 + part.length else 0
  let afterPart := afterWhole.drop dotted
  let power := (afterPart.head?.map Char.toLower).getD ' '
  let hasPower := power == 'p' || (power == 'e' && !isHex)
  let exponent ← if hasPower then exponentLength afterPart else some 0
  let afterExponent := afterPart.drop exponent
  let imaginary := afterExponent.head? == some 'i'
  let isFloat := isFraction || hasPower
  if whole.isEmpty && part.isEmpty then none
  if !whole.isEmpty && !wellSeparated whole based then none
  if !part.isEmpty && !wellSeparated part false then none
  if based && !isHex && (isFloat || whole.any fun c => c != '_' && (if mark == 'b' then '1' else '7') < c) then none
  if isHex && isFraction && power != 'p' then none
  if !isHex && power == 'p' then none
  -- a whole number that starts with zero is octal
  if !based && !isFloat && !imaginary && whole.head? == some '0' && whole.any fun c => '8' ≤ c && c ≤ '9' then none
  return start + whole.length + dotted + exponent + (if imaginary then 1 else 0)

/-! ## Strings -/

/-- The length of the escape at the start of a text, after its backslash; none if it is none. -/
def escapeLength (quote : Char) (cs : List Char) : Option Nat :=
  let digits (n base limit : Nat) (start : Nat) : Option Nat :=
    let ds := (cs.drop start).take n
    let value := ds.foldl (fun v c => base * v + hexValue c) 0
    if ds.length == n && ds.all (fun c => isHexDigit c && hexValue c < base) && value ≤ limit &&
        !(0xD800 ≤ value && value < 0xE000) then
      some (start + n)
    else none
  match cs with
  | c :: _ =>
    if ['a', 'b', 'f', 'n', 'r', 't', 'v', '\\', quote].contains c then some 1
    else if c == 'x' then digits 2 16 255 1
    else if c == 'u' then digits 4 16 0x10FFFF 1
    else if c == 'U' then digits 8 16 0x10FFFF 1
    else if '0' ≤ c && c ≤ '7' then digits 3 8 255 0
    else none
  | [] => none

/-- The number of characters of a quoted text up to its quote, and how many they stand for; at
    most `fuel` of them. -/
def quotedLength (quote : Char) : Nat → List Char → Option (Nat × Nat)
  | 0, _ => none
  | _, [] => none
  | fuel + 1, c :: cs =>
    if c == quote then some (1, 0)
    else if c == '\n' then none
    else if c == '\\' then do
      let n ← escapeLength quote cs
      let (m, k) ← quotedLength quote fuel (cs.drop n)
      return (1 + n + m, k + 1)
    else do
      let (m, k) ← quotedLength quote fuel cs
      return (1 + m, k + 1)

/-! ## Words -/

/-- The kind and the length of the word at the start of a text. -/
def wordAt (cs : List Char) : Option (TokenKind × Nat) :=
  match cs with
  | [] => none
  | c :: rest =>
    if isLetter c && c != '\ufeff' then
      let word := cs.takeWhile fun c => isLetter c || c.isDigit
      some (if keywords.contains (String.ofList word) then .keyword else .name, word.length)
    else if c.isDigit || (c == '.' && rest.head?.any Char.isDigit) then
      (numberLength cs).map fun n => (.literal, n)
    else if c == '"' then
      (quotedLength '"' (rest.length + 1) rest).map fun (n, _) => (.literal, 1 + n)
    else if c == '\'' then
      (quotedLength '\'' (rest.length + 1) rest).bind fun (n, k) =>
        if k == 1 then some (.literal, 1 + n) else none
    else if c == '\x60' then
      (splitAfter ['\x60'] rest).map fun (text, _) => (.literal, 1 + text.length)
    else if c == ';' then some (.semicolon, 1)
    else (symbols.find? fun s => s.toList.isPrefixOf cs).map fun s => (.symbol, s.length)

/-- A place in a source. -/
structure Place where
  line : Nat
  column : Nat

/-- The place after some characters. -/
def Place.after (p : Place) (cs : List Char) : Place :=
  cs.foldl (fun p c => if c == '\n' then ⟨p.line + 1, 0⟩ else ⟨p.line, p.column + 1⟩) p

/-- A semicolon that is implied at a place, if a statement can end there. -/
def impliedAt (previous : Option Token) (p : Place) : List Token :=
  if previous.any Token.endsStatement then [⟨.semicolon, ";", p.line, p.line, p.column⟩] else []

/-- The words of a text, where `previous` is the word before; each step uses a unit of fuel and
    at least one character. -/
def tokensFrom : Nat → Option Token → Place → List Char → Except Malformed (List Token)
  | 0, _, _, _ => .error .malformed
  | fuel + 1, previous, p, cs =>
    let skip (skipped rest : List Char) (ends : Bool) : Except Malformed (List Token) :=
      let p' := p.after skipped
      if ends then (tokensFrom fuel none p' rest).map (impliedAt previous p ++ ·)
      else tokensFrom fuel previous p' rest
    match cs with
    | [] => .ok (impliedAt previous p)
    | '\n' :: rest => skip ['\n'] rest true
    | ' ' :: rest => skip [' '] rest false
    | '\t' :: rest => skip ['\t'] rest false
    | '\r' :: rest => skip ['\r'] rest false
    | '/' :: '/' :: rest =>
      let text := rest.takeWhile (· != '\n')
      skip ('/' :: '/' :: text) (rest.drop text.length) false
    | '/' :: '*' :: rest => match splitAfter ['*', '/'] rest with
      | none => .error .malformed
      | some (text, rest) => skip ('/' :: '*' :: text) rest (text.contains '\n')
    | cs => match wordAt cs with
      | none => .error .malformed
      | some (kind, n) =>
        let text := cs.take n
        let p' := p.after text
        let token : Token := ⟨kind, String.ofList text, p.line, p'.line, p.column⟩
        (tokensFrom fuel (some token) p' (cs.drop n)).map (token :: ·)

/-- The words of a source. -/
def tokens (source : String) : Except Malformed (List Token) :=
  let cs := source.toList
  -- a byte order mark may come first
  let cs := if cs.head? == some '\ufeff' then cs.drop 1 else cs
  tokensFrom (cs.length + 1) none ⟨1, 0⟩ cs

end Overlap.Source
