/-
  Tokens of a YAML text.

  The indentation of a text is turned into tokens that open and close block
  collections.  A key of one line is only known to be one when its colon is
  found, so its place among the tokens is remembered (`KeyStart`) until then.

  * `tokens` reads the tokens of a text, up to the first that is malformed.
-/
import Overlap.Yaml.Scalar

namespace Overlap.Yaml

/-- The kinds of tokens. -/
inductive TokenKind where
  | version (major minor : String)
  | tagHandle (handle expansion : String)
  | documentStart
  | documentEnd
  | streamEnd
  | blockSequenceStart
  | blockMappingStart
  | blockEnd
  | flowSequenceStart
  | flowSequenceEnd
  | flowMappingStart
  | flowMappingEnd
  | blockEntry
  | flowEntry
  | key
  | value
  | alias (name : String)
  | anchor (name : String)
  | tag (handle suffix : String)
  | scalar (text : String) (isPlain : Bool)
deriving DecidableEq, Repr, Inhabited

/-- A token, with the lines on which it starts and ends. -/
structure Token where
  kind : TokenKind
  line : Nat
  endLine : Nat
deriving DecidableEq, Repr, Inhabited

/-- A place where a key may have started. -/
structure KeyStart where
  /-- Whether nothing but a key may stand there. -/
  required : Bool
  /-- The number of tokens before the key. -/
  token : Nat
  index : Nat
  line : Nat
  column : Nat
deriving Repr

/-- What is known while tokens are read. -/
structure Lexer where
  cursor : Cursor
  /-- The tokens so far. -/
  tokens : Array Token := #[]
  /-- The column of the innermost block collection, and those of the collections around it. -/
  indent : Int := -1
  outer : List Int := []
  /-- Whether a key may start here. -/
  keyAllowed : Bool := true
  /-- The possible key of the innermost flow collection or of the block. -/
  keyStart : Option KeyStart := none
  /-- Those of the collections around it; their number is the depth of flow collections. -/
  outerKeys : List (Option KeyStart) := []
deriving Inhabited

namespace Lexer

/-- Whether the cursor is inside brackets. -/
def inFlow (s : Lexer) : Bool := !s.outerKeys.isEmpty

/-- Adds a token that starts at the cursor and ends at `after`. -/
def push (s : Lexer) (kind : TokenKind) (after : Cursor) : Lexer :=
  { s with cursor := after, tokens := s.tokens.push ⟨kind, s.cursor.line, after.line⟩ }

/-- Inserts a token before the token number `n`. -/
def insert (s : Lexer) (n : Nat) (token : Token) : Lexer :=
  { s with tokens := (s.tokens.toList.take n ++ token :: s.tokens.toList.drop n).toArray }

/-- Gives up the possible key, unless it is required. -/
def dropKey (s : Lexer) : Except Malformed Lexer :=
  if s.keyStart.any (·.required) then .error .malformed else .ok { s with keyStart := none }

/-- Remembers that a key may start at the cursor. -/
def saveKey (s : Lexer) : Except Malformed Lexer := do
  if !s.keyAllowed then return s
  let required := !s.inFlow && s.indent == s.cursor.column
  let s ← s.dropKey
  let cur := s.cursor
  return { s with keyStart := some ⟨required, s.tokens.size, cur.index, cur.line, cur.column⟩ }

/-- Opens a block collection at `column`, if that is to the right of the innermost one. -/
def openBlock (s : Lexer) (column : Nat) (n : Nat) (kind : TokenKind) (line : Nat) : Lexer :=
  if s.inFlow || (column : Int) ≤ s.indent then s
  else
    { s.insert n ⟨kind, line, line⟩ with indent := column, outer := s.indent :: s.outer }

/-- Closes the block collections to the right of `column`. -/
def closeBlocksFrom (line : Nat) (column : Int) : List Int → Lexer → Lexer
  | [], s => s
  | up :: outer, s =>
    if s.indent ≤ column then s
    else
      closeBlocksFrom line column outer
        { s with indent := up, outer, tokens := s.tokens.push ⟨.blockEnd, line, line⟩ }

/-- Closes the block collections to the right of `column`. -/
def closeBlocks (s : Lexer) (column : Int) : Lexer :=
  if s.inFlow then s else closeBlocksFrom s.cursor.line column s.outer s

/-- The place of the next token: past blanks, comments and line breaks.  A tab may not stand
    where a key may start. -/
def skipTo : Nat → Lexer → Lexer
  | 0, s => s
  | fuel + 1, s =>
    let cur := (s.cursor.span fun c =>
      c == ' ' || (c == '\t' && (s.inFlow || !s.keyAllowed))).2
    let cur := if cur.sees '#' then cur.skipToBreak else cur
    if cur.nextIs isBreak then
      skipTo fuel { s with cursor := cur.nextLine, keyAllowed := s.keyAllowed || !s.inFlow }
    else { s with cursor := cur }

/-- A token of one character after which no key may start, or one may. -/
def pushMark (s : Lexer) (kind : TokenKind) (width : Nat) (keyAllowed : Bool) : Lexer :=
  { s.push kind (s.cursor.advanceBy width) with keyAllowed }

/-- The start of a flow collection. -/
def openFlow (s : Lexer) (kind : TokenKind) : Except Malformed Lexer := do
  let s ← s.saveKey
  let s := { s with outerKeys := s.keyStart :: s.outerKeys, keyStart := none }
  return s.pushMark kind 1 true

/-- The end of a flow collection. -/
def closeFlow (s : Lexer) (kind : TokenKind) : Except Malformed Lexer := do
  let s ← s.dropKey
  let s := match s.outerKeys with
    | [] => s
    | k :: ks => { s with keyStart := k, outerKeys := ks }
  return s.pushMark kind 1 false

/-- The dash of a block sequence. -/
def blockEntry (s : Lexer) : Except Malformed Lexer := do
  if !s.inFlow && !s.keyAllowed then throw .malformed
  let s := s.openBlock s.cursor.column s.tokens.size .blockSequenceStart s.cursor.line
  let s ← s.dropKey
  return s.pushMark .blockEntry 1 true

/-- The question mark before a key. -/
def explicitKey (s : Lexer) : Except Malformed Lexer := do
  if !s.inFlow && !s.keyAllowed then throw .malformed
  let s := s.openBlock s.cursor.column s.tokens.size .blockMappingStart s.cursor.line
  let s ← s.dropKey
  return s.pushMark .key 1 (!s.inFlow)

/-- The longest distance between the start of a key and its colon. -/
def keyLimit : Nat := 1024

/-- Whether a key that started at `k` can still end at the cursor: it is on one line and not too
    long. -/
def reaches (s : Lexer) (k : KeyStart) : Bool :=
  s.cursor.line ≤ k.line && s.cursor.index ≤ k.index + keyLimit

/-- The colon before a value.  It makes a key of what has been read since a key may have
    started. -/
def valueMark (s : Lexer) : Except Malformed Lexer := do
  match s.keyStart with
  | some k =>
    if s.reaches k then
      let s := s.insert k.token ⟨.key, k.line, k.line⟩
      let s := s.openBlock k.column k.token .blockMappingStart k.line
      return { s.push .value s.cursor.advance with keyStart := none, keyAllowed := false }
    if k.required then throw .malformed
  | none => pure ()
  if !s.inFlow && !s.keyAllowed then throw .malformed
  let s := { s with keyStart := none }
  let s := s.openBlock s.cursor.column s.tokens.size .blockMappingStart s.cursor.line
  return s.pushMark .value 1 (!s.inFlow)

/-- An anchor or an alias. -/
def name (s : Lexer) (kind : String → TokenKind) : Except Malformed Lexer := do
  let s ← s.saveKey
  let (word, cur) := s.cursor.advance.span isWordChar
  let ended := cur.wordEnds || cur.nextIs fun c => "?:,]\x7d%@\x60".toList.contains c
  if word.isEmpty || !ended then throw .malformed
  return { s.push (kind (String.ofList word)) cur with keyAllowed := false }

/-- Whether a character may stand in the suffix of a tag. -/
def isTagChar (c : Char) : Bool := isWordChar c || ";/?:@&=+$,.!~*'()[]%".toList.contains c

/-- The text of a tag suffix, in which a percent sign gives a byte by its number. -/
def unescapeTag : List Char → Except Malformed (List UInt8)
  | [] => .ok []
  | '%' :: a :: b :: rest =>
    match Text.hexNumber? [a, b] with
    | some n => (unescapeTag rest).map (n.toUInt8 :: ·)
    | none => .error .malformed
  | c :: rest =>
    if c == '%' then .error .malformed
    else (unescapeTag rest).map (String.utf8EncodeChar c ++ ·)

/-- The suffix of a tag. -/
def tagSuffix (cs : List Char) : Except Malformed String := do
  match String.fromUTF8? (ByteArray.mk (← unescapeTag cs).toArray) with
  | some text => return text
  | none => throw .malformed

/-- The handle at the start of a tag: an exclamation mark, a word and a second mark if there is
    one. -/
def tagHandle (cur : Cursor) : List Char × Cursor :=
  let (word, cur) := cur.advance.span isWordChar
  if cur.sees '!' then ('!' :: word ++ ['!'], cur.advance) else ('!' :: word, cur)

/-- A tag: `!<suffix>`, `!handle!suffix`, `!suffix` or `!`. -/
def tag (s : Lexer) : Except Malformed Lexer := do
  let s ← s.saveKey
  let (kind, cur) ←
    if s.cursor.sees '<' 1 then do
      let (word, cur) := (s.cursor.advanceBy 2).span isTagChar
      if word.isEmpty || !cur.sees '>' then throw Malformed.malformed
      pure (TokenKind.tag "" (← tagSuffix word), cur.advance)
    else do
      let (handle, cur) := tagHandle s.cursor
      let (word, cur) := cur.span isTagChar
      if handle.length > 1 && handle.getLast? == some '!' then
        if word.isEmpty then throw Malformed.malformed
        pure (TokenKind.tag (String.ofList handle) (← tagSuffix word), cur)
      else
        match handle.tail ++ word with
        | [] => pure (TokenKind.tag "" "!", cur)
        | suffix => pure (TokenKind.tag "!" (← tagSuffix suffix), cur)
  if !cur.wordEnds then throw .malformed
  return { s.push kind cur with keyAllowed := false }

/-- The rest of the line of a directive, which may hold a comment only. -/
def directiveEnd (cur : Cursor) : Except Malformed Cursor := do
  let cur := cur.skipBlanks
  let cur := if cur.sees '#' then cur.skipToBreak else cur
  if !(cur.atEnd || cur.nextIs isBreak) then throw .malformed
  return cur.nextLine

/-- A directive: the version of YAML, or the meaning of a tag handle. -/
def directive (s : Lexer) : Except Malformed Lexer := do
  let s ← (s.closeBlocks (-1)).dropKey
  let (word, cur) := s.cursor.advance.span isWordChar
  if !cur.wordEnds then throw .malformed
  let cur := cur.skipBlanks
  let (kind, cur) ←
    if String.ofList word == "YAML" then do
      let (major, cur) := cur.span Char.isDigit
      let (minor, cur') := cur.advance.span Char.isDigit
      if major.isEmpty || minor.isEmpty || !cur.sees '.' || major.length > 9 || minor.length > 9 then
        throw Malformed.malformed
      pure (TokenKind.version (String.ofList major) (String.ofList minor), cur')
    else if String.ofList word == "TAG" then do
      let (handle, cur) := tagHandle cur
      if handle != ['!'] && handle.getLast? != some '!' then throw Malformed.malformed
      if !cur.nextIs isBlank then throw Malformed.malformed
      let (word, cur) := cur.skipBlanks.span isTagChar
      if word.isEmpty || !cur.wordEnds then throw Malformed.malformed
      pure (TokenKind.tagHandle (String.ofList handle) (← tagSuffix word), cur)
    else throw Malformed.malformed
  let cur ← directiveEnd cur
  return { s.push kind cur with keyAllowed := false }

/-- A mark between documents. -/
def documentMark (s : Lexer) (kind : TokenKind) : Except Malformed Lexer := do
  let s ← (s.closeBlocks (-1)).dropKey
  return s.pushMark kind 3 false

/-- The end of the text. -/
def finish (s : Lexer) : Except Malformed Lexer := do
  let s ← (s.closeBlocks (-1)).dropKey
  return { s.push .streamEnd s.cursor with keyAllowed := false }

/-- A scalar token. -/
def pushScalar (s : Lexer) (r : ScalarText) (isPlain keyAllowed : Bool) : Lexer :=
  { s.push (.scalar (String.ofList r.text) isPlain) r.after with keyAllowed }

/-- A block scalar. -/
def blockScalar (s : Lexer) (literal : Bool) : Except Malformed Lexer := do
  let s ← s.dropKey
  return s.pushScalar (← block literal s.indent s.cursor) false true

/-- A quoted scalar. -/
def quotedScalar (s : Lexer) (single : Bool) : Except Malformed Lexer := do
  let s ← s.saveKey
  return s.pushScalar (← quoted single s.cursor) false false

/-- A plain scalar; a key may follow it on a later line. -/
def plainScalar (s : Lexer) : Except Malformed Lexer := do
  let s ← s.saveKey
  let r ← plain s.inFlow (s.indent + 1).toNat s.cursor
  return s.pushScalar r true r.broken

/-- Whether a plain scalar may start with a character, in front of anything. -/
def startsPlain (c : Char) : Bool :=
  !(isBlank c || isBreak c || "-?:,[]\x7b\x7d#&*!|>'\"%@\x60".toList.contains c)

/-- Reads the next token at the character `c`. -/
def tokenAt (s : Lexer) (c : Char) : Except Malformed Lexer :=
  let cur := s.cursor
  let spaced := cur.wordEnds 1
  if cur.column == 0 && c == '%' then s.directive
  else if cur.seesMark '-' then s.documentMark .documentStart
  else if cur.seesMark '.' then s.documentMark .documentEnd
  else if c == '[' then s.openFlow .flowSequenceStart
  else if c == '{' then s.openFlow .flowMappingStart
  else if c == ']' then s.closeFlow .flowSequenceEnd
  else if c == '}' then s.closeFlow .flowMappingEnd
  else if c == ',' then do return (← s.dropKey).pushMark .flowEntry 1 true
  else if c == '-' && spaced then s.blockEntry
  else if c == '?' && (s.inFlow || spaced) then s.explicitKey
  else if c == ':' && (s.inFlow || spaced) then s.valueMark
  else if c == '*' then s.name .alias
  else if c == '&' then s.name .anchor
  else if c == '!' then s.tag
  else if c == '|' && !s.inFlow then s.blockScalar true
  else if c == '>' && !s.inFlow then s.blockScalar false
  else if c == '\'' then s.quotedScalar true
  else if c == '"' then s.quotedScalar false
  else if startsPlain c || (c == '-' && !spaced) ||
      (!s.inFlow && (c == '?' || c == ':') && !spaced) then s.plainScalar
  else .error .malformed

/-- Reads the next token. -/
def step (s : Lexer) : Except Malformed Lexer :=
  let s := skipTo (s.cursor.rest.length + 1) s
  let s := s.closeBlocks s.cursor.column
  match s.cursor.next with
  | none => s.finish
  | some c => s.tokenAt c

/-- Reads tokens to the end of the text, or to the first that is malformed; whether there is
    one. -/
def run : Nat → Lexer → Array Token × Bool
  | 0, s => (s.tokens, true)
  | fuel + 1, s =>
    match s.step with
    | .error _ => (s.tokens, true)
    | .ok s' => if s'.tokens.back?.any (·.kind == .streamEnd) then (s'.tokens, false) else run fuel s'

end Lexer

/-- The tokens of a text. -/
structure Tokens where
  items : Array Token
  /-- Whether the text goes on with something that is no token. -/
  broken : Bool
deriving Inhabited

/-- Reads the tokens of a text.  A byte order mark at its start is skipped. -/
def tokens (text : String) : Tokens :=
  let chars := match text.toList with
    | '\ufeff' :: rest => rest
    | cs => cs
  if chars.all isAllowed then
    let (items, broken) := Lexer.run (chars.length + 2) { cursor := ⟨chars, 0, 0, 0⟩ }
    ⟨items, broken⟩
  else ⟨#[], true⟩

/-- How many tokens after the one asked for have to be well-formed. -/
def lookahead : Nat := 2

/-- The token number `n`.  It is an error to ask for one close to something malformed; after the
    last token the text has ended. -/
def Tokens.get (ts : Tokens) (n : Nat) : Except Malformed Token :=
  if ts.broken && ts.items.size ≤ n + lookahead then .error .malformed
  else .ok (ts.items[n]?.getD ((ts.items.back?).getD default))

end Overlap.Yaml
