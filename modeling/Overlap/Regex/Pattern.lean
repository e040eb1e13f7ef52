/-
  The text form of regular expressions.

  Patterns have the usual operators `*`, `+`, `?`, `{n,m}`, `|`, groups,
  classes in brackets, escapes and flags; there are no back references.

  * `Regex.parse` reads a pattern, or refuses it.
-/
import Overlap.Regex.Basic

namespace Overlap.Regex

/-- A pattern that has no meaning. -/
inductive PatternError where
  | missingOperand
  | stackedRepetition
  | badRepetition
  | badClass
  | badEscape
  | badGroup
  | unbalanced
deriving DecidableEq, Repr

/-- The flags of a part of a pattern. -/
structure Flags where
  /-- Letters match in both cases. -/
  fold : Bool := false
  /-- `^` and `$` match at every line. -/
  lines : Bool := false
  /-- `.` matches a newline. -/
  dotAll : Bool := false
deriving Repr, Inhabited

/-! ## Classes -/

/-- The ranges of the classes with a letter. -/
def letterClass? : Char → Option CharRanges
  | 'd' => some ⟨[(48, 57)], false⟩
  | 'D' => some ⟨[(48, 57)], true⟩
  | 's' => some ⟨[(9, 10), (12, 13), (32, 32)], false⟩
  | 'S' => some ⟨[(9, 10), (12, 13), (32, 32)], true⟩
  | 'w' => some ⟨[(48, 57), (65, 90), (95, 95), (97, 122)], false⟩
  | 'W' => some ⟨[(48, 57), (65, 90), (95, 95), (97, 122)], true⟩
  | _ => none

/-- The ranges of the classes with a name. -/
def namedClass? : String → Option (List (Nat × Nat))
  | "alnum" => some [(48, 57), (65, 90), (97, 122)]
  | "alpha" => some [(65, 90), (97, 122)]
  | "ascii" => some [(0, 127)]
  | "blank" => some [(9, 9), (32, 32)]
  | "cntrl" => some [(0, 31), (127, 127)]
  | "digit" => some [(48, 57)]
  | "graph" => some [(33, 126)]
  | "lower" => some [(97, 122)]
  | "print" => some [(32, 126)]
  | "punct" => some [(33, 47), (58, 64), (91, 96), (123, 126)]
  | "space" => some [(9, 13), (32, 32)]
  | "upper" => some [(65, 90)]
  | "word" => some [(48, 57), (65, 90), (95, 95), (97, 122)]
  | "xdigit" => some [(48, 57), (65, 70), (97, 102)]
  | _ => none

/-- The ASCII characters of a general category of characters, or the main block of a script. -/
def category? : String → Option (List (Nat × Nat))
  | "Any" => some [(0, 0x10ffff)]
  | "C" | "Cc" => some [(0, 31), (127, 159)]
  | "L" => some [(65, 90), (97, 122), (0xaa, 0xaa), (0xb5, 0xb5), (0xba, 0xba), (0xc0, 0xd6),
      (0xd8, 0xf6), (0xf8, 0x2c1), (0x370, 0x373), (0x376, 0x377), (0x37b, 0x37d), (0x386, 0x386),
      (0x388, 0x481), (0x48a, 0x52f), (0x3041, 0x3096), (0x30a1, 0x30fa), (0x4e00, 0x9fff)]
  | "Lu" => some [(65, 90), (0xc0, 0xd6), (0xd8, 0xde), (0x391, 0x3a9), (0x400, 0x42f)]
  | "Ll" => some [(97, 122), (0xb5, 0xb5), (0xdf, 0xf6), (0xf8, 0xff), (0x3ac, 0x3ce), (0x430, 0x45f)]
  | "N" | "Nd" => some [(48, 57)]
  | "P" => some [(33, 35), (37, 42), (44, 47), (58, 59), (63, 64), (91, 93), (95, 95), (123, 123),
      (125, 125)]
  | "Pc" => some [(95, 95)]
  | "Pd" => some [(45, 45)]
  | "Pe" => some [(41, 41), (93, 93), (125, 125)]
  | "Po" => some [(33, 35), (37, 39), (42, 42), (44, 44), (46, 47), (58, 59), (63, 64), (92, 92)]
  | "Ps" => some [(40, 40), (91, 91), (123, 123)]
  | "S" => some [(36, 36), (43, 43), (60, 62), (94, 94), (96, 96), (124, 124), (126, 126)]
  | "Sc" => some [(36, 36)]
  | "Sk" => some [(94, 94), (96, 96)]
  | "Sm" => some [(43, 43), (60, 62), (124, 124), (126, 126)]
  | "Z" | "Zs" => some [(32, 32), (160, 160)]
  | "Cf" | "Co" | "Cs" | "Lm" | "Lo" | "Lt" | "M" | "Mc" | "Me" | "Mn" | "Nl" | "No" | "Pf" | "Pi"
  | "So" | "Zl" | "Zp" => some []
  | "Latin" => some [(65, 90), (97, 122), (0xaa, 0xaa), (0xba, 0xba), (0xc0, 0xd6), (0xd8, 0xf6),
      (0xf8, 0x2b8)]
  | "Greek" => some [(0x370, 0x373), (0x375, 0x377), (0x37a, 0x37d), (0x386, 0x386), (0x388, 0x3e1),
      (0x3f0, 0x3ff)]
  | "Cyrillic" => some [(0x400, 0x484), (0x487, 0x52f)]
  | "Han" => some [(0x2e80, 0x2fd5), (0x3005, 0x3005), (0x3007, 0x3007), (0x3400, 0x4dbf),
      (0x4e00, 0x9fff)]
  | "Hiragana" => some [(0x3041, 0x3096)]
  | "Katakana" => some [(0x30a1, 0x30fa)]
  | "Hebrew" => some [(0x591, 0x5f4)]
  | "Arabic" => some [(0x600, 0x6ff)]
  | _ => none

/-- The number written by hexadecimal digits. -/
def hexValue? (cs : List Char) : Option Nat :=
  if cs.isEmpty then none
  else cs.foldl (fun n c => do
    let d ←
      if c.isDigit then some (c.toNat - 48)
      else if 'a' ≤ c && c ≤ 'f' then some (c.toNat - 87)
      else if 'A' ≤ c && c ≤ 'F' then some (c.toNat - 55)
      else none
    return 16 * (← n) + d) (some 0)

/-- The number written by octal digits. -/
def octalValue (cs : List Char) : Nat := cs.foldl (fun n c => 8 * n + (c.toNat - 48)) 0

/-- The character of an escape, after its backslash, and what follows it. -/
def escape : List Char → Except PatternError (Nat × List Char)
  | [] => .error .badEscape
  | 'x' :: '{' :: cs =>
    let digits := cs.takeWhile (· != '}')
    match hexValue? digits, cs.drop digits.length with
    | some n, _ :: rest => if n ≤ 0x10ffff then .ok (n, rest) else .error .badEscape
    | _, _ => .error .badEscape
  | 'x' :: a :: b :: rest =>
    match hexValue? [a, b] with
    | some n => .ok (n, rest)
    | none => .error .badEscape
  | c :: rest =>
    let isOctal (d : Char) : Bool := '0' ≤ d && d ≤ '7'
    if isOctal c && (c == '0' || rest.head?.any isOctal) then
      let more := (rest.take 2).takeWhile isOctal
      .ok (octalValue (c :: more), rest.drop more.length)
    else match c with
      | 'a' => .ok (7, rest)
      | 'f' => .ok (12, rest)
      | 'n' => .ok (10, rest)
      | 'r' => .ok (13, rest)
      | 't' => .ok (9, rest)
      | 'v' => .ok (11, rest)
      | c => if c.toNat < 128 && !c.isAlphanum then .ok (c.toNat, rest) else .error .badEscape

/-- A class by category, after its backslash: `p` or `P`, and a letter or a name in braces that
    a caret negates.  Nothing if there is no such class here. -/
def categoryClass : List Char → Except PatternError (Option (CharRanges × List Char))
  | c :: cs =>
    if c != 'p' && c != 'P' then .ok none
    else
      let (name, rest) := match cs with
        | '{' :: ds =>
          let inner := ds.takeWhile (· != '}')
          match ds.drop inner.length with
          | _ :: rest => (some inner, rest)
          | [] => (none, [])
        | d :: rest => (some [d], rest)
        | [] => (none, [])
      let (flip, name) := match name with
        | some ('^' :: inner) => (true, some inner)
        | name => (false, name)
      match name.bind fun n => category? (String.ofList n) with
      | some ranges => .ok (some (⟨ranges, (c == 'P') != flip⟩, rest))
      | none => .error .badClass
  | [] => .ok none

/-- The text between `[:` and `:]`, and what follows it. -/
def classNameAt : List Char → Option (List Char × List Char)
  | [] => none
  | ':' :: ']' :: rest => some ([], rest)
  | c :: rest => (classNameAt rest).map fun (name, after) => (c :: name, after)

/-- A named class at `[:`, whose name a caret negates. -/
def bracketClass (cs : List Char) : Except PatternError (Option (CharRanges × List Char)) :=
  match classNameAt cs with
  | none => .ok none
  | some (name, rest) =>
    let (negated, name) := match name with
      | '^' :: name => (true, name)
      | name => (false, name)
    match namedClass? (String.ofList name) with
    | some ranges => .ok (some (⟨ranges, negated⟩, rest))
    | none => .error .badClass

/-- A character inside brackets. -/
def classChar : List Char → Except PatternError (Nat × List Char)
  | [] => .error .badClass
  | '\\' :: rest => escape rest
  | c :: rest => .ok (c.toNat, rest)

/-- A character or a range of characters inside brackets. -/
def classRange (cs : List Char) : Except PatternError (CharRanges × List Char) := do
  let (lo, rest) ← classChar cs
  match rest with
  | '-' :: c :: more =>
    if c == ']' then return (⟨[(lo, lo)], false⟩, rest)
    let (hi, rest) ← classChar (c :: more)
    if hi < lo then throw .badClass
    return (⟨[(lo, hi)], false⟩, rest)
  | _ => return (⟨[(lo, lo)], false⟩, rest)

/-- One part of a class in brackets. -/
def classPart (cs : List Char) : Except PatternError (CharRanges × List Char) := do
  match cs with
  | '[' :: ':' :: rest =>
    match ← bracketClass rest with
    | some r => return r
    | none => classRange cs
  | '\\' :: rest =>
    match ← categoryClass rest with
    | some r => return r
    | none =>
      match rest with
      | c :: rest' =>
        match letterClass? c with
        | some ranges => return (ranges, rest')
        | none => classRange cs
      | [] => classRange cs
  | _ => classRange cs

/-- The parts of a class up to the closing bracket, which is a character if it comes first. -/
def classParts (isFirst : Bool) : Nat → List Char → Except PatternError (List CharRanges × List Char)
  | 0, _ => .error .badClass
  | fuel + 1, cs =>
    match cs, isFirst with
    | ']' :: rest, false => .ok ([], rest)
    | _, _ => do
      let (part, rest) ← classPart cs
      let (parts, rest) ← classParts false fuel rest
      return (part :: parts, rest)

/-- A class in brackets, after the opening one. -/
def bracket (flags : Flags) (cs : List Char) : Except PatternError (Regex × List Char) := do
  let (negated, cs) := match cs with
    | '^' :: rest => (true, rest)
    | cs => (false, cs)
  let (parts, rest) ← classParts true (cs.length + 1) cs
  return (.set ⟨parts, negated, flags.fold⟩, rest)

/-! ## Repetitions -/

/-- The most times that an expression may be repeated, nested repetitions multiplied. -/
def repeatLimit : Nat := 1000

/-- A number without leading zeros. -/
def repeatCount (cs : List Char) : Option (Nat × List Char) :=
  let digits := cs.takeWhile Char.isDigit
  let leadingZero := match digits with
    | '0' :: _ :: _ => true
    | _ => false
  if digits.isEmpty || leadingZero then none
  else some (digits.foldl (fun n c => 10 * n + (c.toNat - 48)) 0, cs.drop digits.length)

/-- The bounds of a repetition after `{`; a brace with anything else stands for itself. -/
def bounds? (cs : List Char) : Option (Nat × Option Nat × List Char) := do
  let (least, rest) ← repeatCount cs
  match rest with
  | '}' :: rest => some (least, some least, rest)
  | ',' :: '}' :: rest => some (least, none, rest)
  | ',' :: rest =>
    let (most, rest) ← repeatCount rest
    match rest with
    | '}' :: rest => some (least, some most, rest)
    | _ => none
  | _ => none

/-- Whether nested repetitions stay within a limit. -/
def withinLimit : Regex → Nat → Bool
  | .seq a b, n | .alt a b, n => withinLimit a n && withinLimit b n
  | .rep r least most, n =>
    let m := most.getD least
    if most == some 0 then true
    else m ≤ n && withinLimit r (if m = 0 then n else n / m)
  | _, _ => true

/-! ## Patterns -/

/-- What is known while a pattern is read. -/
structure Reader where
  rest : List Char
  flags : Flags
  names : List String
deriving Inhabited

/-- A sequence of expressions, given in reverse. -/
def sequence (done : List Regex) : Regex :=
  match done with
  | [] => .empty
  | r :: rs => rs.foldl (fun acc r => .seq r acc) r

/-- A literal character. -/
def literal (flags : Flags) (n : Nat) : Regex := .set ⟨[⟨[(n, n)], false⟩], false, flags.fold⟩

/-- Any character, or any but a newline. -/
def anyChar (flags : Flags) : Regex :=
  .set ⟨[⟨if flags.dotAll then [] else [(10, 10)], true⟩], false, false⟩

/-- Flags after `(?`, up to a colon, which opens a group, or a closing parenthesis. -/
def flagsAt (flags : Flags) (on seen : Bool) : List Char → Option (Flags × Bool × List Char)
  | [] => none
  | c :: rest =>
    if c == 'i' then flagsAt { flags with fold := on } on true rest
    else if c == 'm' then flagsAt { flags with lines := on } on true rest
    else if c == 's' then flagsAt { flags with dotAll := on } on true rest
    else if c == 'U' then flagsAt flags on true rest
    else if c == '-' then if on then flagsAt flags false false rest else none
    else if c == ':' || c == ')' then
      if !on && !seen then none else some (flags, c == ':', rest)
    else none

/-- The name of a group, up to `>`, which no other group may have. -/
def groupName (names : List String) (cs : List Char) : Except PatternError (String × List Char) :=
  let name := cs.takeWhile (· != '>')
  match cs.drop name.length with
  | _ :: rest =>
    let text := String.ofList name
    if name.isEmpty || !name.all isWord || names.contains text then .error .badGroup
    else .ok (text, rest)
  | [] => .error .badGroup

/-- The text up to `\E`, each of whose characters stands for itself, and what follows it. -/
def quotedText : List Char → List Char × List Char
  | [] => ([], [])
  | '\\' :: 'E' :: rest => ([], rest)
  | c :: rest =>
    let (text, after) := quotedText rest
    (c :: text, after)

/-- An escape outside brackets, after its backslash: the expressions it adds. -/
def escapeItems (flags : Flags) (cs : List Char) : Except PatternError (List Regex × List Char) := do
  match cs with
  | 'A' :: rest => return ([.anchor .textStart], rest)
  | 'z' :: rest => return ([.anchor .textEnd], rest)
  | 'b' :: rest => return ([.anchor .wordBoundary], rest)
  | 'B' :: rest => return ([.anchor .noWordBoundary], rest)
  | 'Q' :: rest =>
    let (text, after) := quotedText rest
    return (text.map fun c => literal flags c.toNat, after)
  | _ =>
    match ← categoryClass cs with
    | some (ranges, rest) => return ([.set ⟨[ranges], false, flags.fold⟩], rest)
    | none =>
      match cs with
      | c :: rest =>
        match letterClass? c with
        | some ranges => return ([.set ⟨[ranges], false, flags.fold⟩], rest)
        | none =>
          let (n, rest) ← escape cs
          return ([literal flags n], rest)
      | [] => throw .badEscape

/-- Repeats the last expression.  A question mark after the operator does not change what
    matches, and an operator may not follow another. -/
def repeatLast (done : List Regex) (stacked : Bool) (least : Nat) (most : Option Nat)
    (rest : List Char) : Except PatternError (List Regex × List Char) :=
  match done with
  | [] => .error .missingOperand
  | r :: rs =>
    if stacked then .error .stackedRepetition
    else
      let rest := match rest with
        | '?' :: rest => rest
        | rest => rest
      .ok (.rep r least most :: rs, rest)

mutual

/-- Reads alternatives up to the end or a closing parenthesis. -/
def alternatives : Nat → Reader → Except PatternError (Regex × Reader)
  | 0, _ => .error .unbalanced
  | fuel + 1, s => do
    let (r, s) ← items fuel s [] false
    match s.rest with
    | '|' :: rest =>
      let (r', s) ← alternatives fuel { s with rest }
      return (.alt r r', s)
    | _ => return (r, s)

/-- A group after its opening: alternatives and the closing parenthesis, after which the flags
    from before the group hold again. -/
def group : Nat → Flags → Reader → Except PatternError (Regex × Reader)
  | 0, _, _ => .error .unbalanced
  | fuel + 1, outer, s => do
    let (r, s) ← alternatives fuel s
    match s.rest with
    | ')' :: rest => return (r, { s with rest, flags := outer })
    | _ => throw .unbalanced

/-- Reads expressions one after the other; `done` are those read so far, in reverse, and
    `stacked` tells whether the last thing read was a repetition operator. -/
def items : Nat → Reader → List Regex → Bool → Except PatternError (Regex × Reader)
  | 0, _, _, _ => .error .unbalanced
  | fuel + 1, s, done, stacked => do
    match s.rest with
    | [] => return (sequence done, s)
    | '|' :: _ => return (sequence done, s)
    | ')' :: _ => return (sequence done, s)
    | '(' :: '?' :: 'P' :: '<' :: rest =>
      let (name, rest) ← groupName s.names rest
      let (r, s') ← group fuel s.flags { s with rest, names := name :: s.names }
      items fuel s' (r :: done) false
    | '(' :: '?' :: '<' :: rest =>
      let (name, rest) ← groupName s.names rest
      let (r, s') ← group fuel s.flags { s with rest, names := name :: s.names }
      items fuel s' (r :: done) false
    | '(' :: '?' :: rest =>
      match flagsAt s.flags true false rest with
      | none => throw .badGroup
      | some (flags, true, rest) =>
        let (r, s') ← group fuel s.flags { s with rest, flags }
        items fuel s' (r :: done) false
      | some (flags, false, rest) => items fuel { s with rest, flags } done false
    | '(' :: rest =>
      let (r, s') ← group fuel s.flags { s with rest }
      items fuel s' (r :: done) false
    | '[' :: rest =>
      let (r, rest) ← bracket s.flags rest
      items fuel { s with rest } (r :: done) false
    | '.' :: rest => items fuel { s with rest } (anyChar s.flags :: done) false
    | '^' :: rest =>
      let a := if s.flags.lines then Anchor.lineStart else .textStart
      items fuel { s with rest } (.anchor a :: done) false
    | '$' :: rest =>
      let a := if s.flags.lines then Anchor.lineEnd else .textEnd
      items fuel { s with rest } (.anchor a :: done) false
    | '*' :: rest =>
      let (done, rest) ← repeatLast done stacked 0 none rest
      items fuel { s with rest } done true
    | '+' :: rest =>
      let (done, rest) ← repeatLast done stacked 1 none rest
      items fuel { s with rest } done true
    | '?' :: rest =>
      let (done, rest) ← repeatLast done stacked 0 (some 1) rest
      items fuel { s with rest } done true
    | '{' :: rest =>
      match bounds? rest with
      | none => items fuel { s with rest } (literal s.flags '{'.toNat :: done) false
      | some (least, most, rest) =>
        if repeatLimit < least || most.any (fun m => repeatLimit < m || m < least) then
          throw .badRepetition
        let (done, rest) ← repeatLast done stacked least most rest
        match done with
        | r :: _ =>
          if (2 ≤ least || most.any (2 ≤ ·)) && !withinLimit r repeatLimit then
            throw .badRepetition
        | [] => pure ()
        items fuel { s with rest } done true
    | '\\' :: rest =>
      let (rs, rest) ← escapeItems s.flags rest
      items fuel { s with rest } (rs.reverse ++ done) false
    | c :: rest => items fuel { s with rest } (literal s.flags c.toNat :: done) false

end

/-- Reads a pattern. -/
def parse (pattern : String) : Except PatternError Regex := do
  let cs := pattern.toList
  let (r, s) ← alternatives (4 * cs.length + 4) ⟨cs, {}, []⟩
  if s.rest.isEmpty then return r else throw .unbalanced

end Overlap.Regex
