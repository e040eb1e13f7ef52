/-
  The statements of a Go source file.

  The outline of a file has the lines of every statement that stands in a
  list: in a block, after a case or after a communication.  It is found by
  parsing the whole file; a file that does not parse has none.

  * `Span` is the extent of a statement, `OneLine` a function on one line;
  * `outline` parses a file.

  Only the form matters here: the parser accepts whatever has the form of a
  program and keeps nothing of expressions and types.
-/
import Overlap.Source.Token

namespace Overlap.Source

/-- The first and the last line of a statement, and whether a label comes first. -/
structure Span where
  first : Nat
  last : Nat
  labelled : Bool
deriving DecidableEq, Repr, Inhabited

/-- A declared function on a single line, and the column at which its body starts. -/
structure OneLine where
  line : Nat
  body : Nat
deriving DecidableEq, Repr, Inhabited

/-- The statements of a file, each before those inside it, and its functions on one line. -/
structure Outline where
  statements : Array Span := #[]
  functions : Array OneLine := #[]
deriving Inhabited

/-- The state of the parser: the words ahead, the last line that was read, how deep in brackets
    it is (negative in the head of a statement, where a brace starts a block), and what it has
    found. -/
structure Parsing where
  ahead : List Token
  lastLine : Nat := 0
  depth : Int := 0
  found : Outline := {}

/-- A parser of part of a file. -/
abbrev Parser := StateT Parsing (Except Malformed)

/-- What an expression turned out to be, as far as it decides what may follow. -/
inductive Form where
  | name
  /-- A qualified name or an instance, which may be a type. -/
  | qualified
  /-- A type that a composite value can start with. -/
  | literalType
  | call
  | other
deriving DecidableEq, Repr, Inhabited

/-- What a simple statement turned out to be. -/
inductive Simple where
  | expression | assignment | range | label
deriving DecidableEq, Repr, Inhabited

namespace Parser

/-- The file does not have the form of a program. -/
def fail {α : Type} : Parser α := throw .malformed

/-- The next word. -/
def peek : Parser (Option Token) := return (← get).ahead.head?

/-- Whether the next word is a keyword or a symbol. -/
def at_ (text : String) : Parser Bool := do
  return (← peek).any fun t => (t.kind == .keyword || t.kind == .symbol) && t.text == text

/-- Whether the next word is one of some keywords and symbols. -/
def atAny (texts : List String) : Parser Bool := do
  return (← peek).any fun t => (t.kind == .keyword || t.kind == .symbol) && texts.contains t.text

/-- Whether the next word is of a kind. -/
def atKind (kind : TokenKind) : Parser Bool := return (← peek).any (·.kind == kind)

/-- Whether the word after the next one is one of some symbols. -/
def thenAny (texts : List String) : Parser Bool := do
  return ((← get).ahead.drop 1).head?.any fun t => t.kind == .symbol && texts.contains t.text

/-- Whether no word is left. -/
def atEnd : Parser Bool := return (← peek).isNone

/-- Reads a word. -/
def advance : Parser Token := do
  match (← get).ahead with
  | [] => fail
  | t :: rest =>
    modify fun s => { s with
      ahead := rest
      lastLine := if t.kind == .semicolon then s.lastLine else t.lastLine }
    return t

/-- Reads a keyword or a symbol. -/
def expect (text : String) : Parser Unit := do
  if ← at_ text then discard advance else fail

/-- Reads a keyword or a symbol if it comes next. -/
def got (text : String) : Parser Bool := do
  if ← at_ text then
    discard advance
    return true
  else return false

/-- Reads a name. -/
def name : Parser Unit := do
  if ← atKind .name then discard advance else fail

/-- Reads the semicolon after a statement, which may be left out before a closing bracket. -/
def semicolon : Parser Unit := do
  if ← atAny [")", "\x7d"] then return
  if ← atKind .semicolon then discard advance else fail

/-- Parses inside brackets. -/
def inside {α : Type} (p : Parser α) : Parser α := do
  modify fun s => { s with depth := s.depth + 1 }
  let a ← p
  modify fun s => { s with depth := s.depth - 1 }
  return a

/-- Parses the head of a statement. -/
def head {α : Type} (p : Parser α) : Parser α := do
  let outer := (← get).depth
  modify fun s => { s with depth := -1 }
  let a ← p
  modify fun s => { s with depth := outer }
  return a

/-- Parses a statement of a list, and records its extent and whether it has a label. -/
def recorded (p : Parser Bool) : Parser Unit := do
  let i := (← get).found.statements.size
  let first := ((← peek).map (·.line)).getD 0
  modify fun s => { s with found := { s.found with statements := s.found.statements.push ⟨first, first, false⟩ } }
  let labelled ← p
  modify fun s => { s with found := { s.found with
    statements := s.found.statements.setIfInBounds i ⟨first, max first s.lastLine, labelled⟩ } }

/-- The symbols between two operands. -/
def binaryOperators : List String := ["||", "&&", "==", "!=", "<", "<=", ">", ">=", "+", "-", "|", "^",
  "*", "/", "%", "<<", ">>", "&", "&^"]

/-- The symbols before an operand. -/
def unaryOperators : List String := ["+", "-", "!", "^", "&", "~", "*"]

/-- The symbols between the two sides of an assignment. -/
def assignments : List String := [":=", "=", "+=", "-=", "*=", "/=", "%=", "&=", "|=", "^=", "<<=", ">>=",
  "&^="]

/-- An entry of a parameter list: a name or a type alone, or both. -/
inductive Entry where
  | alone (isName : Bool)
  | named
deriving DecidableEq, Repr

/-- Whether the entries of a list agree: if one has a name, all have, and the last has a type. -/
def consistent (entries : List Entry) : Bool :=
  !entries.contains .named ||
    (entries.getLast? == some .named && !entries.contains (.alone false))

mutual

/-- Parses a type if one comes next. -/
def type? : Nat → Parser Bool
  | 0 => fail
  | n + 1 => do
    if ← atKind .name then
      typeName n
      return true
    if ← got "*" then
      type n
      return true
    if ← got "(" then
      type n
      expect ")"
      return true
    if ← at_ "[" then
      arrayType n
      return true
    if ← got "struct" then
      structType n
      return true
    if ← got "interface" then
      interfaceType n
      return true
    if ← got "func" then
      signature n
      return true
    if ← got "map" then
      expect "["
      type n
      expect "]"
      type n
      return true
    if ← got "chan" then
      discard (got "<-")
      type n
      return true
    if ← got "<-" then
      expect "chan"
      type n
      return true
    return false

/-- Parses a type. -/
def type : Nat → Parser Unit
  | 0 => fail
  | n + 1 => do unless ← type? n do fail

/-- Parses a name of a type, with the arguments of an instance. -/
def typeName : Nat → Parser Unit
  | 0 => fail
  | n + 1 => do
    name
    if ← got "." then name
    if ← at_ "[" then
      expect "["
      inside (types n)
      expect "]"

/-- Parses types up to a closing bracket. -/
def types : Nat → Parser Unit
  | 0 => fail
  | n + 1 => do
    type n
    if ← got "," then
      unless ← atAny ["]", ")"] do types n

/-- Parses an array or slice type. -/
def arrayType : Nat → Parser Unit
  | 0 => fail
  | n + 1 => do
    expect "["
    unless ← at_ "]" do
      unless ← got "..." do inside (discard (expr n))
    expect "]"
    type n

/-- Parses what can follow the name of a parameter or field if a bracket comes next: an array type,
    which makes the name a name, or the arguments of an instance. -/
def arrayOrInstance : Nat → Parser Entry
  | 0 => fail
  | n + 1 => do
    expect "["
    if ← got "]" then
      type n
      return .named
    if ← got "..." then
      expect "]"
      type n
      return .named
    inside (discard (exprs n))
    discard (got ",")
    expect "]"
    return if ← type? n then .named else .alone false

/-- Parses the fields of a structure. -/
def structType : Nat → Parser Unit
  | 0 => fail
  | n + 1 => do
    expect "\x7b"
    fields n
    expect "\x7d"

/-- Parses fields up to the end of a structure. -/
def fields : Nat → Parser Unit
  | 0 => fail
  | n + 1 => do
    if ← at_ "\x7d" then return
    if ← atKind .name then
      name
      if ← got "." then
        name
        if ← at_ "[" then discard (arrayOrInstance n)
      else if ← at_ "[" then discard (arrayOrInstance n)
      else if ← got "," then
        names n
        type n
      else discard (type? n)
    else if ← got "*" then typeName n
    else if ← got "(" then
      discard (got "*")
      typeName n
      expect ")"
    else fail
    if ← atKind .literal then discard advance
    semicolon
    fields n

/-- Parses names between commas. -/
def names : Nat → Parser Unit
  | 0 => fail
  | n + 1 => do
    name
    if ← got "," then names n

/-- Parses the methods and types of an interface. -/
def interfaceType : Nat → Parser Unit
  | 0 => fail
  | n + 1 => do
    expect "\x7b"
    interfaceItems n
    expect "\x7d"

/-- Parses methods and types up to the end of an interface. -/
def interfaceItems : Nat → Parser Unit
  | 0 => fail
  | n + 1 => do
    if ← at_ "\x7d" then return
    if (← atKind .name) && (← thenAny ["("]) then
      name
      signature n
    else union n
    semicolon
    interfaceItems n

/-- Parses alternative types. -/
def union : Nat → Parser Unit
  | 0 => fail
  | n + 1 => do
    discard (got "~")
    type n
    if ← got "|" then union n

/-- Parses the parameters and results of a function. -/
def signature : Nat → Parser Unit
  | 0 => fail
  | n + 1 => do
    params n
    if ← at_ "(" then params n else discard (type? n)

/-- Parses a parameter list. -/
def params : Nat → Parser Unit
  | 0 => fail
  | n + 1 => do
    expect "("
    let entries ← inside (entries n)
    expect ")"
    unless consistent entries do fail

/-- Parses the entries of a parameter list. -/
def entries : Nat → Parser (List Entry)
  | 0 => fail
  | n + 1 => do
    if ← at_ ")" then return []
    let e ← entry n
    if ← got "," then return e :: (← entries n)
    return [e]

/-- Parses an entry of a parameter list. -/
def entry : Nat → Parser Entry
  | 0 => fail
  | n + 1 => do
    if ← atKind .name then
      name
      if ← at_ "[" then arrayOrInstance n
      else if ← got "." then
        name
        if ← at_ "[" then
          expect "["
          inside (types n)
          expect "]"
        return .alone false
      else if ← got "..." then
        type n
        return .named
      else return if ← type? n then .named else .alone true
    else
      discard (got "...")
      type n
      return .alone false

/-- Parses type parameters, after their opening bracket. -/
def typeParams : Nat → Parser Unit
  | 0 => fail
  | n + 1 => do
    names n
    union n
    if ← got "," then
      unless ← at_ "]" do typeParams n

/-- Parses an expression or a type. -/
def expr : Nat → Parser Form
  | 0 => fail
  | n + 1 => do
    let form ← unary n
    if ← atAny binaryOperators then
      discard advance
      discard (expr n)
      return .other
    else return form

/-- Parses expressions between commas, and says how many there are and what the first is. -/
def exprs : Nat → Parser (Nat × Form)
  | 0 => fail
  | n + 1 => do
    let form ← expr n
    if (← at_ ",") && !(← thenAny ["]", ")"]) then
      discard advance
      let (count, _) ← exprs n
      return (count + 1, form)
    else return (1, form)

/-- Parses an operand with the operators before it. -/
def unary : Nat → Parser Form
  | 0 => fail
  | n + 1 => do
    if ← atAny unaryOperators then
      discard advance
      discard (unary n)
      return .other
    else if ← got "<-" then
      if ← got "chan" then
        type n
        suffixes n .other
      else
        discard (unary n)
        return .other
    else do
      let form ← operand n
      suffixes n form

/-- Parses an operand. -/
def operand : Nat → Parser Form
  | 0 => fail
  | n + 1 => do
    if ← atKind .name then
      name
      return .name
    if ← atKind .literal then
      discard advance
      return .other
    if ← got "(" then
      inside (discard (expr n))
      expect ")"
      return .other
    if ← at_ "func" then
      expect "func"
      signature n
      if ← at_ "\x7b" then inside (block n)
      return .other
    if ← at_ "[" then
      arrayType n
      return .literalType
    if ← got "struct" then
      structType n
      return .literalType
    if ← at_ "map" then
      type n
      return .literalType
    if ← atAny ["chan", "interface"] then
      type n
      return .other
    fail

/-- Parses what follows an operand: selections, indices, calls and composite values. -/
def suffixes : Nat → Form → Parser Form
  | 0, _ => fail
  | n + 1, form => do
    if ← got "." then
      if ← got "(" then
        unless ← got "type" do type n
        expect ")"
        suffixes n .other
      else do
        name
        suffixes n (if form == .name then .qualified else .other)
    else if ← at_ "[" then
      index n
      suffixes n (if form == .name || form == .qualified then .qualified else .other)
    else if ← got "(" then
      inside (arguments n)
      expect ")"
      suffixes n .call
    else if ← at_ "\x7b" then
      let isHead := (← get).depth < 0
      if form == .literalType || ((form == .name || form == .qualified) && !isHead) then
        composite n
        suffixes n .other
      else return form
    else return form

/-- Parses an index, the bounds of a slice or the arguments of an instance. -/
def index : Nat → Parser Unit
  | 0 => fail
  | n + 1 => do
    expect "["
    inside do
      unless ← at_ ":" do discard (exprs n)
      if ← got ":" then
        let hasHigh := !(← atAny [":", "]"])
        if hasHigh then discard (expr n)
        if ← got ":" then
          unless hasHigh do fail
          discard (expr n)
      else discard (got ",")
    expect "]"

/-- Parses the arguments of a call. -/
def arguments : Nat → Parser Unit
  | 0 => fail
  | n + 1 => do
    if ← at_ ")" then return
    discard (expr n)
    discard (got "...")
    if ← got "," then arguments n

/-- Parses the elements of a composite value. -/
def composite : Nat → Parser Unit
  | 0 => fail
  | n + 1 => do
    expect "\x7b"
    inside (elements n)
    expect "\x7d"

/-- Parses elements up to the end of a composite value. -/
def elements : Nat → Parser Unit
  | 0 => fail
  | n + 1 => do
    if ← at_ "\x7d" then return
    element n
    if ← got ":" then element n
    if ← got "," then elements n

/-- Parses an element of a composite value. -/
def element : Nat → Parser Unit
  | 0 => fail
  | n + 1 => do
    if ← at_ "\x7b" then composite n else discard (expr n)

/-- Parses a block. -/
def block : Nat → Parser Unit
  | 0 => fail
  | n + 1 => do
    expect "\x7b"
    statements n
    expect "\x7d"

/-- Parses statements up to the end of their list. -/
def statements : Nat → Parser Unit
  | 0 => fail
  | n + 1 => do
    if (← atEnd) || (← atAny ["case", "default", "\x7d"]) then return
    recorded (statement n)
    statements n

/-- Parses a statement, and says whether it has a label. -/
def statement : Nat → Parser Bool
  | 0 => fail
  | n + 1 => do
    if ← atKind .semicolon then
      discard advance
      return false
    if ← atAny ["const", "type", "var"] then
      declaration n
      return false
    if ← atAny ["go", "defer"] then
      discard advance
      unless (← expr n) == .call do fail
      semicolon
      return false
    if ← got "return" then
      unless (← atKind .semicolon) || (← at_ "\x7d") do discard (exprs n)
      semicolon
      return false
    if ← atAny ["break", "continue", "goto", "fallthrough"] then
      let word ← advance
      if word.text != "fallthrough" && (← atKind .name) then name
      semicolon
      return false
    if ← at_ "\x7b" then
      block n
      semicolon
      return false
    if ← got "if" then
      conditional n
      return false
    if ← got "switch" then
      head (switchHead n)
      expect "\x7b"
      clauses n
      expect "\x7d"
      semicolon
      return false
    if ← got "select" then
      expect "\x7b"
      communications n
      expect "\x7d"
      semicolon
      return false
    if ← got "for" then
      head (loopHead n)
      block n
      semicolon
      return false
    match ← simple n true false with
    | .label => do
      if ← at_ "\x7d" then return true
      discard (statement n)
      return true
    | _ => do
      semicolon
      return false

/-- Parses a simple statement, which may be a label or the head of a loop over a range. -/
def simple : Nat → Bool → Bool → Parser Simple
  | 0, _, _ => fail
  | n + 1, labelAllowed, rangeAllowed => do
    let (count, form) ← exprs n
    if ← atAny assignments then
      let operator ← advance
      if rangeAllowed && (operator.text == ":=" || operator.text == "=") && (← at_ "range") then
        discard advance
        discard (expr n)
        return .range
      discard (exprs n)
      return .assignment
    if count != 1 then fail
    if labelAllowed && form == .name && (← at_ ":") then
      discard advance
      return .label
    if ← got "<-" then
      discard (expr n)
      return .assignment
    if ← atAny ["++", "--"] then
      discard advance
      return .assignment
    return .expression

/-- Parses a conditional statement, after its first word. -/
def conditional : Nat → Parser Unit
  | 0 => fail
  | n + 1 => do
    head do
      if ← at_ "\x7b" then fail
      let first ← if ← atKind .semicolon then pure Simple.assignment else simple n false false
      if ← atKind .semicolon then
        discard advance
        unless (← simple n false false) == .expression do fail
      else unless first == .expression do fail
    block n
    if ← got "else" then
      if ← got "if" then conditional n
      else do
        block n
        semicolon
    else semicolon

/-- Parses the head of a switch. -/
def switchHead : Nat → Parser Unit
  | 0 => fail
  | n + 1 => do
    if ← at_ "\x7b" then return
    unless ← atKind .semicolon do discard (simple n false false)
    if ← atKind .semicolon then
      discard advance
      unless ← at_ "\x7b" do discard (simple n false false)

/-- Parses the clauses of a switch. -/
def clauses : Nat → Parser Unit
  | 0 => fail
  | n + 1 => do
    if ← at_ "\x7d" then return
    recorded do
      if ← got "case" then discard (exprs n) else expect "default"
      expect ":"
      statements n
      return false
    clauses n

/-- Parses the clauses of a choice between communications. -/
def communications : Nat → Parser Unit
  | 0 => fail
  | n + 1 => do
    if ← at_ "\x7d" then return
    recorded do
      if ← got "case" then discard (simple n false false) else expect "default"
      expect ":"
      statements n
      return false
    communications n

/-- Parses the head of a loop. -/
def loopHead : Nat → Parser Unit
  | 0 => fail
  | n + 1 => do
    if ← at_ "\x7b" then return
    if ← got "range" then
      discard (expr n)
      return
    let first ← if ← atKind .semicolon then pure Simple.assignment else simple n false true
    if first == .range then return
    if ← atKind .semicolon then
      discard advance
      unless ← atKind .semicolon do
        unless (← simple n false false) == .expression do fail
      unless ← atKind .semicolon do fail
      discard advance
      unless ← at_ "\x7b" do discard (simple n false false)
    else unless first == .expression do fail

/-- Parses a declaration of constants, variables or types. -/
def declaration : Nat → Parser Unit
  | 0 => fail
  | n + 1 => do
    let keyword := (← advance).text
    if ← got "(" then
      specifications n keyword
      expect ")"
    else specification n keyword
    semicolon

/-- Parses what a declaration declares, up to a closing bracket. -/
def specifications : Nat → String → Parser Unit
  | 0, _ => fail
  | n + 1, keyword => do
    if ← at_ ")" then return
    specification n keyword
    semicolon
    specifications n keyword

/-- Parses one item of a declaration. -/
def specification : Nat → String → Parser Unit
  | 0, _ => fail
  | n + 1, keyword => do
    if keyword == "import" then
      if (← atKind .name) || (← at_ ".") then discard advance
      unless ← atKind .literal do fail
      discard advance
    else if keyword == "type" then
      name
      if ← at_ "[" then bracketed n
      else do
        discard (got "=")
        type n
    else do
      names n
      let hasType ← type? n
      if ← got "=" then discard (exprs n)
      else if keyword == "var" && !hasType then fail

/-- Parses the declaration of a type, from a bracket on: type parameters or an array type. -/
def bracketed : Nat → Parser Unit
  | 0 => fail
  | n + 1 => do
    let isArray := (← thenAny ["]"]) || ((← get).ahead.drop 2).head?.any fun t =>
      t.kind == .symbol && (t.text == "]" || t.text == "." || binaryOperators.contains t.text)
    let startsWithName := ((← get).ahead.drop 1).head?.any (·.kind == .name)
    if isArray || !startsWithName then arrayType n
    else do
      expect "["
      typeParams n
      expect "]"
      discard (got "=")
      type n

end

/-- Parses a declared function, and records it if it is on one line. -/
def function (n : Nat) : Parser Unit := do
  let first := (← advance).line
  if ← at_ "(" then params n
  name
  if ← got "[" then
    typeParams n
    expect "]"
  signature n
  match ← peek with
  | some t =>
    if t.kind == .symbol && t.text == "\x7b" then
      block n
      if (← get).lastLine == first then
        modify fun s => { s with found := { s.found with
          functions := s.found.functions.push ⟨first, t.column⟩ } }
  | none => pure ()
  semicolon

/-- Parses the declarations of a file; imports come before all others. -/
def declarations : Nat → Bool → Parser Unit
  | 0, _ => fail
  | n + 1, importsAllowed => do
    if ← atEnd then return
    let isImport ← at_ "import"
    if isImport && !importsAllowed then fail
    if ← at_ "func" then function n
    else if ← atAny ["import", "const", "var", "type"] then declaration n
    else fail
    declarations n (importsAllowed && isImport)

/-- Parses a file. -/
def file (n : Nat) : Parser Unit := do
  expect "package"
  if (← peek).any (·.text == "_") then fail
  name
  semicolon
  declarations n true

end Parser

/-- The outline of a source. Each word is read within a bounded number of nested rules. -/
def outline (source : String) : Except Malformed Outline := do
  let words ← tokens source
  let fuel := 24 * (words.length + 1)
  let ((), s) ← (Parser.file fuel).run { ahead := words }
  return s.found

end Overlap.Source
