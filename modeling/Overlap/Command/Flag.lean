/-
  Flags on a command line.

  A flag is an argument `-name`, `-name=value` or `-name value`, with one or
  two dashes; flags end at the first other argument, or after `--`.

  * `parse` reads flags that are declared by a list of `Flag`;
  * `usage` describes them.
-/
import Overlap.Text.Quoted

namespace Overlap.Command

/-- What the value of a flag is. -/
inductive FlagKind where
  | text
  /-- A truth value, which may be left out. -/
  | switch
  /-- Words separated by blanks, which may be quoted. -/
  | words
deriving DecidableEq, Repr

/-- A flag that a command knows. -/
structure Flag where
  name : String
  kind : FlagKind
  /-- What the flag is for. -/
  purpose : String
  /-- The value of a flag that is not given. -/
  default : String
deriving Repr

/-- What is wrong with flags. -/
inductive FlagError where
  /-- Help is asked for. -/
  | help
  | badForm (argument : String)
  | unknown (name : String)
  | badSwitch (value name : String)
  | noValue (name : String)
  | badValue (value name reason : String)
deriving DecidableEq, Repr

/-- The text of an error; there is none if help is asked for. -/
def FlagError.message : FlagError → String
  | .help => ""
  | .badForm a => "bad flag syntax: " ++ a
  | .unknown name => "flag provided but not defined: -" ++ name
  | .badSwitch value name =>
    "invalid boolean value " ++ Text.quote value ++ " for -" ++ name ++ ": parse error"
  | .noValue name => "flag needs an argument: -" ++ name
  | .badValue value name reason =>
    "invalid value " ++ Text.quote value ++ " for flag -" ++ name ++ ": " ++ reason

/-- A truth value on the command line. -/
def truth? (value : String) : Option Bool :=
  if ["1", "t", "T", "TRUE", "true", "True"].contains value then some true
  else if ["0", "f", "F", "FALSE", "false", "False"].contains value then some false
  else none

/-- The quote that is not closed in a list of words, if there is one.  Only a word that starts
    with a quote is quoted. -/
def openQuote? : Nat → List Char → Option Char
  | 0, _ => none
  | fuel + 1, cs =>
    let blank (c : Char) : Bool := c == ' ' || c == '\t' || c == '\n' || c == '\r'
    match cs.dropWhile blank with
    | [] => none
    | c :: rest =>
      if c == '"' || c == '\'' then
        match rest.dropWhile (· != c) with
        | [] => some c
        | _ :: after => openQuote? fuel after
      else openQuote? fuel (rest.dropWhile fun c => !blank c)

/-- The flags that have been set, the latest first, and the arguments after the flags. -/
structure Parsed where
  values : List (String × String)
  rest : List String
deriving Repr, Inhabited

/-- The value of a flag after parsing. -/
def Parsed.value (flags : List Flag) (p : Parsed) (name : String) : String :=
  match p.values.find? (·.1 == name) with
  | some (_, v) => v
  | none => ((flags.find? (·.name == name)).map (·.default)).getD ""

/-- The value of a switch after parsing. -/
def Parsed.isOn (flags : List Flag) (p : Parsed) (name : String) : Bool :=
  truth? (p.value flags name) == some true

/-- The name and the value of an argument without its dashes; an equals sign that comes first
    separates nothing. -/
def splitFlag (argument : List Char) : String × Option String :=
  match argument with
  | [] => ("", none)
  | c :: cs =>
    let name := cs.takeWhile (· != '=')
    match cs.drop name.length with
    | [] => (String.ofList argument, none)
    | _ :: value => (String.ofList (c :: name), some (String.ofList value))

/-- Reads the flag at the front of `rest`, which is an argument without its dashes, and gives its
    name, its value and the arguments after it. -/
def readFlag (flags : List Flag) (argument : List Char) (rest : List String) :
    Except FlagError (String × String × List String) :=
  let (name, given) := splitFlag argument
  match flags.find? (·.name == name) with
  | none => .error (if name == "help" || name == "h" then .help else .unknown name)
  | some flag =>
    match flag.kind, given, rest with
    | .switch, none, _ => .ok (name, "true", rest)
    | .switch, some v, _ =>
      if (truth? v).isSome then .ok (name, v, rest) else .error (.badSwitch v name)
    | _, none, [] => .error (.noValue name)
    | kind, _, _ =>
      let (value, rest) := match given, rest with
        | some v, _ => (v, rest)
        | none, v :: rest => (v, rest)
        | none, [] => ("", [])
      match kind, openQuote? (value.length + 1) value.toList with
      | .words, some q => .error (.badValue value name (s!"unterminated {q} string"))
      | _, _ => .ok (name, value, rest)

/-- Reads the flags at the front of a command line; `values` are those set so far. -/
def parseFrom (flags : List Flag) :
    Nat → List (String × String) → List String → Except FlagError Parsed
  | 0, values, args => .ok ⟨values, args⟩
  | _ + 1, values, [] => .ok ⟨values, []⟩
  | fuel + 1, values, arg :: rest =>
    match arg.toList with
    | ['-', '-'] => .ok ⟨values, rest⟩
    | '-' :: c :: cs =>
      let body := if c == '-' then cs else c :: cs
      match body with
      | '-' :: _ | '=' :: _ => .error (.badForm arg)
      | _ =>
        match readFlag flags body rest with
        | .error e => .error e
        | .ok (name, value, rest) => parseFrom flags fuel ((name, value) :: values) rest
    | _ => .ok ⟨values, arg :: rest⟩

/-- Reads the flags at the front of a command line. -/
def parse (flags : List Flag) (args : List String) : Except FlagError Parsed :=
  parseFrom flags (args.length + 1) [] args

/-- The description of flags, by name, after that of their command. -/
def usage (about : String) (flags : List Flag) : String :=
  about ++ "\nOptions:\n" ++ String.join ((flags.mergeSort fun a b => a.name ≤ b.name).map fun f =>
    "  " ++ f.name ++ ": " ++ f.purpose ++ " (default: " ++ Text.quote f.default ++ ")\n")

end Overlap.Command
