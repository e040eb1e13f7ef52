/-
  The commands and their options.

  * `AnalyzeOptions`, `RenderOptions` and `ServeOptions` are read from the
    arguments of their commands;
  * `describe` is the description of a command.
-/
import Overlap.Command.Flag
import Overlap.NodeSet

namespace Overlap.Command

/-- The commands of the tool. -/
inductive Name where
  | analyze | render | serve
deriving DecidableEq, Repr

/-- The command of a name. -/
def Name.ofText? : String → Option Name
  | "analyze" => some .analyze
  | "render" => some .render
  | "serve" => some .serve
  | _ => none

/-! ## Flags -/

/-- The flags of all commands. -/
def commonFlags : List Flag :=
  [⟨"config", .text, "config file path for analysis", ""⟩,
   ⟨"verbose", .switch, "verbose printing on standard output", "false"⟩,
   ⟨"with-test", .switch, "load tests during analysis", "false"⟩,
   ⟨"build-tags", .words, "a list of `build tags` to consider satisfied during the build. For more " ++
      "information about build tags, see the description of build constraints in the " ++
      "documentation for the go/build package", "<tagsFlag>"⟩]

/-- The flags of a command. -/
def Name.flags : Name → List Flag
  | .analyze => commonFlags ++
    [⟨"json", .switch, "print the report as a JSON document", "false"⟩,
     ⟨"sort", .text, "order of the groups. One of: score (dependencies and saving), time (saving " ++
        "only), stores (fewest stores first)", "score"⟩]
  | .render => commonFlags ++
    [⟨"function", .text, "runtime name of the function whose dependence graph is rendered (call " ++
        "tree if not specified)", ""⟩,
     ⟨"o", .text, "output file (standard output if not specified)", ""⟩,
     ⟨"cycles", .switch, "highlight the recursive cycles of the call tree", "false"⟩,
     ⟨"ssa", .switch, "print the SSA form of the function instead of its dependence graph", "false"⟩]
  | .serve => commonFlags ++ [⟨"addr", .text, "address the server listens on", ":8080"⟩]

/-! ## Descriptions -/

/-- What a command does, with examples. -/
def Name.about : Name → String
  | .analyze =>
    "Rank the groups of call sites that could run in parallel.\n" ++
    "Usage:\n" ++
    "  parpot analyze [options] <package path(s)>\n" ++
    "Examples:\n" ++
    "  % parpot analyze -config config.yaml main.go\n" ++
    "  % parpot analyze -config config.yaml -json -sort time ./...\n"
  | .render =>
    "Render the dependence graphs or the call tree of the parallelization potential analysis.\n" ++
    "Usage:\n" ++
    "  parpot render [options] <package path(s)>\n" ++
    "Examples:\n" ++
    "Render the call tree, with the recursive functions in red\n" ++
    "  % parpot render -config config.yaml -cycles -o calltree.dot package...\n" ++
    "Render the dependence graph of the call sites of main\n" ++
    "  % parpot render -config config.yaml -function main.main -o main.dot package...\n"
  | .serve =>
    "Run the analysis and serve its results over HTTP.\n" ++
    "Usage:\n" ++
    "  parpot serve [options] <package path(s)>\n" ++
    "Routes:\n" ++
    "  GET /nodesets                the reported groups, as JSON (?limit=n)\n" ++
    "  GET /nodesets/\x7brank\x7d         one group, as JSON\n" ++
    "  GET /functions/\x7bname\x7d/graph  the dependence graph of a function, as dot\n" ++
    "  GET /calltree                the call tree of the analysis, as dot\n" ++
    "  GET /report                  the text report\n" ++
    "Examples:\n" ++
    "  % parpot serve -config config.yaml -addr localhost:8080 main.go\n"

/-- The description of a command and of its flags. -/
def Name.describe (name : Name) : String := usage name.about name.flags

/-- The description of the tool. -/
def describe : String :=
  "Parpot: parallelization potential of Go programs\n" ++
  "Usage:\n" ++
  "  parpot [tool] [options] <Go file path(s)>\n" ++
  "Tools:\n" ++
  "  - analyze: ranks the groups of call sites that could run in parallel and prints their " ++
  "dependencies\n" ++
  "  - render: renders the dependence graph of a function, or the call tree of the analysis, as a " ++
  "dot graph\n" ++
  "  - serve: runs the analysis once and serves its results over HTTP\n" ++
  "Examples:\n" ++
  "  Rank the call sites of a program: parpot analyze -config config.yaml main.go\n" ++
  "  Render the dependence graph of main: parpot render -config config.yaml -function main.main " ++
  "-o main.dot main.go"

/-- The version of the tool. -/
def version : String := "0.3.0"

/-! ## Options -/

/-- The options of all commands. -/
structure CommonOptions where
  config : String
  verbose : Bool
  withTest : Bool
  /-- What follows the flags. -/
  args : List String
deriving Repr, Inhabited

/-- The options of `analyze`. -/
structure AnalyzeOptions where
  common : CommonOptions
  json : Bool
  order : NodeSet.Order
deriving Repr

/-- The options of `render`. -/
structure RenderOptions where
  common : CommonOptions
  /-- The function whose dependence graph is rendered; empty: the call tree is. -/
  function : String
  /-- The output file; empty: the standard output. -/
  out : String
  cycles : Bool
  ssa : Bool
deriving Repr, Inhabited

/-- The options of `serve`. -/
structure ServeOptions where
  common : CommonOptions
  addr : String
deriving Repr, Inhabited

/-- What is wrong with the arguments of a command. -/
inductive OptionError where
  | flag (e : FlagError)
  | order (name : String)
  | ssaWithoutFunction
deriving DecidableEq, Repr

/-- The text of an error. -/
def OptionError.message : OptionError → String
  | .flag e => e.message
  | .order name => "sort order " ++ Text.quote name ++ " not recognized"
  | .ssaWithoutFunction => "-ssa requires a -function"

/-- The order of a name. -/
def order? : String → Option NodeSet.Order
  | "score" => some .score
  | "time" => some .time
  | "stores" => some .stores
  | _ => none

/-- The options of all commands, from the flags of one. -/
def CommonOptions.ofParsed (flags : List Flag) (p : Parsed) : CommonOptions :=
  ⟨p.value flags "config", p.isOn flags "verbose", p.isOn flags "with-test", p.rest⟩

/-- Reads the options that all commands have. -/
def CommonOptions.parse (args : List String) : Except OptionError CommonOptions := do
  let p ← (Command.parse commonFlags args).mapError .flag
  return .ofParsed commonFlags p

/-- Reads the options of `analyze`. -/
def AnalyzeOptions.parse (args : List String) : Except OptionError AnalyzeOptions := do
  let flags := Name.analyze.flags
  let p ← (Command.parse flags args).mapError .flag
  match order? (p.value flags "sort") with
  | some order => return ⟨.ofParsed flags p, p.isOn flags "json", order⟩
  | none => throw (.order (p.value flags "sort"))

/-- Reads the options of `render`. -/
def RenderOptions.parse (args : List String) : Except OptionError RenderOptions := do
  let flags := Name.render.flags
  let p ← (Command.parse flags args).mapError .flag
  let o : RenderOptions := ⟨.ofParsed flags p, p.value flags "function", p.value flags "o",
    p.isOn flags "cycles", p.isOn flags "ssa"⟩
  if o.ssa && o.function.isEmpty then throw .ssaWithoutFunction
  return o

/-- Reads the options of `serve`. -/
def ServeOptions.parse (args : List String) : Except OptionError ServeOptions := do
  let flags := Name.serve.flags
  let p ← (Command.parse flags args).mapError .flag
  return ⟨.ofParsed flags p, p.value flags "addr"⟩

end Overlap.Command
