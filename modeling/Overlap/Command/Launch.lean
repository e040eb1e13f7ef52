/-
  What the tool does before it loads a program.

  * `launch` answers the arguments that need no program: it describes the tool
    and its commands, and reports wrong flags and configurations;
  * `configOf?` is the configuration it has to read for that.
-/
import Overlap.Command.Hint
import Overlap.Command.Options
import Overlap.Config.Load

namespace Overlap.Command

/-- What a run of the tool leaves: its exit status and what it has written. -/
structure Outcome where
  status : Nat := 0
  out : String := ""
  err : String := ""
deriving DecidableEq, Repr, Inhabited

/-- The end of a run that has failed, with a hint if there is one. -/
def Outcome.failed (message : String) : Outcome :=
  let advice := hint message
  { status := 2
    err := "error: " ++ message ++ "\n" ++ (if advice.isEmpty then "" else "Hint: " ++ advice ++ "\n") }

/-- The end of a run with wrong arguments: flags that cannot be read are described. -/
def Outcome.wrongOptions (name : Name) : OptionError → Outcome
  | .flag .help => { err := name.describe }
  | .flag e => { status := 2, err := e.message ++ "\n" ++ name.describe }
  | e => .failed e.message

/-- The options that all commands have, of a given command. -/
def Name.common (name : Name) (args : List String) : Except OptionError CommonOptions :=
  match name with
  | .analyze => (AnalyzeOptions.parse args).map (·.common)
  | .render => (RenderOptions.parse args).map (·.common)
  | .serve => (ServeOptions.parse args).map (·.common)

/-- Runs a command up to the point where it loads the program, which this tool cannot do. -/
def launchCommand (fs : Files) (name : Name) (args : List String) : Outcome :=
  match name.common args with
  | .error e => .wrongOptions name e
  | .ok options =>
    match Config.forCommand fs options.config options.verbose with
    | .error message => .failed message
    | .ok _ => .failed "could not load program: there is no front end for its language"

/-- The configuration that the arguments of the tool name. -/
def configOf? : List String → Option String
  | [] => none
  | first :: args => do
    let options ← ((← Name.ofText? first).common args).toOption
    if options.config.isEmpty then none else some options.config

/-- Answers the arguments of the tool. -/
def launch (fs : Files) : List String → Outcome
  | [] => { status := 2, err := "error: expected subcommand\n" ++ describe ++ "\n" }
  | first :: args =>
    if first == "-help" || first == "--help" then { out := describe ++ "\n" }
    else if first == "-version" || first == "--version" then { out := version ++ "\n" }
    else match Name.ofText? first with
      | some name => launchCommand fs name args
      | none =>
        { status := 2
          err := "error: unexpected command: " ++ first ++ "\nusage:\n" ++ describe ++ "\n" }

end Overlap.Command
