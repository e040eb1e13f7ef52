/-
  Log lines.

  * `logged` is what a message adds to the log of a given verbosity.
-/
import Overlap.Config.Basic

namespace Overlap

/-- The word before the messages of a level. -/
def LogLevel.label : LogLevel → String
  | .error => "[ERROR] "
  | .warn => "[WARN] "
  | .info => "[INFO] "
  | .debug => "[DEBUG] "
  | .trace => "[TRACE] "

/-- A message as it is logged: it ends in a newline, which is added if there is none. -/
def LogLevel.line (level : LogLevel) (message : String) : String :=
  level.label ++ message ++ (if message.endsWith "\n" then "" else "\n")

/-- What a message adds to a log: nothing if its level is above the verbosity. -/
def logged (verbosity : Int) (level : LogLevel) (message : String) : String :=
  if level.number ≤ verbosity then level.line message else ""

end Overlap
