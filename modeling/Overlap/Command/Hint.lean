/-
  Hints that go with error messages.

  * `hint` is advice on a message, empty if there is none.
-/
import Overlap.Regex.Pattern

namespace Overlap.Command

/-- Whether a pattern matches somewhere in a message. -/
def mentions (pattern message : String) : Bool :=
  match Regex.parse pattern with
  | .ok r => r.search message
  | .error _ => false

/-- Advice on an error message. -/
def hint (message : String) : String :=
  if mentions "could not load program" message then
    if mentions "-: named files must be .go files: -(\\w)" message then
      "all command line flags should be before the path to the Go files to analyze"
    else "make sure you have provided the right arguments for an analyzer to load a Go program"
  else if mentions "could not find entry function" message then
    "set entry in the config file to the runtime name of the root function, e.g. main.main or " ++
      "example.com/pkg.(*Server).Run"
  else if mentions "could not read profile" message then
    "the profile path is relative to the directory of the config file"
  else ""

end Overlap.Command
