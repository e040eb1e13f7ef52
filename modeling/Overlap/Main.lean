/-
  The command line.

  `main` reads the configuration that the arguments name, and prints what
  `Command.launch` answers.
-/
import Overlap.Command.Launch

open Overlap

/-- The file of a name, and what is known of it: nothing if it cannot be opened, a directory if it
    can be opened but not read. -/
def readNamed (name : String) : IO Files := do
  let opened : Option IO.FS.Handle ← try
      pure (some (← IO.FS.Handle.mk name .read))
    catch _ => pure none
  match opened with
  | none => return {}
  | some handle =>
    try return { entries := [(name, .text (← handle.readToEnd))] }
    catch _ => return { directories := [name] }

/-- Runs the tool on its arguments. -/
def main (args : List String) : IO UInt32 := do
  let files ← match Command.configOf? args with
    | some name => readNamed name
    | none => pure {}
  let outcome := Command.launch files args
  IO.print outcome.out
  IO.eprint outcome.err
  return outcome.status.toUInt32
