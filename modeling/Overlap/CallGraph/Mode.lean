/-
  The ways to compute a call graph.

  * `CallGraphMode` with its names, numbers and `CallGraphMode.parse`;
  * `CallGraphMode.compute` is the call graph of a program.
-/
import Overlap.Memory.PointsTo
import Overlap.Text.Blank
import Overlap.Text.Quoted

namespace Overlap

open Ssa

/-- How the callees of calls are found. -/
inductive CallGraphMode where
  /-- Only calls that name their callee, or that a profile has seen. -/
  | none
  | pointer | static | hierarchy | rapid | typeFlow
deriving DecidableEq, Repr, Inhabited

/-- Why there is no call graph. -/
inductive CallGraphError where
  | unknownName (name : String)
  | unsupported (number : Nat)
  | pointerWithoutMain
  | rapidWithoutMain
deriving DecidableEq, Repr

/-- The text of a points-to analysis that has nowhere to start. -/
def Memory.noMainMessage : String := "pointer analysis failed: pointer analysis requires a main package"

/-- The text of an error. -/
def CallGraphError.message : CallGraphError → String
  | .unknownName name => "unknown callgraph analysis " ++ Text.quote name
  | .unsupported n => "unsupported callgraph analysis mode " ++ toString n
  | .pointerWithoutMain => Memory.noMainMessage
  | .rapidWithoutMain => "rapid type analysis requires a main package"

namespace CallGraphMode

/-- The modes in the order of their numbers. -/
def all : List CallGraphMode := [.none, .pointer, .static, .hierarchy, .rapid, .typeFlow]

/-- The name of a mode. -/
def name : CallGraphMode → String
  | .none => "none"
  | .pointer => "pointer"
  | .static => "static"
  | .hierarchy => "cha"
  | .rapid => "rta"
  | .typeFlow => "vta"

/-- The number of a mode. -/
def number (m : CallGraphMode) : Nat := all.idxOf m

/-- The mode with a number. -/
def ofNumber (n : Nat) : Except CallGraphError CallGraphMode :=
  match all[n]? with
  | some m => .ok m
  | Option.none => .error (.unsupported n)

/-- The mode with a name, in any case and between blanks; no name is no call graph. -/
def parse (text : String) : Except CallGraphError CallGraphMode :=
  let key := Text.lower (Text.trim text)
  if key.isEmpty then .ok .none
  else match all.find? (·.name == key) with
    | some m => .ok m
    | Option.none => .error (.unknownName text)

/-- The call graph of a program, none if the mode computes none. -/
def compute (m : CallGraphMode) (P : Program) : Except CallGraphError (Option CallGraph) :=
  match m with
  | .none => .ok Option.none
  | .pointer =>
    if P.mainPackages.isEmpty then .error .pointerWithoutMain
    else .ok (some ((Memory.solve P).calls P))
  | .static => .ok (some P.staticCalls)
  | .hierarchy => .ok (some P.hierarchyCalls)
  | .rapid =>
    if P.startFunctions.isEmpty then .error .rapidWithoutMain else .ok (some P.rapidCalls)
  | .typeFlow => .ok (some P.typeFlowCalls)

end CallGraphMode

end Overlap
