/-
  Abstract memory: which memory the pointers of a program refer to.

  A `PointerAnalysis` maps values to memory nodes and says when two nodes may
  be the same memory.  `baseObjects` is the analysis inside one function: the
  node of a pointer is the object its address is computed from, so two pointers
  share a node exactly if they are computed from the same object.
-/
import Overlap.Ssa.Names
import Overlap.Ssa.Object

namespace Overlap.Memory

open Ssa

/-- A map from values to abstract memory. -/
structure PointerAnalysis where
  Node : Type
  /-- The memory a value points to; none if the analysis knows of none. -/
  node? : Value → Option Node
  /-- Whether two nodes may be the same memory. -/
  same : Node → Node → Bool
  /-- The names of the objects a node stands for. -/
  labels : Node → List String

/-- Whether a value can be an object of its own: constants, functions and builtins are not. -/
def isObject : Value → Bool
  | .const _ | .function _ | .builtin _ => false
  | _ => true

/-- The object a pointer is computed from. -/
def baseNode? (P : Program) (v : Value) : Option Value :=
  let base := P.baseObject v
  if P.canPoint v && isObject base then some base else none

/-- The analysis in which memory is named by the object that an address is computed from. -/
def baseObjects (P : Program) : PointerAnalysis where
  Node := Value
  node? := baseNode? P
  same a b := decide (a = b)
  labels v := [P.displayName v]

end Overlap.Memory
