/-
  The object an address belongs to.

  * `Program.stripCasts` undoes conversions that keep the memory of a value;
  * `Program.baseObject` also undoes field selection, indexing and slicing;
  * `Program.accessedGlobal` is the global whose memory an address points into,
    directly or through one load;
  * `Program.isFreshAllocation` recognises new memory, and
    `Program.storeCount` counts the writes of a function.
-/
import Overlap.Graph.Closure
import Overlap.Ssa.Program

namespace Overlap.Ssa.Program

open Overlap.Graph

variable (P : Program)

/-- The operand of a conversion that keeps the memory of its operand. -/
def castOperand? (v : Value) : Option Value :=
  match P.definition? v with
  | some (.convert _ x) => some x
  | _ => none

/-- The operand from which an address inside the same object is computed. -/
def addressOperand? (v : Value) : Option Value :=
  match P.definition? v with
  | some (.convert _ x) | some (.fieldAddr x _) | some (.indexAddr x _) | some (.slice x ..) =>
    some x
  | _ => none

/-- A value before the conversions that do not change the memory it refers to. -/
def stripCasts (v : Value) : Value := chase P.castOperand? (P.instrCount + 1) v

/-- The value that holds the address of the object `v` points into: an allocation, a global, a
    parameter, a captured variable, a call result, a load, or whatever else makes a pointer. -/
def baseObject (v : Value) : Value := chase P.addressOperand? (P.instrCount + 1) v

/-- Whether a value is memory that has just been allocated, and so is not nil. -/
def isFreshAllocation (v : Value) : Bool :=
  match P.definition? (P.stripCasts v) with
  | some (.alloc ..) | some (.makeMap _) | some (.makeSlice ..) | some (.makeChan _)
  | some (.makeClosure ..) => true
  | _ => false

/-- The value that a load of the memory of `v` is computed from, `v` itself if it is no load. -/
def throughLoad (v : Value) : Value :=
  match (P.definition? v).bind (·.load?) with
  | some addr => P.baseObject addr
  | none => v

/-- The global whose memory an address points into, either directly or through the reference
    stored in the global. -/
def accessedGlobal (addr : Value) : Option Nat :=
  match P.throughLoad (P.baseObject addr) with
  | .global g => some g
  | _ => none

/-- The number of instructions of `f` that write memory: stores and map updates. -/
def storeCount (f : Nat) : Nat :=
  (P.locs f).countP fun l => match P.op? l with
    | some (.store ..) | some (.mapUpdate ..) => true
    | _ => false

end Overlap.Ssa.Program
