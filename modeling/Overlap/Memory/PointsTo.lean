/-
  Points-to analysis of a whole program.

  The least sets of targets that satisfy the constraints of all reachable
  copies are found by rounds: a round applies every constraint once, and the
  rounds end when none adds a target.

  * `Solution` maps cells to their targets, `solve` finds it;
  * `PointsTo.targets` is what a value points to, in all copies together;
  * `PointsTo.calls` is the call graph, `pointsTo` the pointer analysis.
-/
import Overlap.Memory.Constraint
import Overlap.Memory.Nodes
import Std.Data.HashMap

namespace Overlap.Memory

open Ssa

/-- The targets found so far. -/
abbrev Solution := Std.HashMap Cell (List Target)

namespace Solution

/-- The targets of a cell. -/
def get (s : Solution) (c : Cell) : List Target := (s[c]?).getD []

/-- Adds targets to a cell, and says whether any is new. -/
def add (s : Solution) (c : Cell) (targets : List Target) : Solution × Bool :=
  let old := s.get c
  match targets.eraseDups.filter fun t => !old.contains t with
  | [] => (s, false)
  | new => (s.insert c (old ++ new), true)

end Solution

variable (P : Program)

/-- The type of the value in the interface values that point to an object. -/
def Object.held? : Object → Option Ty
  | .made _ l => match P.op? l with
    | some (.convert .makeInterface x) => P.typeOf? x
    | _ => none
  | _ => none

/-- The slots of the value in an interface value. -/
def Object.contents (o : Object) (type : Ty) : List Cell :=
  (List.range (P.slots type)).map fun i => .inside ⟨o, 1 + i⟩

/-- The method of the value in an interface value. -/
def Object.method? (o : Object) (name : String) : Option Nat := do
  (P.methodTable (← o.held? P)).lookup name

/-- The functions a set of targets holds. -/
def functionTargets (targets : List Target) : List Nat :=
  targets.filterMap fun t => match t.object with
    | .function f => some f
    | _ => none

/-- The targets that a constraint puts into cells, given those found so far. -/
def Constraint.effect (s : Solution) : Constraint → List (Cell × List Target)
  | .address dst target => [(dst, [target])]
  | .copy dst src => [(dst, s.get src)]
  | .load dst pointer offset =>
    (s.get pointer).map fun t => (dst, s.get (.inside ⟨t.object, t.slot + offset⟩))
  | .store pointer src offset =>
    (s.get pointer).map fun t => (.inside ⟨t.object, t.slot + offset⟩, s.get src)
  | .shift dst pointer offset =>
    [(dst, (s.get pointer).map fun t => ⟨t.object, t.slot + offset⟩)]
  | .filter dst src interface =>
    [(dst, (s.get src).filter fun t => (t.object.held? P).any (P.implements · interface))]
  | .unwrap dst src type => (s.get src).flatMap fun t =>
    if t.object.held? P == some type then
      dst.zipWith (fun d c => (d, s.get c)) (t.object.contents P type)
    else []
  | .call function args results => (functionTargets (s.get function)).flatMap fun f =>
    passed ⟨f, []⟩ args results
  | .invoke receiver method args results => (s.get receiver).flatMap fun t =>
    match t.object.method? P method with
    | some f =>
      let held := ((t.object.held? P).map (t.object.contents P)).getD []
      passed ⟨f, []⟩ (held ++ args) results
    | none => []
where
  /-- The arguments of a call go to the parameters, and what is returned to its results. -/
  passed (callee : Copy) (args results : List Cell) : List (Cell × List Target) :=
    (callee.paramCells P).zipWith (fun p a => (p, s.get a)) args ++
      results.zipWith (fun r c => (r, s.get c)) (callee.resultCells P)

/-- Applies every constraint once; none if nothing is new. -/
def round? (constraints : List Constraint) (s : Solution) : Option Solution :=
  let (s, grown) := constraints.foldl (fun acc c =>
    (c.effect P acc.1).foldl (fun acc e =>
      let (s, new) := acc.1.add e.1 e.2
      (s, acc.2 || new)) acc) (s, false)
  if grown then some s else none

/-- The cells that a constraint may write, other than those of objects. -/
def Constraint.size : Constraint → Nat
  | .unwrap dst _ _ => dst.length
  | .call _ _ results | .invoke _ _ _ results => results.length
  | _ => 1

/-- A bound on the rounds: each adds a target to a cell, and both cells and targets are slots of
    objects, of parameters and results, or written by a constraint. -/
def roundBound (copies : List Copy) (constraints : List Constraint) : Nat :=
  let results (f : Nat) : Nat :=
    ((P.locs f).map fun l => P.nesting (P.typeOf (.result l)) + 1).foldr (· + ·) 0
  let slots := (copies.map fun c =>
    (c.paramCells P).length + (c.resultCells P).length + results c.func).foldr (· + ·) 0
  let fixed := P.slotSum (P.globals.toList.map (·.type)) + P.functions.size
  let cells := slots + fixed + (constraints.map Constraint.size).foldr (· + ·) 0 + 1
  cells * cells

/-- What a whole program points to. -/
structure PointsTo where
  copies : List Copy
  solution : Solution
  /-- The values whose targets reachable code asks for. -/
  used : List Value

/-- Solves the constraints of all copies that a run can reach. -/
def solve : PointsTo :=
  let reached := copies P
  let constraints := fixedConstraints P ++ reached.flatMap (·.constraints P)
  { copies := reached
    solution := Graph.chase (round? P constraints) (roundBound P reached constraints) ∅
    used := ((reached.map (·.func)).eraseDups.flatMap (pointerUses P) ++
      (startCopies P).map fun c => Value.function c.func).eraseDups }

namespace PointsTo

variable (r : PointsTo)

/-- The copies of a function that a run can reach. -/
def copiesOf (f : Nat) : List Copy := r.copies.filter (·.func == f)

/-- What a value points to, in all copies of its function. Nothing asks for the targets of a
    global or a function that is not used as a value. -/
def targets (v : Value) : List Target :=
  match v with
  | .result ⟨f, _, _⟩ | .param f _ =>
    ((r.copiesOf f).flatMap fun c => r.solution.get (c.cell v 0)).eraseDups
  | .global _ | .function _ => if r.used.contains v then r.solution.get (.value none v 0) else []
  | v => r.solution.get (.value none v 0)

/-- The functions that a call may run in a copy. -/
def callees (c : Copy) (call : Call) : List Nat :=
  let called := r.solution.get (c.cell call.value 0)
  match call.builtin?, P.staticCallee? call, call.method with
  | some _, _, _ => []
  | none, some f, _ => [f]
  | none, none, some m => called.filterMap fun t => t.object.method? P m
  | none, none, none => functionTargets called

/-- The calls of the reachable functions. -/
def calls : CallGraph :=
  ((r.copies.map (·.func)).eraseDups.flatMap fun f =>
    P.callEdges [f] fun call => ((r.copiesOf f).flatMap fun c => r.callees P c call).eraseDups)

end PointsTo

/-! ## Memory nodes -/

/-- The name of an object. -/
def Object.label : Object → String
  | .global g => P.valueText none (.global g)
  | .function f => P.funcString f
  | .made _ l => match P.op? l with
    | some (.alloc comment _) => if comment.isEmpty then "alloc" else comment
    | some (.makeSlice ..) => "makeslice"
    | some (.makeChan _) => "makechan"
    | some (.makeMap _) => "makemap"
    | some (.convert .makeInterface x) => "makeinterface:" ++ P.valueTypeText none x
    | some (.convert ..) => "convert"
    | some (.call _) => "append"
    | _ => "<unknown>"

/-- The paths to the slots of an object. -/
def Object.paths : Object → List String
  | .global g => P.slotPaths (P.pointee (P.typeOf (.global g)))
  | .function _ => [""]
  | .made _ l =>
    let t := P.typeOf (.result l)
    match P.op? l, P.underlying t with
    | some (.alloc ..), _ => P.slotPaths (P.pointee t)
    | _, .slice e => P.slotPaths (.array 1 e)
    | _, .chan _ e => P.slotPaths e
    | _, .map k e => P.slotPaths k ++ P.slotPaths e
    | _, _ => [""]

/-- The name of a slot of an object. -/
def Target.label (t : Target) : String :=
  t.object.label P ++ ((t.object.paths P)[t.slot]?).getD ""

/-- The values that the instructions of some functions use or compute and that refer to memory. -/
def mentioned (functions : List Nat) : List Value :=
  (functions.flatMap fun f => (P.locs f).flatMap fun l =>
    ((P.op? l).map (·.operands)).getD [] ++ (if P.isValue l then [.result l] else []))
    |>.eraseDups.filter P.canPoint

/-- The pointer analysis of a whole program, for the values that the functions in scope mention. -/
def pointsTo (inScope : Nat → Bool) : PointerAnalysis :=
  let result := solve P
  let known := (mentioned P (P.allFunctions.filter inScope)).filterMap fun v =>
    match v with
    | .const _ => none
    | v => match result.targets v with
      | [] => none
      | targets => some (v, targets)
  let table : Std.HashMap Value (List Target) := .ofList known
  { Node := List Target
    node? := (table[·]?)
    same := fun a b => a.any b.contains
    labels := fun targets => (targets.map (·.label P)).eraseDups.mergeSort fun a b => decide (a ≤ b) }

end Overlap.Memory
