/-
  The global variables a function accesses, itself or through the functions it
  calls.

  An access is absent, a read or a change, in this order.  `Source.direct`
  collects the accesses made by the instructions of a function, and
  `Source.collect` joins them with those of its callees, in a table that is
  filled once per function.  While the accesses of a function are being
  collected, its entry holds what has been found so far.

  * `Access` and `Accesses` are the accesses to one and to all globals;
  * `Source.globalAccesses` answers for one function;
  * `sortedGlobals` lists the accessed globals by name.
-/
import Overlap.Effect.Query
import Overlap.Ssa.Names

namespace Overlap

open Ssa

/-- How a global variable is accessed; a change dominates a read. -/
inductive Access where
  | absent | read | change
deriving DecidableEq, Repr, Inhabited

namespace Access

/-- The stronger of two accesses. -/
def max : Access → Access → Access
  | .change, _ | _, .change => .change
  | .read, _ | _, .read => .read
  | .absent, .absent => .absent

/-- The name of an access. -/
def name : Access → String
  | .absent => "none"
  | .read => "read"
  | .change => "change"

/-- The access with a number: one is a read, two a change. -/
def ofNumber : Nat → Access
  | 1 => .read
  | 2 => .change
  | _ => .absent

/-- The access an effect on the memory of a global amounts to. -/
def ofEffect (e : Effect) : Access :=
  if e.mod then .change else if e.ref then .read else .absent

end Access

/-- The accesses to the globals of a program, by number. -/
abbrev Accesses := Array Access

namespace Accesses

/-- The accesses of a function that accesses nothing. -/
def empty (P : Program) : Accesses := .replicate P.globals.size .absent

/-- The access to one global. -/
def get (a : Accesses) (g : Nat) : Access := (a[g]?).getD .absent

/-- Adds an access to one global. -/
def add (a : Accesses) (g : Nat) (x : Access) : Accesses := a.modify g (·.max x)

/-- The stronger access to each global. -/
def join (a b : Accesses) : Accesses := a.zipWith Access.max b

end Accesses

/-- The accessed globals in the order of their full names. -/
def sortedGlobals (P : Program) (a : Accesses) : List Nat :=
  let accessed := (List.range P.globals.size).filter fun g => a.get g != .absent
  ((accessed.map fun g => (P.globalText none g, g)).mergeSort
    fun x y => decide (x.1 ≤ y.1)).map (·.2)

namespace Effect.Source

variable (S : Source)

/-- The accesses of a call that is not followed: globals passed by address to a builtin, or to
    a callee that is not known. -/
def callAccesses (site : Loc) (c : Call) (a : Accesses) : Accesses :=
  c.allArgs.zipIdx.foldl (fun a (arg, i) =>
    match S.program.accessedGlobal arg with
    | some g =>
      if S.program.canPoint arg then a.add g (.ofEffect (S.callArgumentEffect site i ∅).1) else a
    | .none => a) a

/-- The accesses of one instruction. -/
def instrAccesses (a : Accesses) (l : Loc) : Accesses :=
  let through := fun (addr : Value) (x : Access) =>
    match S.program.accessedGlobal addr with
    | some g => a.add g x
    | .none => a
  match S.program.op? l with
  | some (.unary .load addr _) => through addr .read
  | some (.store addr _) => through addr .change
  | some (.mapUpdate m _ _) => through m .change
  | some (.call c) => if (S.resolve l).isNone then S.callAccesses l c a else a
  | _ => a

/-- The accesses made by the instructions of `f`, calls to known functions left out. -/
def direct (f : Nat) : Accesses :=
  (S.program.locs f).foldl S.instrAccesses (Accesses.empty S.program)

/-- The functions called at the sites of `f`, in order and as often as they are called. -/
def calledFunctions (f : Nat) : List Nat := (S.program.callSites f).filterMap S.resolve

/-- The accesses collected so far, by function. -/
abbrev AccessMemo := Std.HashMap Nat Accesses

/-- The entry of a function in a table. -/
def entry (memo : AccessMemo) (f : Nat) : Accesses := (memo[f]?).getD (Accesses.empty S.program)

/-- Joins the accesses of `g` into those of `f`. -/
def joinInto (f g : Nat) (memo : AccessMemo) : AccessMemo :=
  memo.insert f ((S.entry memo f).join (S.entry memo g))

/-- Adds the accesses of `f` to a table, and those of all functions looked at on the way. Each
    function that was not in the table uses one unit of `fuel`; there is no table without
    fuel. -/
def collect : Nat → Nat → AccessMemo → Option AccessMemo
  | 0, _, _ => .none
  | fuel + 1, f, memo =>
    if memo.contains f then some memo
    else (S.calledFunctions f).foldlM (fun memo g => (collect fuel g memo).map (S.joinInto f g))
      (memo.insert f (S.direct f))

/-- The globals accessed by `f` and the functions it calls. -/
def globalAccesses (f : Nat) (memo : AccessMemo) : Accesses × AccessMemo :=
  let memo := (S.collect (S.program.functions.size + 1) f memo).getD memo
  (S.entry memo f, memo)

end Effect.Source

end Overlap
