/-
  Control flow inside a function: paths between blocks, dominance, and the
  order of instructions.

  * `Program.hasPath` decides whether control can pass from a block to
    another one by at least one step, `Program.pathMatrix` does so for all;
  * `Program.dominates` says that control cannot enter a block without having
    passed another one, `Program.locDominates` the same of instructions;
  * `Program.before` is the program order of two instructions of a function:
    dominance, then reachability, then source position, then block number.
-/
import Overlap.Graph.Closure
import Overlap.Graph.Search
import Overlap.Ssa.Program

namespace Overlap.Ssa.Program

open Overlap.Graph

variable (P : Program)

/-- The numbers of the blocks of `f`. -/
def blockIds (f : Nat) : List Nat := List.range (P.blocks f).size

/-- The blocks control can pass to from the end of the block `b` of `f`. -/
def succs (f b : Nat) : List Nat := (((P.blocks f)[b]?).map (·.succs)).getD []

/-- The blocks from which control can pass to the block `b` of `f`, by number and as often as
    they do. -/
def preds (f b : Nat) : List Nat :=
  (P.blockIds f).flatMap fun a => List.replicate ((P.succs f a).count b) a

/-- Whether control can pass from block `a` to block `b` by at least one step. -/
def hasPath (f a b : Nat) : Bool := hasPathTo (P.succs f) (P.blocks f).size a b

/-- For each two blocks of `f` whether control can pass from the first to the second by at least
    one step. All answers come from one table. -/
def pathMatrix (f : Nat) : List (List Bool) :=
  let answerRow (a : Nat) : StateM (Option (PathTable Nat)) (List Bool) :=
    (P.blockIds f).mapM fun b => modifyGet (PathTable.query (P.succs f) (P.blocks f).size a b)
  ((P.blockIds f).mapM answerRow |>.run (some ∅)).1

/-- The blocks reachable from `root` without entering `avoid`. -/
def reachableAvoiding (f root avoid : Nat) : List Nat :=
  closure (P.blockIds f) (fun b => (P.succs f b).filter (· != avoid))
    (if root = avoid then [] else [root])

/-- The block from which control enters the block `b`: the entry of the function, or the
    recovery block for the blocks that only it leads to. -/
def rootOf (f b : Nat) : Nat :=
  if b ∈ closure (P.blockIds f) (P.succs f) [0] then 0
  else (((P.function? f).bind (·.body)).bind (·.recover)).getD 0

/-- Whether control enters block `b` only after block `a`. A block dominates itself. -/
def dominates (f a b : Nat) : Bool :=
  a == b || !(P.reachableAvoiding f (P.rootOf f b) a).contains b

/-- Whether the instruction at `a` is always executed before the one at `b`, both in the same
    function. An instruction dominates itself. -/
def locDominates (a b : Loc) : Bool :=
  if a = b then true
  else if a.block = b.block then a.index < b.index
  else P.dominates a.func a.block b.block

/-- Whether the source position of `a` precedes that of `b`; undecided if one of them is
    unknown or both are the same. -/
def positionOrder? (a b : Loc) : Option Bool := do
  let pa ← (← P.instr? a).pos
  let pb ← (← P.instr? b).pos
  if pa = pb then none else some (pa.before pb)

/-- Whether the instruction at `a` comes before the one at `b` in program order, both in the
    same function. Inside a block this is the order of the instructions. Across blocks `a` is
    before `b` if it dominates it, or else if only `a` can reach `b`; in the remaining cases,
    such as the two branches of a conditional, the source position decides, and the block
    number if the positions do not. -/
def before (a b : Loc) : Bool :=
  if a = b then false
  else if a.block = b.block then a.index < b.index
  else if P.dominates a.func a.block b.block then true
  else if P.dominates a.func b.block a.block then false
  else
    let forth := P.hasPath a.func a.block b.block
    let back := P.hasPath a.func b.block a.block
    if forth != back then forth
    else (P.positionOrder? a b).getD (a.block < b.block)

end Overlap.Ssa.Program
