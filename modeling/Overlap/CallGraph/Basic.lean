/-
  Call graphs, and the functions of a program.

  A call graph is a list of edges from call sites to callees.

  * `Program.allFunctions` are the functions of a program: those of packages and
    those they use;
  * `findFunction?` looks a function up by its runtime name, in any enumeration
    of the functions by `findAmong?`;
  * `CallGraph.uniqueCallee` is the callee of a call site, if there is only one.
-/
import Overlap.Graph.Closure
import Overlap.Ssa.Names

namespace Overlap

open Ssa

/-- A possible callee of a call site; an edge may lead to no function. -/
structure CallEdge where
  site : Loc
  callee : Option Nat
deriving DecidableEq, Repr, Inhabited

/-- The calls that a program may make. -/
abbrev CallGraph := List CallEdge

/-- The functions among some values. -/
def functionValues (vs : List Value) : List Nat :=
  vs.filterMap fun v => match v with
    | .function f => some f
    | _ => none

namespace Ssa.Program

variable (P : Program)

/-- The functions that the instructions of `f` use. -/
def usedFunctions (f : Nat) : List Nat :=
  (P.locs f).flatMap fun l => functionValues (((P.op? l).map (·.operands)).getD [])

/-- The functions declared in a package, and the methods of types that interfaces may hold. -/
def declaredFunctions : List Nat :=
  (List.range P.functions.size).filter (fun f =>
    (P.function? f).any fun fn => fn.package.isSome && fn.parent.isNone) ++
  P.runtimeTypes.flatMap fun t => t.methods.map (·.2)

/-- All functions of the program, by number: the declared ones and those that they use, in
    turn. -/
def allFunctions : List Nat :=
  let found := Graph.closure (List.range P.functions.size) P.usedFunctions P.declaredFunctions
  (List.range P.functions.size).filter found.contains

/-- Whether some source declares a function. -/
def isDeclared (f : Nat) : Bool := (P.function? f).any (·.synthetic.isEmpty)

/-- The first declared function of a list, or else its first one: wrappers share the name of
    the function they wrap. -/
def preferDeclared (fs : List Nat) : Option Nat := (fs.find? P.isDeclared).or fs.head?

/-- The function with a runtime name, where `order` enumerates the functions. -/
def findAmong? (order : List Nat) (name : String) : Option Nat :=
  P.preferDeclared (order.filter fun f => P.runtimeName f == name)

/-- The function with a runtime name. -/
def findFunction? (name : String) : Option Nat := P.findAmong? P.allFunctions name

/-- The import paths of the packages of the functions of the program, in order. -/
def allPackages : List String :=
  let ids := P.allFunctions.filterMap fun f => (P.function? f).bind (·.package)
  ((List.range P.packages.size).filter ids.contains).filterMap (fun p => (P.packages[p]?).map (·.path))
    |>.mergeSort fun a b => decide (a ≤ b)

end Ssa.Program

/-- The callees of a site in a call graph that have a body. -/
def CallGraph.bodiedCallees (g : CallGraph) (P : Program) (site : Loc) : List Nat :=
  ((g.filter (·.site == site)).filterMap (·.callee)).filter P.hasBody

/-- The callee of a site in a call graph, if there is only one with a body. -/
def CallGraph.uniqueCallee (g : CallGraph) (P : Program) (site : Loc) : Option Nat :=
  match g.bodiedCallees P site with
  | [] => none
  | f :: rest => if rest.all (· == f) then some f else none

end Overlap
