/-
  Call graphs from declarations alone.

  * `staticCalls`: the calls that name their callee;
  * `hierarchyCallees`: a call of a function value may run every function of
    its type, and a call of a method through an interface that method of every
    type with all methods of the interface.
-/
import Overlap.CallGraph.Basic
import Overlap.Ssa.MethodSet
import Overlap.Ssa.Text

namespace Overlap

open Ssa

/-- Whether a function is the one that initialises its package, which no value refers to. -/
def Ssa.Function.isInitializer (f : Function) : Bool :=
  f.name == "init" && f.synthetic == "package initializer"

namespace Ssa.Program

variable (P : Program)

/-- The edges of the calls made in some functions, where `callees` are those of a call. -/
def callEdges (functions : List Nat) (callees : Call → List Nat) : CallGraph :=
  functions.flatMap fun f => (P.callSites f).flatMap fun site =>
    match P.call? site with
    | some c => (callees c).map fun g => ⟨site, some g⟩
    | none => []

/-- The calls of a program that name their callee. -/
def staticCalls : CallGraph :=
  P.callEdges P.allFunctions fun c => (P.staticCallee? c).toList

/-- The functions among some that a function value of the type `t` may be. -/
def functionsOfType (functions : List Nat) (t : Ty) : List Nat :=
  functions.filter fun f => (P.function? f).any fun fn =>
    fn.receiver.isNone && !fn.isInitializer && fn.signature.type == t

/-- The methods among some functions that have a name and whose receiver has all methods of
    an interface. -/
def methodsImplementing (functions : List Nat) (interface : Ty) (name : String) : List Nat :=
  functions.filter fun f => (P.function? f).any fun fn =>
    fn.name == name && fn.receiver.any fun r => P.implements r interface

/-- The functions among some that a call may run by its type. -/
def hierarchyCallees (functions : List Nat) (c : Call) : List Nat :=
  match P.staticCallee? c, c.method, c.builtin? with
  | some f, _, _ => [f]
  | none, some m, _ => ((P.typeOf? c.value).map fun t => P.methodsImplementing functions t m).getD []
  | none, none, none => ((P.calledType? c).map (P.functionsOfType functions)).getD []
  | none, none, some _ => []

/-- The calls of a program by the types of the called values. -/
def hierarchyCalls : CallGraph :=
  let functions := P.allFunctions
  P.callEdges functions (P.hierarchyCallees functions)

/-! ## Where a program starts -/

/-- The function with a name that a package declares. -/
def packageFunction? (package : Nat) (name : String) : Option Nat :=
  (List.range P.functions.size).find? fun f => (P.function? f).any fun fn =>
    fn.name == name && fn.package == some package && fn.parent.isNone && fn.receiver.isNone

/-- The main packages that have a `main` function. -/
def mainPackages : List Nat :=
  (List.range P.packages.size).filter fun p =>
    P.isMain (some p) && (P.packageFunction? p "main").isSome

/-- The functions a run of the program starts with: the initialisation and the `main` function of
    each main package. -/
def startFunctions : List Nat :=
  P.mainPackages.flatMap fun p => ["init", "main"].filterMap (P.packageFunction? p)

end Ssa.Program

end Overlap
