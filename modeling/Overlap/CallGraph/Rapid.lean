/-
  Call graphs from the types and functions that a run can create.

  From the functions a run starts with, the analysis collects the functions
  that may run, the functions whose address is taken there, and the types of
  the values that are converted to interfaces there, together with all types
  that can be reached from these.  A call of a function value may run any
  function of its type whose address is taken; a call through an interface runs
  the method of any collected type that has all methods of the interface.

  * `Rapid` is what has been collected, `Rapid.callees` the callees of a call by it;
  * `rapidCalls` is the call graph.
-/
import Overlap.CallGraph.Hierarchy

namespace Overlap

open Ssa

/-! ## The types that can be reached from a type -/

namespace Ssa.Program

variable (P : Program)

/-- Whether a name is visible outside its package. -/
def isExported (name : String) : Bool := name.toList.head?.any Char.isUpper

/-- The methods of a type that interfaces may hold, by name. -/
def methodTable (t : Ty) : List (String × Nat) :=
  ((P.runtimeTypes.find? (·.type == t)).map (·.methods)).getD []

/-- The parameter and result types of a function type. -/
def signatureParts : Ty → List Ty
  | .func params results _ => params ++ results
  | _ => []

/-- The function types of the exported methods of a type. -/
def exportedSignatures (t : Ty) : List Ty :=
  if P.isInterface t then
    ((P.interfaceMethods t).filter fun m => isExported m.1).map (·.2)
  else
    ((P.methodTable t).filter fun m => isExported m.1).filterMap fun m =>
      (P.function? m.2).map (·.signature.type)

/-- The types one step away from a type: its parts, the type behind a name and the pointer to
    it, and what its exported methods take and return. -/
def typeParts (t : Ty) : List Ty :=
  (match t with
    | .basic _ | .interface .. => []
    | .pointer e | .slice e | .array _ e | .chan _ e => [e]
    | .map k e => [k, e]
    | .func params results _ => params ++ results
    | .tuple ts | .struct _ ts => ts
    | .named id => if (P.types[id]?).any (·.package.isSome) then [.pointer t, P.underlying t] else []) ++
  (P.exportedSignatures t).flatMap signatureParts

end Ssa.Program

/-! ## Collecting -/

/-- What a run of a program can create. -/
structure Rapid where
  functions : List Nat
  types : List Ty

namespace Rapid

variable (P : Program)

/-- The functions whose address an instruction takes: all but the called one. -/
def addressed (op : Op) : List Nat :=
  functionValues (match op with
    | .call c => c.args
    | op => op.operands)

/-- The functions whose address is taken in some functions. -/
def addressTaken (functions : List Nat) : List Nat :=
  functions.flatMap fun f => (P.locs f).flatMap fun l => ((P.op? l).map addressed).getD []

/-- The type of the value that an instruction converts to an interface. -/
def converted? (op : Op) : Option Ty :=
  match op with
  | .convert .makeInterface x => P.typeOf? x
  | _ => none

/-- The types converted to interfaces in some functions. -/
def convertedTypes (functions : List Nat) : List Ty :=
  functions.flatMap fun f => (P.locs f).filterMap fun l => (P.op? l).bind (converted? P)

variable (r : Rapid)

/-- The methods called `name` of the collected types that have all methods of an interface. -/
def methods (interface : Ty) (name : String) : List Nat :=
  (r.types.filter fun t => !P.isInterface t && P.implements t interface).filterMap fun t =>
    (P.methodTable t).lookup name

/-- The callees of a call among what has been collected. -/
def callees (taken : List Nat) (c : Call) : List Nat :=
  match P.staticCallee? c, c.method, c.builtin? with
  | some f, _, _ => [f]
  | none, some m, _ => ((P.typeOf? c.value).map fun t => r.methods P t m).getD []
  | none, none, none => taken.filter fun f =>
    (P.function? f).map (·.signature.type) == P.calledType? c
  | none, none, some _ => []

/-- The exported methods of the collected types, which may be called by their name at run time. -/
def exportedMethods : List Nat :=
  (r.types.filter fun t => !P.isInterface t).flatMap fun t =>
    ((P.methodTable t).filter fun m => Program.isExported m.1).map (·.2)

/-- The calls made in the collected functions. -/
def calls : CallGraph :=
  P.callEdges r.functions (r.callees P (addressTaken P r.functions).eraseDups)

/-- One more round of collecting; none if there is nothing new. -/
def grow? : Option Rapid :=
  let functions := (r.exportedMethods P ++ (r.calls P).filterMap (·.callee)).eraseDups.filter
    fun f => !r.functions.contains f
  let types := (convertedTypes P r.functions ++ r.types.flatMap P.typeParts).eraseDups.filter
    fun t => !r.types.contains t
  if functions.isEmpty && types.isEmpty then none
  else some ⟨r.functions ++ functions, r.types ++ types⟩

end Rapid

namespace Ssa.Program

variable (P : Program)

/-- A bound on the rounds of collecting: the functions, the parts of the types that are converted
    to interfaces, of the declared types and their pointers, and of the methods. -/
def rapidRounds : Nat :=
  P.functions.size + Ty.sizes (Rapid.convertedTypes P (List.range P.functions.size)) +
  Ty.sizes (P.types.toList.map (·.underlying)) + 2 * P.types.size +
  Ty.sizes (P.functions.toList.map (·.signature.type))

/-- The calls a run can make, by the types and functions it can create. -/
def rapidCalls : CallGraph :=
  let start : Rapid := ⟨P.startFunctions.eraseDups, []⟩
  (Graph.chase (fun r => r.grow? P) P.rapidRounds start).calls P

end Ssa.Program

end Overlap
