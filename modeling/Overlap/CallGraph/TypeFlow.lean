/-
  Call graphs from the types that flow to called values.

  A graph of *places* says where values come from: a place is a value, a part
  of all values of a type (fields, elements, keys, what a channel holds), or
  all memory of a pointer type.  Every place starts with its own type, or with
  the function it is, and passes on what it has.  A call runs those of its
  callees by type that flow to the called value, or whose receiver type does.
  Flow is followed inside the functions a run starts with.

  * `Place` and `Place.type?`;
  * `flows` are the edges of one instruction;
  * `typeFlowCalls` is the call graph.
-/
import Overlap.CallGraph.Rapid

namespace Overlap

open Ssa

/-- Where values can be. -/
inductive Place where
  | value (v : Value)
  | function (f : Nat)
  | constant (type : Ty)
  /-- The memory behind the pointers of a type. -/
  | memory (pointer : Ty)
  /-- The memory behind pointers to pointers to an interface. -/
  | interfaceMemory (interface : Ty)
  /-- The memory behind pointers to pointers to functions of a type. -/
  | functionMemory (function : Ty)
  | field (struct : Ty) (index : Int)
  /-- The elements of slices and arrays with elements of a type. -/
  | elem (type : Ty)
  | mapKey (type : Ty)
  | mapValue (type : Ty)
  | chan (type : Ty)
  /-- A component of the tuple that the instruction at `loc` computes. -/
  | component (loc : Loc) (index : Nat) (type : Ty)
  | panicked
  | recovered
deriving BEq, Inhabited

/-- What can flow to a place. -/
inductive Flowing where
  | type (t : Ty)
  | function (f : Nat)
deriving BEq

namespace Ssa.Program

variable (P : Program)

/-- Whether a type is a function type. -/
def isFunctionType (t : Ty) : Bool :=
  match P.underlying t with
  | .func .. => true
  | _ => false

/-- The type of a kind that a chain of at least one pointer leads to. -/
def behindPointers (kind : Ty → Bool) : Nat → Ty → Option Ty
  | 0, _ => none
  | fuel + 1, t => match P.underlying t with
    | .pointer e => if kind e then some e else behindPointers kind fuel e
    | _ => none

/-- A bound on the pointers in a chain. -/
def pointerDepth (t : Ty) : Nat := t.size + Ty.sizes (P.types.toList.map (·.underlying)) + 1

/-- The interface that a chain of pointers leads to. -/
def interfaceBehind (t : Ty) : Option Ty := P.behindPointers P.isInterface (P.pointerDepth t) t

/-- The function type that a chain of pointers leads to. -/
def functionBehind (t : Ty) : Option Ty := P.behindPointers P.isFunctionType (P.pointerDepth t) t

/-- The place of a value that is not memory. -/
def ownPlace : Value → Place
  | .function f => .function f
  | v@(.const c) => ((P.constants[c]?).map fun k => Place.constant k.type).getD (.value v)
  | v => .value v

/-- The place of a value: pointers stand for the memory of their type, unless they lead to an
    interface or a function directly. -/
def place (v : Value) : Place :=
  match P.typeOf? v with
  | some (.pointer e) =>
    if P.isInterface e || P.isFunctionType e then P.ownPlace v
    else match P.interfaceBehind e, P.functionBehind e with
      | some i, _ => .interfaceMemory i
      | none, some f => .functionMemory f
      | none, none => .memory (.pointer e)
  | _ => P.ownPlace v

/-- The type of the elements of a slice, an array or a pointer to an array. -/
def elemType (t : Ty) : Ty :=
  match P.underlying t with
  | .slice e | .array _ e => e
  | .pointer a => match P.underlying a with
    | .array _ e => e
    | _ => .basic "uint8"
  | _ => .basic "uint8"

/-- The type of what a channel carries. -/
def carriedType (t : Ty) : Ty :=
  match P.underlying t with
  | .chan _ e => e
  | t => t

/-- The type of a field of a structure. -/
def fieldType? (struct : Ty) (index : Int) : Option Ty :=
  match P.underlying struct with
  | .struct _ types => if index < 0 then none else types[index.toNat]?
  | _ => none

/-- The type of a value; that of a builtin is an empty tuple. -/
def typeOf (v : Value) : Ty := (P.typeOf? v).getD (.tuple [])

end Ssa.Program

namespace Place

variable (P : Program)

/-- The type of what a place holds. -/
def type? : Place → Option Ty
  | .value v => P.typeOf? v
  | .function f => P.typeOf? (.function f)
  | .constant t | .memory t | .interfaceMemory t | .functionMemory t | .elem t | .mapKey t
  | .mapValue t | .chan t | .component _ _ t => some t
  | .field s i => P.fieldType? s i
  | .panicked | .recovered => none

/-- Whether anything of interest can flow to a place: to interfaces, functions, and what points
    to them. -/
def receives (d : Place) : Bool :=
  match d with
  | .panicked | .recovered => true
  | d => (d.type? P).any fun t => P.isInterface t || P.isFunctionType t ||
      (P.interfaceBehind t).isSome || (P.functionBehind t).isSome

/-- Whether a place is memory that another place may share. -/
def isShared (d : Place) : Bool :=
  match d with
  | .interfaceMemory _ | .functionMemory _ => true
  | d => match d.type? P with
    | some (.pointer _) => true
    | _ => false

/-- What a place starts with. -/
def initial (d : Place) : List Flowing :=
  match d with
  | .panicked | .recovered | .interfaceMemory _ | .functionMemory _ => []
  | .function f => [.function f]
  | d => ((d.type? P).filter fun t => !P.isInterface t).toList.map .type

end Place

/-! ## Flow through instructions -/

/-- What flows from a place to another. -/
structure Flow where
  source : Place
  target : Place
deriving BEq

namespace TypeFlow

variable (P : Program)

/-- Flow into a place, if it can receive any. -/
def into (target source : Place) : List Flow :=
  if target.receives P then [⟨source, target⟩] else []

/-- Flow into a place, and back if both are memory. -/
def sharing (target source : Place) : List Flow :=
  into P target source ++
    if target.isShared P && source.isShared P then into P source target else []

/-- Flow in both directions. -/
def both (a b : Place) : List Flow := into P a b ++ into P b a

/-- Flow through the cases of a `select` at a place, where `k` receives come before. -/
def selectFlows (l : Loc) : Nat → List (Value × Option Value) → List Flow
  | _, [] => []
  | k, (channel, some sent) :: rest =>
    sharing P (.chan (P.carriedType (P.typeOf channel))) (P.place sent) ++ selectFlows l k rest
  | k, (channel, none) :: rest =>
    let t := P.carriedType (P.typeOf channel)
    sharing P (.component l (2 + k) t) (.chan t) ++ selectFlows l (k + 1) rest

/-- Flow from the arguments of a call to the parameters of a callee. The receiver of a method
    called through an interface flows only to a function type. -/
def argumentFlows (c : Call) (callee : Nat) : List Flow :=
  match (P.function? callee).map (·.params.size) with
  | none | some 0 => []
  | some size =>
    let receiver := .param callee 0
    let viaReceiver :=
      if c.method.isSome && P.isFunctionType (P.typeOf receiver) then
        into P (P.place receiver) (P.place c.value)
      else []
    let offset := if c.method.isSome then 1 else 0
    viaReceiver ++ c.args.zipIdx.flatMap fun (arg, i) =>
      if i + offset < size then sharing P (P.place (.param callee (i + offset))) (P.place arg) else []

/-- Flow from what a function returns to what a call of it computes. -/
def returnFlows (results : List Value) (site : Loc) : List Flow :=
  match results with
  | [r] => into P (P.place (.result site)) (P.place r)
  | rs => (rs.zip ((P.typeOf (.result site)).components)).zipIdx.flatMap fun ((r, t), i) =>
    into P (.component site i t) (P.place r)

/-- Whether a panic with a value of the type matters: its type can have methods. -/
def panics : Ty → Bool
  | .named _ | .interface .. | .func .. | .struct .. => true
  | _ => false

/-- Flow through the instruction at a place, where `callees` are those of a call by type and
    `callers` the sites that may call the function around it. -/
def flows (callees : Call → List Nat) (callers : Nat → List Loc) (l : Loc) (op : Op) : List Flow :=
  let result := P.place (.result l)
  match op with
  | .store addr val => sharing P (P.place addr) (P.place val)
  | .unary .load x _ => sharing P result (P.place x)
  | .unary .receive x _ => sharing P result (.chan (P.carriedType (P.typeOf x)))
  | .convert .makeInterface x | .convert .changeInterface x => into P result (P.place x)
  | .convert .changeType x => sharing P result (P.place x)
  | .typeAssert x asserted commaOk =>
    into P (if commaOk then .component l 0 asserted else result) (P.place x)
  | .makeClosure f bindings =>
    into P result (.function f) ++ bindings.zipIdx.flatMap fun (b, i) =>
      sharing P (P.place (.freeVar f i)) (P.place b)
  | .phi edges _ => edges.flatMap fun e => sharing P result (P.place e)
  | .extract x i => match x with
    | .result tuple => match (P.typeOf x).components[i.toNat]? with
      | some t => sharing P result (.component tuple i.toNat t)
      | none => []
    | _ => []
  | .field x i => into P result (.field (P.typeOf x) i)
  | .fieldAddr x i => match P.underlying (P.typeOf x) with
    | .pointer s => both P (.field s i) result
    | _ => []
  | .send channel x => sharing P (.chan (P.carriedType (P.typeOf channel))) (P.place x)
  | .select cases _ => selectFlows P l 0 cases
  | .index x _ => sharing P result (.elem (P.elemType (P.typeOf x)))
  | .indexAddr x _ => both P (.elem (P.elemType (P.typeOf x))) result
  | .lookup x _ _ => match P.underlying (P.typeOf x) with
    | .map _ e => sharing P result (.mapValue e)
    | _ => []
  | .mapUpdate m key val => match P.underlying (P.typeOf m) with
    | .map k e => sharing P (.mapKey k) (P.place key) ++ sharing P (.mapValue e) (P.place val)
    | _ => []
  | .next _ false => match (P.typeOf (.result l)).components with
    | [_, k, e] =>
      sharing P (.component l 1 k) (.mapKey k) ++ sharing P (.component l 2 e) (.mapValue e)
    | _ => []
  | .panic x => if panics (P.typeOf x) then into P .panicked (P.place x) else []
  | .call c =>
    if c.builtin? == some "recover" then
      if P.isValue l then into P result .recovered else []
    else (callees c).flatMap (argumentFlows P c)
  | .ret results => (callers l.func).flatMap (returnFlows P results)
  | _ => []

/-- The flow inside some functions. -/
def graph (functions : List Nat) (callees : Call → List Nat) (callers : Nat → List Loc) :
    List Flow :=
  into P .recovered .panicked ++ functions.flatMap fun f => (P.locs f).flatMap fun l =>
    ((P.op? l).map (flows P callees callers l)).getD []

/-- What flows to a value along some edges: what the places start with from which it can be
    reached. -/
def arriving (edges : List Flow) (v : Value) : List Flowing :=
  let places := (edges.flatMap fun e => [e.source, e.target]).eraseDups
  let number (p : Place) := places.idxOf p
  let steps := edges.map fun e => (number e.source, number e.target)
  let before (i : Nat) := (steps.filter (·.2 == i)).map (·.1)
  if places.contains (.value v) then
    (Graph.closure (List.range places.length) before [number (.value v)]).flatMap fun i =>
      ((places[i]?).map (Place.initial P)).getD []
  else []

/-- The function a call runs when `x` flows to the called value. -/
def callee? (c : Call) (x : Flowing) : Option Nat :=
  match x, c.method with
  | .function f, _ => some f
  | .type t, some m => (P.methodTable t).lookup m
  | .type _, none => none

end TypeFlow

/-- The calls in the functions a run starts with, by the types that flow to the called values. -/
def Ssa.Program.typeFlowCalls (P : Program) : CallGraph :=
  let functions := P.allFunctions
  let byType := P.hierarchyCallees functions
  let all := P.hierarchyCalls
  let callers (f : Nat) := (all.filter fun e => e.callee == some f && P.isValue e.site).map (·.site)
  let start := P.startFunctions
  let edges := TypeFlow.graph P start byType callers
  P.callEdges start fun c => match P.staticCallee? c with
    | some f => [f]
    | none =>
      let arrived := (TypeFlow.arriving P edges c.value).filterMap (TypeFlow.callee? P c)
      (byType c).filter arrived.contains

end Overlap
