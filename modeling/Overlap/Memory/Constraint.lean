/-
  Which memory the instructions of a program move where.

  Memory consists of *cells*: the slots of values, of results and of objects.
  A cell holds a set of targets, the object slots it may point to, and each
  instruction relates the sets of some cells.  A function is analysed in one
  copy for all its callers, except that a small function that calls no other
  has a copy for each call that names it.

  * `Copy`, `Object`, `Target`, `Cell` are what is related;
  * `Constraint` is a relation between cells, `Copy.constraints` are those of a copy;
  * `copies` are the copies that a run can reach.
-/
import Overlap.CallGraph.TypeFlow
import Overlap.Memory.Layout

namespace Overlap.Memory

open Ssa

/-- A copy of a function: the one shared by all callers, or the one for a chain of calls, the
    innermost first. -/
structure Copy where
  func : Nat
  calls : List Loc
deriving DecidableEq, Hashable, Repr, Inhabited

/-- A piece of memory. -/
inductive Object where
  /-- What the instruction at `loc` creates when it runs in a copy. -/
  | made (copy : Copy) (loc : Loc)
  | global (id : Nat)
  | function (id : Nat)
deriving DecidableEq, Hashable, Repr, Inhabited

/-- A slot of an object, which pointers can point to. -/
structure Target where
  object : Object
  slot : Nat
deriving DecidableEq, Hashable, Repr, Inhabited

/-- A slot that holds pointers. -/
inductive Cell where
  /-- A slot of a value; parameters and registers exist once in each copy of their function. -/
  | value (copy : Option Copy) (v : Value) (slot : Nat)
  /-- A slot of what a copy returns. -/
  | returned (copy : Copy) (slot : Nat)
  /-- A slot of an object. -/
  | inside (target : Target)
  /-- A slot of the elements that the instruction at `loc` moves. -/
  | moved (copy : Copy) (loc : Loc) (slot : Nat)
  /-- What panics pass to the functions that recover from them. -/
  | panicked
deriving DecidableEq, Hashable, Repr, Inhabited

/-- A relation between the targets of cells. -/
inductive Constraint where
  | address (dst : Cell) (target : Target)
  | copy (dst src : Cell)
  /-- Read the memory behind a pointer, `offset` slots further. -/
  | load (dst pointer : Cell) (offset : Nat)
  /-- Write the memory behind a pointer, `offset` slots further. -/
  | store (pointer src : Cell) (offset : Nat)
  /-- Move a pointer by `offset` slots. -/
  | shift (dst pointer : Cell) (offset : Nat)
  /-- Keep the values in interfaces that have all methods of an interface. -/
  | filter (dst src : Cell) (interface : Ty)
  /-- Take the slots of the values of a type out of interfaces. -/
  | unwrap (dst : List Cell) (src : Cell) (type : Ty)
  /-- Run the functions a pointer points to. -/
  | call (function : Cell) (args results : List Cell)
  /-- Run a method of the values in an interface. -/
  | invoke (receiver : Cell) (method : String) (args results : List Cell)
deriving Inhabited

/-! ## Copies -/

variable (P : Program)

/-- The most instructions of a function that is copied for its calls. -/
def copyLimit : Nat := 10

/-- Whether a function is copied for each call that names it: it is one short block, and either a
    wrapper or without calls other than those of builtins. -/
def isCopied (f : Nat) : Bool :=
  match P.function? f with
  | none => false
  | some fn => match fn.blocks.toList with
    | [block] =>
      let isInit := fn.package.isSome && fn.name == "init" && fn.receiver.isNone && fn.parent.isNone
      block.instrs.size ≤ copyLimit &&
        ((!fn.synthetic.isEmpty && !isInit) ||
          block.instrs.all fun i => i.call?.all (·.builtin?.isSome))
    | _ => false

/-- The copy of `f` that a call in the copy `c` runs when it names `f`. Chains of calls longer
    than the program has functions share a copy. -/
def Copy.callee (c : Copy) (site : Loc) (f : Nat) : Copy :=
  if isCopied P f && c.calls.length < P.functions.size then ⟨f, site :: c.calls⟩ else ⟨f, []⟩

/-- The values whose targets an instruction asks for. The addresses that memory is read or
    written at directly, called functions and the operands of comparisons are not among them. -/
def Op.pointerUses (op : Op) : List Value :=
  let address (v : Value) : List Value := match v with
    | .global _ => []
    | v => [v]
  match op with
  | .unary .load x _ | .unary .receive x _ => address x
  | .store addr val => address addr ++ [val]
  | .convert .convert _ | .binary .. | .unary .. | .branch _ | .debugRef _ | .multiConvert _ => []
  | .makeMap _ | .makeChan _ | .makeSlice .. | .range _ | .next .. => []
  | .slice x _ _ _ | .index x _ | .indexAddr x _ | .lookup x _ _ => [x]
  | .call c => match c.builtin? with
    | some "append" | some "copy" => c.args
    | some "panic" | some "ssa:wrapnilchk" | some "print" => c.args.take 1
    | some _ => []
    | none => match P.staticCallee? c with
      | some _ => c.args
      | none => c.value :: c.args
  | op => op.operands

/-- The values whose targets the instructions of a function ask for. -/
def pointerUses (f : Nat) : List Value :=
  (P.locs f).flatMap fun l => ((P.op? l).map (Op.pointerUses P)).getD []

/-- The copies that the instructions of a copy lead to: of the functions its calls name, and the
    shared ones of the functions it uses as values. -/
def Copy.next (c : Copy) : List Copy :=
  (P.callSites c.func).filterMap (fun site => do
    let f ← P.staticCallee? (← P.call? site)
    return c.callee P site f) ++
  (functionValues (pointerUses P c.func)).map fun f => ⟨f, []⟩

/-- The shared copies that a run starts from: of the functions it starts with, and of all methods
    that interfaces lead to. -/
def startCopies : List Copy :=
  (P.startFunctions ++ P.runtimeTypes.flatMap fun t => t.methods.map (·.2)).map fun f => ⟨f, []⟩

/-- A bound on the number of copies: the chains of calls no longer than the program has
    functions. -/
def copyBound : Nat :=
  let sites := ((List.range P.functions.size).map fun f => (P.callSites f).length).foldr (· + ·) 0
  Nat.pow (sites + 1) (P.functions.size + 1) * (P.functions.size + 1)

/-- The copies that a run can reach. -/
def copies : List Copy := Graph.explore (Copy.next P) (copyBound P) [] (startCopies P)

/-! ## Cells -/

namespace Copy

variable (c : Copy)

/-- A slot of a value as this copy sees it. -/
def cell (v : Value) (slot : Nat) : Cell :=
  match v with
  | .result _ | .param .. => .value (some c) v slot
  | v => .value none v slot

/-- The slots from `start` of a value. -/
def cellsFrom (v : Value) (start count : Nat) : List Cell :=
  (List.range count).map fun i => c.cell v (start + i)

/-- All slots of a value. -/
def cells (v : Value) : List Cell := c.cellsFrom v 0 (P.slots (P.typeOf v))

/-- The slots of the parameters. -/
def paramCells : List Cell :=
  let count := ((P.function? c.func).map (·.params.size)).getD 0
  (List.range count).flatMap fun i =>
    c.cells P (.param c.func i)

/-- The slots of the results. -/
def resultCells : List Cell :=
  let results := ((P.function? c.func).map (·.signature.results)).getD []
  (List.range (P.slotSum results)).map (.returned c)

end Copy

/-- Copies slot by slot. -/
def copySlots (dst src : List Cell) : List Constraint := dst.zipWith .copy src

/-- Reads slots behind a pointer, from `offset` on. -/
def loadSlots (dst : List Cell) (pointer : Cell) (offset : Nat) : List Constraint :=
  dst.zipIdx.map fun (d, i) => .load d pointer (offset + i)

/-- Writes slots behind a pointer, from `offset` on. -/
def storeSlots (pointer : Cell) (src : List Cell) (offset : Nat) : List Constraint :=
  src.zipIdx.map fun (s, i) => .store pointer s (offset + i)

/-! ## Constraints of instructions -/

/-- Whether an instruction creates an object that its value points to. -/
def createsObject (l : Loc) (op : Op) : Bool :=
  match op with
  | .alloc .. | .makeSlice .. | .makeChan _ | .makeMap _ | .convert .makeInterface _ => true
  | .convert .convert x => match P.underlying (P.typeOf x), P.underlying (P.typeOf (.result l)) with
    | .basic _, .slice _ => true
    | _, _ => false
  | .call c => c.builtin? == some "append" && 1 < c.args.length
  | _ => false

namespace Copy

variable (c : Copy)

/-- The elements behind the slice `src` move into those behind `dst`. -/
def moveElements (l : Loc) (dst src : Value) : List Constraint :=
  let between := (List.range (P.slots (P.elemType (P.typeOf dst)))).map (.moved c l)
  loadSlots between (c.cell src 0) 1 ++ storeSlots (c.cell dst 0) between 1

/-- The constraints of the cases of a `select`, where the values received go to the slots from
    `slot` on. -/
def selectConstraints (l : Loc) : Nat → List (Value × Option Value) → List Constraint
  | _, [] => []
  | slot, (channel, some sent) :: rest =>
    storeSlots (c.cell channel 0) (c.cells P sent) 0 ++ selectConstraints l slot rest
  | slot, (channel, none) :: rest =>
    let count := P.slots (P.carriedType (P.typeOf channel))
    loadSlots (c.cellsFrom (.result l) slot count) (c.cell channel 0) 0 ++
      selectConstraints l (slot + count) rest

/-- The constraints of a call. -/
def callConstraints (l : Loc) (call : Call) : List Constraint :=
  let result := if P.isValue l then c.cells P (.result l) else []
  let args := call.args.flatMap (c.cells P)
  match call.builtin?, P.staticCallee? call, call.method with
  | some "append", _, _ => match call.args with
    | [x] => [.copy (c.cell (.result l) 0) (c.cell x 0)]
    | x :: y :: _ =>
      .copy (c.cell (.result l) 0) (c.cell x 0) :: c.moveElements P l (.result l) y
    | [] => []
  | some "copy", _, _ => match call.args with
    | [dst, src] => c.moveElements P l dst src
    | _ => []
  | some "panic", _, _ => call.args.take 1 |>.map fun x => .copy .panicked (c.cell x 0)
  | some "recover", _, _ => result.take 1 |>.map fun r => .copy r .panicked
  | some "ssa:wrapnilchk", _, _ => copySlots (result.take 1) (args.take 1)
  | some _, _, _ => []
  | none, some f, _ =>
    let callee := c.callee P l f
    copySlots (callee.paramCells P) args ++ copySlots result (callee.resultCells P)
  | none, none, some m => [.invoke (c.cell call.value 0) m args result]
  | none, none, none => [.call (c.cell call.value 0) args result]

/-- The constraints of an instruction, without the object it may create. -/
def opConstraints (l : Loc) (op : Op) : List Constraint :=
  let result := c.cells P (.result l)
  let first := c.cell (.result l) 0
  match op with
  | .unary .load x _ => loadSlots result (c.cell x 0) 0
  | .unary .receive x _ =>
    loadSlots (result.take (P.slots (P.carriedType (P.typeOf x)))) (c.cell x 0) 0
  | .store addr val => storeSlots (c.cell addr 0) (c.cells P val) 0
  | .send channel x => storeSlots (c.cell channel 0) (c.cells P x) 0
  | .select cases _ => c.selectConstraints P l 2 cases
  | .fieldAddr x i => match P.underlying (P.typeOf x) with
    | .pointer s => [.shift first (c.cell x 0) (P.fieldOffset s i)]
    | _ => []
  | .indexAddr x _ => [.shift first (c.cell x 0) 1]
  | .field x i => copySlots result (c.cellsFrom x (P.fieldOffset (P.typeOf x) i) result.length)
  | .index x _ => copySlots result (c.cellsFrom x 1 result.length)
  | .extract x i => copySlots result (c.cellsFrom x (P.componentOffset (P.typeOf x) i) result.length)
  | .slice x _ _ _ | .convert .sliceToArrayPointer x | .convert .changeType x
  | .convert .changeInterface x => [.copy first (c.cell x 0)]
  | .convert .makeInterface x =>
    (c.cells P x).zipIdx.map fun (s, i) => .copy (.inside ⟨.made c l, 1 + i⟩) s
  | .phi edges _ => edges.flatMap fun e => copySlots result (c.cells P e)
  | .lookup x _ _ => match P.underlying (P.typeOf x) with
    | .map k e => loadSlots (result.take (P.slots e)) (c.cell x 0) (P.slots k)
    | _ => []
  | .mapUpdate m key val => match P.underlying (P.typeOf m) with
    | .map k _ => storeSlots (c.cell m 0) (c.cells P key) 0 ++
        storeSlots (c.cell m 0) (c.cells P val) (P.slots k)
    | _ => []
  | .next iter false => match P.definition? iter with
    | some (.range m) => match P.underlying (P.typeOf m) with
      | .map k e => loadSlots (c.cellsFrom (.result l) 1 (P.slots k + P.slots e)) (c.cell m 0) 0
      | _ => []
    | _ => []
  | .typeAssert x asserted _ =>
    if P.isInterface asserted then [.filter first (c.cell x 0) asserted]
    else [.unwrap (result.take (P.slots asserted)) (c.cell x 0) asserted]
  | .makeClosure f bindings =>
    .copy first (c.cell (.function f) 0) :: bindings.zipIdx.flatMap fun (b, i) =>
      copySlots (c.cells P (.freeVar f i)) (c.cells P b)
  | .ret results => copySlots (c.resultCells P) (results.flatMap (c.cells P))
  | .panic x => [.copy .panicked (c.cell x 0)]
  | .call call => c.callConstraints P l call
  | _ => []

/-- The constraints of the instruction at a place. -/
def instrConstraints (l : Loc) (op : Op) : List Constraint :=
  (if createsObject P l op then [.address (c.cell (.result l) 0) ⟨.made c l, 0⟩] else []) ++
    c.opConstraints P l op

/-- The constraints of all instructions of the copy. -/
def constraints : List Constraint :=
  (P.locs c.func).flatMap fun l => ((P.op? l).map (c.instrConstraints P l)).getD []

end Copy

/-- The constraints of globals and functions, which point to themselves. -/
def fixedConstraints : List Constraint :=
  (List.range P.globals.size).map (fun g => .address (.value none (.global g) 0) ⟨.global g, 0⟩) ++
  (List.range P.functions.size).map fun f => .address (.value none (.function f) 0) ⟨.function f, 0⟩

end Overlap.Memory
