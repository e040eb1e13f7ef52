/-
  Programs in static single assignment form.

  A program is a list of functions, each a control-flow graph of blocks of
  instructions.  An instruction is named by its place (`Loc`), and an
  instruction that computes something *is* a value (`Value.result`); the other
  values are parameters, captured variables, globals, functions, builtins and
  constants.  A *call site* is the place of a call, `go` or `defer`
  instruction.

  * `Value`, `Op`, `Instr`, `Block`, `Function`, `Program` are the data;
  * `Program.instr?` looks an instruction up, `Program.locs` and
    `Program.callSites` list places in program text order;
  * `Op.operands` lists what an instruction uses, and `Program.referrers` the
    instructions that use a value.
-/
import Overlap.Ssa.Type

namespace Overlap.Ssa

/-- A place in a source file; lines and columns count from one. -/
structure Position where
  file : Nat
  line : Int
  column : Int
deriving DecidableEq, Repr, Inhabited

/-- Positions are ordered by file, then line, then column. -/
def Position.before (a b : Position) : Bool :=
  a.file < b.file || (a.file == b.file &&
    (a.line < b.line || (a.line == b.line && a.column < b.column)))

/-- The place of an instruction: its function, the block in it and the index in the block. -/
structure Loc where
  func : Nat
  block : Nat
  index : Nat
deriving DecidableEq, Hashable, Repr, Inhabited

/-- A value an instruction can use. -/
inductive Value where
  /-- What the instruction at `loc` computes. -/
  | result (loc : Loc)
  | param (func index : Nat)
  /-- A variable captured by the closure `func`. -/
  | freeVar (func index : Nat)
  /-- The address of a global variable. -/
  | global (id : Nat)
  | function (id : Nat)
  | builtin (name : String)
  /-- An entry of the table of constants. -/
  | const (id : Nat)
deriving DecidableEq, Hashable, Repr, Inhabited

/-- How a call site runs its callee: at once, in parallel, or when its function returns. -/
inductive CallMode where
  | call | go | defer
deriving DecidableEq, Repr, Inhabited

/-- A call. With a `method` the callee is that method of the interface value `value`, which
    is then the receiver; otherwise `value` is the called function. -/
structure Call where
  mode : CallMode
  value : Value
  method : Option String
  args : List Value
deriving DecidableEq, Repr, Inhabited

/-- The conversions that keep the memory their operand refers to. -/
inductive Conversion where
  | changeType | convert | changeInterface | sliceToArrayPointer | makeInterface
deriving DecidableEq, Repr, Inhabited

/-- The operators with one operand. -/
inductive UnaryOperator where
  /-- Read the memory at an address. -/
  | load
  /-- Receive from a channel. -/
  | receive
  | other (symbol : String)
deriving DecidableEq, Repr, Inhabited

/-- The symbol a unary operator is written with. -/
def UnaryOperator.symbol : UnaryOperator → String
  | .load => "*"
  | .receive => "<-"
  | .other s => s

/-- What an instruction does, with its operands. -/
inductive Op where
  | alloc (comment : String) (heap : Bool)
  | phi (edges : List Value) (comment : String)
  | call (call : Call)
  | binary (operator : String) (x y : Value)
  | unary (operator : UnaryOperator) (x : Value) (commaOk : Bool)
  | convert (kind : Conversion) (x : Value)
  /-- A conversion whose kind depends on a type parameter. -/
  | multiConvert (x : Value)
  | typeAssert (x : Value) (asserted : Ty) (commaOk : Bool)
  | range (x : Value)
  | next (iter : Value) (overString : Bool)
  | makeClosure (func : Nat) (bindings : List Value)
  | makeMap (reserve : Option Value)
  | makeChan (size : Value)
  | makeSlice (len cap : Value)
  | slice (x : Value) (low high max : Option Value)
  | fieldAddr (x : Value) (field : Int)
  | field (x : Value) (field : Int)
  | extract (x : Value) (index : Int)
  | indexAddr (x index : Value)
  | index (x index : Value)
  | lookup (x index : Value) (commaOk : Bool)
  /-- The cases of a `select`: a channel and, for a send, the value sent. -/
  | select (cases : List (Value × Option Value)) (blocking : Bool)
  | jump
  | branch (cond : Value)
  | ret (results : List Value)
  | runDefers
  | panic (x : Value)
  | send (chan x : Value)
  | store (addr val : Value)
  | mapUpdate (map key val : Value)
  | debugRef (x : Value)
deriving Inhabited

/-- The register an instruction writes: its number and the type of the result. -/
structure Register where
  id : Nat
  type : Ty
deriving Inhabited

/-- An instruction; it is a value if it writes a register. -/
structure Instr where
  op : Op
  register : Option Register
  pos : Option Position
deriving Inhabited

/-- A block of instructions that run in order, and the blocks control may pass to. -/
structure Block where
  instrs : Array Instr
  succs : List Nat
  comment : String
deriving Inhabited

/-- A parameter or a captured variable. -/
structure Variable where
  name : String
  type : Ty
deriving Inhabited

/-- The body of a function: its blocks, the first being the entry, and the block at which a
    recovered panic continues. -/
structure Body where
  blocks : Array Block
  recover : Option Nat
deriving Inhabited

/-- The declared parameters of a function, without its receiver, and its results. -/
structure Signature where
  params : List Variable
  results : List Ty
  variadic : Bool
deriving Inhabited

/-- The type of the functions with a signature. -/
def Signature.type (s : Signature) : Ty := .func (s.params.map (·.type)) s.results s.variadic

/-- A function, a method or a closure. -/
structure Function where
  name : String
  /-- The package the function belongs to; wrappers and instances have none. -/
  package : Option Nat
  /-- The package of the declaration behind the function, if there is one. -/
  declaredIn : Option Nat
  /-- The function that encloses a closure, which comes before it in the program. -/
  parent : Option Nat
  /-- The type of the receiver of a method. -/
  receiver : Option Ty
  /-- Why the function exists if no source declares it, else empty. -/
  synthetic : String
  pos : Option Position
  /-- The parameters, the receiver first. -/
  params : Array Variable
  freeVars : Array Variable
  signature : Signature
  /-- An external function has no body. -/
  body : Option Body
deriving Inhabited

/-- A package: its import path and the name its clause declares. -/
structure Package where
  path : String
  name : String
deriving Inhabited

/-- A global variable; `type` is the type of its address. -/
structure Global where
  name : String
  package : Option Nat
  type : Ty
deriving Inhabited

/-- A constant; zero values of composite types and nil have no literal. -/
structure Constant where
  type : Ty
  literal : Option String
deriving Inhabited

/-- A type that is converted to an interface, with its methods by name. -/
structure RuntimeType where
  type : Ty
  methods : List (String × Nat)
deriving Inhabited

/-- A program. -/
structure Program where
  files : Array String
  packages : Array Package
  types : Array NamedType
  globals : Array Global
  constants : Array Constant
  functions : Array Function
  runtimeTypes : List RuntimeType
deriving Inhabited

/-! ## Operands -/

/-- The arguments of a call, the receiver of a method call through an interface first: the
    `i`-th one becomes the `i`-th parameter of the callee. -/
def Call.allArgs (c : Call) : List Value :=
  if c.method.isSome then c.value :: c.args else c.args

/-- The builtin a call runs. -/
def Call.builtin? (c : Call) : Option String :=
  match c.method, c.value with
  | none, .builtin name => some name
  | _, _ => none

/-- The values an instruction uses, in order, repeated as often as they are used. -/
def Op.operands : Op → List Value
  | .alloc .. | .jump | .runDefers => []
  | .phi edges _ => edges
  | .call c => c.value :: c.args
  | .binary _ x y | .indexAddr x y | .index x y | .lookup x y _ | .makeSlice x y
  | .send x y | .store x y => [x, y]
  | .unary _ x _ | .convert _ x | .multiConvert x | .typeAssert x _ _ | .range x | .next x _
  | .makeChan x | .fieldAddr x _ | .field x _ | .extract x _ | .branch x | .panic x
  | .debugRef x => [x]
  | .makeClosure f bindings => .function f :: bindings
  | .makeMap reserve => reserve.toList
  | .slice x low high max => x :: (low.toList ++ high.toList ++ max.toList)
  | .select cases _ => cases.flatMap fun c => c.1 :: c.2.toList
  | .ret results => results
  | .mapUpdate m k v => [m, k, v]

/-- The call made by an instruction, if it is a call site. -/
def Instr.call? (i : Instr) : Option Call :=
  match i.op with
  | .call c => some c
  | _ => none

/-- The address an instruction loads from, if it is a load. -/
def Op.load? : Op → Option Value
  | .unary .load addr _ => some addr
  | _ => none

/-! ## Looking up -/

namespace Function

/-- A function without a body. -/
def isExternal (f : Function) : Bool := f.body.isNone

/-- The blocks of a function, none if it is external. -/
def blocks (f : Function) : Array Block := (f.body.map (·.blocks)).getD #[]

end Function

namespace Program

variable (P : Program)

/-- The function with number `f`. -/
def function? (f : Nat) : Option Function := P.functions[f]?

/-- The blocks of the function `f`. -/
def blocks (f : Nat) : Array Block := ((P.function? f).map (·.blocks)).getD #[]

/-- Whether `f` has a body. -/
def hasBody (f : Nat) : Bool := ((P.function? f).map (!·.isExternal)).getD false

/-- The instruction at a place. -/
def instr? (l : Loc) : Option Instr := do (← (P.blocks l.func)[l.block]?).instrs[l.index]?

/-- What the instruction at a place does. -/
def op? (l : Loc) : Option Op := (P.instr? l).map (·.op)

/-- The call made at a place. -/
def call? (l : Loc) : Option Call := do (← P.instr? l).call?

/-- The places of the block `b` of `f`, in order. -/
def blockLocs (f b : Nat) : List Loc :=
  match (P.blocks f)[b]? with
  | some block => (List.range block.instrs.size).map fun i => ⟨f, b, i⟩
  | none => []

/-- The places of the instructions of `f`, block by block. -/
def locs (f : Nat) : List Loc :=
  (List.range (P.blocks f).size).flatMap (P.blockLocs f)

/-- The call sites of `f`, block by block. -/
def callSites (f : Nat) : List Loc := (P.locs f).filter fun l => (P.call? l).isSome

/-- The call sites of all functions. -/
def allCallSites : List Loc := (List.range P.functions.size).flatMap P.callSites

/-- The arguments passed at a call site. -/
def args (site : Loc) : List Value := ((P.call? site).map (·.allArgs)).getD []

/-- Whether the instruction at a place computes a value. -/
def isValue (l : Loc) : Bool := ((P.instr? l).map (·.register.isSome)).getD false

/-- The number of instructions of the program. -/
def instrCount : Nat :=
  P.functions.foldl (fun n f => f.blocks.foldl (fun n b => n + b.instrs.size) n) 0

/-- The operation that computes a value, if an instruction does. -/
def definition? : Value → Option Op
  | .result l => P.op? l
  | _ => none

/-- The function a call names, directly or through a closure made in place. -/
def staticCallee? (c : Call) : Option Nat :=
  match c.method, c.value with
  | none, .function f => some f
  | none, v => match P.definition? v with
    | some (.makeClosure f _) => some f
    | _ => none
  | some _, _ => none

/-- The type of a value; builtins have none. -/
def typeOf? : Value → Option Ty
  | .result l => do return (← (← P.instr? l).register).type
  | .param f i => do return (← (← P.function? f).params[i]?).type
  | .freeVar f i => do return (← (← P.function? f).freeVars[i]?).type
  | .global g => (P.globals[g]?).map (·.type)
  | .function f => (P.function? f).map (·.signature.type)
  | .builtin _ => none
  | .const c => (P.constants[c]?).map (·.type)

/-- Whether values of a type refer to memory: pointers, slices, maps, channels, functions and
    interfaces, under their name or another one, and the values of the reflection package. -/
def canPointType : Ty → Bool
  | .named id => match P.types[id]? with
    | some t =>
      (t.name == "Value" && (t.package.bind (P.packages[·]?)).any (·.path == "reflect")) ||
        t.underlying.isReference
    | none => false
  | t => t.isReference

/-- Whether a value refers to memory. -/
def canPoint (v : Value) : Bool := (P.typeOf? v).any P.canPointType

/-- Whether a value is the constant nil or another zero value without a literal. -/
def isNilConst : Value → Bool
  | .const c => (P.constants[c]?).any (·.literal.isNone)
  | _ => false

/-! ## Uses -/

/-- The places of `f` whose instruction uses `v`, once per occurrence of `v`. -/
def occurrences (f : Nat) (v : Value) : List Loc :=
  (P.locs f).flatMap fun l =>
    List.replicate (((P.op? l).map (·.operands.count v)).getD 0) l

/-- The instructions of `f` that use `v`, each once. -/
def operandUses (f : Nat) (v : Value) : List Loc :=
  (P.locs f).filter fun l => (P.op? l).any (·.operands.contains v)

/-- The instructions that use a value, in program text order and once per occurrence. Only
    registers, parameters, captured variables and closures keep track of their uses. -/
def referrers : Value → List Loc
  | v@(.result l) => P.occurrences l.func v
  | v@(.param f _) | v@(.freeVar f _) => P.occurrences f v
  | v@(.function f) =>
    if (P.function? f).any (·.parent.isSome) then
      (List.range P.functions.size).flatMap (P.occurrences · v)
    else []
  | .global _ | .builtin _ | .const _ => []

/-- The closures `f` encloses, in order. -/
def closures (f : Nat) : List Nat :=
  (List.range P.functions.size).filter fun g => (P.function? g).any (·.parent == some f)

/-- The package a function is declared in: its own, or that of the function enclosing it. -/
def packageOf (f : Nat) : Option Nat :=
  match P.function? f with
  | some fn => match fn.package, fn.parent with
    | some p, _ => some p
    | none, some g => if g < f then packageOf g else none
    | none, none => none
  | none => none

end Program

end Overlap.Ssa
