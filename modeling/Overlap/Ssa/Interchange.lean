/-
  Programs as JSON documents.

  The tables of a program are lists, and references between them are numbers.
  An operand is a short text: `t5` is a register, `p0` a parameter, `v0` a free
  variable, `g0` a global, `f0` a function, `b:len` a builtin, `n:3` the zero
  constant of a type and `k:3:text` another constant.

  * `Program.ofJson` reads a program.
-/
import Std.Data.HashMap
import Overlap.Ssa.Program
import Overlap.Text.Json.Read

namespace Overlap.Ssa

open Text

/-! ## Types -/

/-- The indices of the named types among all types, in order. -/
def namedIndices (types : Array Json) : List Nat :=
  (List.range types.size).filter fun i => (types[i]?).any fun t => (t.field "k").toText == "named"

/-- The direction of a channel. -/
def chanDirOf (text : String) : ChanDir :=
  if text == "send" then .sendOnly else if text == "recv" then .receiveOnly else .both

/-- The type with a number.  Only named types refer to themselves, and those are not looked
    into, so the number of types bounds the depth. -/
def typeAt (types : Array Json) (named : List Nat) : Nat → Json → Ty
  | 0, _ => .tuple []
  | depth + 1, j =>
    match j.toNat? with
    | none => .tuple []
    | some i =>
      let t := (types[i]?).getD .null
      let sub := fun key => typeAt types named depth (t.field key)
      let subs := fun key => (t.field key).items.map (typeAt types named depth)
      let fields := (t.field "fields").items
      match (t.field "k").toText with
      | "basic" => .basic (t.field "name").toText
      | "ptr" => .pointer (sub "e")
      | "slice" => .slice (sub "e")
      | "array" => .array (t.field "n").toInt (sub "e")
      | "map" => .map (sub "key") (sub "e")
      | "chan" => .chan (chanDirOf (t.field "dir").toText) (sub "e")
      | "func" => .func (subs "ps") (subs "rs") (t.field "variadic").toBool
      | "iface" => .interfaceOf ((t.field "methods").items.map fun m =>
          ((m.item 0).toText, typeAt types named depth (m.item 1)))
      | "tuple" => .tuple (subs "es")
      | "struct" => .struct (fields.map fun f => ⟨(f.item 0).toText, (f.item 2).toBool⟩)
          (fields.map fun f => typeAt types named depth (f.item 1))
      | "named" => .named (named.idxOf i)
      | _ => .tuple []

/-- All types of a program, by number. -/
def typesOfJson (j : Json) : List Ty :=
  let types := (j.field "types").items.toArray
  (List.range types.size).map fun i =>
    typeAt types (namedIndices types) (types.size + 1) (.num (toString i))

/-! ## Operands -/

/-- The position of an instruction or a function. -/
def positionOf (j : Json) : Option Position :=
  match j.items with
  | [f, l, c] => some ⟨f.toNat, l.toInt, c.toInt⟩
  | _ => none

/-- What the operands of a function refer to. -/
structure Scope where
  /-- The type with a number. -/
  type : Json → Ty
  func : Nat
  /-- The places of the registers. -/
  registers : Std.HashMap Nat Loc

/-- What stands before and after the first colon of a text. -/
def splitColon (s : String) : String × String :=
  let cs := s.toList
  (String.ofList (cs.takeWhile (· != ':')), String.ofList ((cs.dropWhile (· != ':')).drop 1))

/-- The number written after the first character of a text. -/
def numberAfter (s : String) : Nat := (Decimal.natural? (s.toList.drop 1)).getD 0

/-- The number written by a text. -/
def numberOf (s : String) : Nat := (Decimal.natural? s.toList).getD 0

/-- Adds a constant to the table. -/
def addConstant (type : Ty) (literal : Option String) : StateM (Array Constant) Value := do
  let constants ← get
  set (constants.push ⟨type, literal⟩)
  return .const constants.size

/-- The value of an operand. -/
def Scope.operand (s : Scope) (text : String) : StateM (Array Constant) Value := do
  let n := numberAfter text
  let typeOf := fun (t : String) => s.type (.num t)
  match text.toList.head? with
  | some 't' => return .result ((s.registers[n]?).getD ⟨s.func, 0, 0⟩)
  | some 'p' => return .param s.func n
  | some 'v' => return .freeVar s.func n
  | some 'g' => return .global n
  | some 'f' => return .function n
  | some 'b' => return .builtin (splitColon text).2
  | some 'n' => addConstant (typeOf (splitColon text).2) none
  | _ =>
    let (type, literal) := splitColon (splitColon text).2
    addConstant (typeOf type) (some literal)

/-- The values of operands, of which some may be absent. -/
def Scope.operands (s : Scope) : List Json → StateM (Array Constant) (List (Option Value))
  | [] => return []
  | j :: js => do
    let v ← match j with
      | .str text => some <$> s.operand text
      | _ => pure none
    return v :: (← s.operands js)

/-! ## Instructions -/

/-- The cases of a select instruction: channels with the values sent on them. -/
def selectCases : List (Option Value) → List (Value × Option Value)
  | some c :: x :: rest => (c, x) :: selectCases rest
  | _ => []

/-- The operator with a token. -/
def unaryOperatorOf (token : String) : UnaryOperator :=
  if token == "*" then .load else if token == "<-" then .receive else .other token

/-- The number of the function that a value is. -/
def functionNumber : Value → Nat
  | .function f => f
  | _ => 0

/-- What an instruction does. -/
def opOf (s : Scope) (j : Json) (operands : List (Option Value)) : Op :=
  let opt := fun (i : Nat) => (operands[i]?).join
  let arg := fun (i : Nat) => (opt i).getD (.const 0)
  let all := operands.filterMap id
  let commaOk := (j.field "commaok").toBool
  let index := (j.field "field").toInt
  let comment := (j.field "comment").toText
  let token := (j.field "tok").toText
  let method := match j.field "method" with
    | .str m => some m
    | _ => none
  let call := fun (mode : CallMode) => Op.call ⟨mode, arg 0, method, all.drop 1⟩
  match (j.field "op").toText with
  | "Alloc" => .alloc comment (j.field "heap").toBool
  | "Phi" => .phi all comment
  | "Call" => call .call
  | "Go" => call .go
  | "Defer" => call .defer
  | "BinOp" => .binary token (arg 0) (arg 1)
  | "UnOp" => .unary (unaryOperatorOf token) (arg 0) commaOk
  | "ChangeType" => .convert .changeType (arg 0)
  | "Convert" => .convert .convert (arg 0)
  | "MultiConvert" => .multiConvert (arg 0)
  | "ChangeInterface" => .convert .changeInterface (arg 0)
  | "SliceToArrayPointer" => .convert .sliceToArrayPointer (arg 0)
  | "MakeInterface" => .convert .makeInterface (arg 0)
  | "TypeAssert" =>
    let asserted := j.field "asserted"
    .typeAssert (arg 0) (s.type (if asserted.isNull then j.field "t" else asserted)) commaOk
  | "Range" => .range (arg 0)
  | "Next" => .next (arg 0) (j.field "string").toBool
  | "MakeClosure" => .makeClosure (functionNumber (arg 0)) (all.drop 1)
  | "MakeMap" => .makeMap (opt 0)
  | "MakeChan" => .makeChan (arg 0)
  | "MakeSlice" => .makeSlice (arg 0) (arg 1)
  | "Slice" => .slice (arg 0) (opt 1) (opt 2) (opt 3)
  | "FieldAddr" => .fieldAddr (arg 0) index
  | "Field" => .field (arg 0) index
  | "Extract" => .extract (arg 0) index
  | "IndexAddr" => .indexAddr (arg 0) (arg 1)
  | "Index" => .index (arg 0) (arg 1)
  | "Lookup" => .lookup (arg 0) (arg 1) commaOk
  | "Select" => .select (selectCases operands) (j.field "blocking").toBool
  | "Jump" => .jump
  | "If" => .branch (arg 0)
  | "Return" => .ret all
  | "RunDefers" => .runDefers
  | "Panic" => .panic (arg 0)
  | "Send" => .send (arg 0) (arg 1)
  | "Store" => .store (arg 0) (arg 1)
  | "MapUpdate" => .mapUpdate (arg 0) (arg 1) (arg 2)
  | _ => .debugRef (arg 0)

/-- An instruction. -/
def instrOf (s : Scope) (j : Json) : StateM (Array Constant) Instr := do
  let operands ← s.operands (j.field "a").items
  let id := j.field "id"
  let register := if id.isNull then none else some ⟨id.toNat, s.type (j.field "t")⟩
  return ⟨opOf s j operands, register, positionOf (j.field "pos")⟩

/-- The instructions of a block. -/
def instrsOf (s : Scope) : List Json → StateM (Array Constant) (List Instr)
  | [] => return []
  | j :: js => do return (← instrOf s j) :: (← instrsOf s js)

/-- The blocks of a function. -/
def blocksOf (s : Scope) : List Json → StateM (Array Constant) (List Block)
  | [] => return []
  | j :: js => do
    let instrs ← instrsOf s (j.field "instrs").items
    let block : Block :=
      ⟨instrs.toArray, (j.field "succs").items.map Json.toNat, (j.field "comment").toText⟩
    return block :: (← blocksOf s js)

/-- The places of the registers of a function. -/
def registersOf (f : Nat) (blocks : List Json) : Std.HashMap Nat Loc :=
  .ofList (blocks.zipIdx.flatMap fun (block, b) =>
    (block.field "instrs").items.zipIdx.filterMap fun (instr, i) =>
      let id := instr.field "id"
      if id.isNull then none else some (id.toNat, ⟨f, b, i⟩))

/-! ## Functions and programs -/

/-- The parameters or free variables of a function. -/
def variablesOf (type : Json → Ty) (j : Json) : List Variable :=
  j.items.map fun v => ⟨(v.field "name").toText, type (v.field "t")⟩

/-- The signature of a function; programs without types have empty ones. -/
def signatureOf (type : Json → Ty) (typed : Bool) (j : Json) : Signature :=
  if typed then
    let params := variablesOf type (j.field "params")
    ⟨if (j.field "recv").isNull then params else params.drop 1, (j.field "results").items.map type,
      (j.field "variadic").toBool⟩
  else ⟨[], [], false⟩

/-- A function. -/
def functionOf (type : Json → Ty) (typed : Bool) (f : Nat) (j : Json) :
    StateM (Array Constant) Function := do
  let recv := j.field "recv"
  let body ← match j.field "blocks" with
    | .arr blocks => do
      let decoded ← blocksOf ⟨type, f, registersOf f blocks⟩ blocks
      pure (some (⟨decoded.toArray, (j.field "recover").toNat?⟩ : Body))
    | _ => pure none
  return {
    name := (j.field "name").toText
    package := (j.field "pkg").toNat?
    declaredIn := (j.field "obj").toNat?
    parent := (j.field "parent").toNat?
    receiver := if recv.isNull then none else some (type recv)
    synthetic := (j.field "syn").toText
    pos := positionOf (j.field "pos")
    params := (variablesOf type (j.field "params")).toArray
    freeVars := (variablesOf type (j.field "fvs")).toArray
    signature := signatureOf type typed j
    body := body }

/-- The functions of a program, the first with number `f`. -/
def functionsOf (type : Json → Ty) (typed : Bool) :
    Nat → List Json → StateM (Array Constant) (List Function)
  | _, [] => return []
  | f, j :: js => do return (← functionOf type typed f j) :: (← functionsOf type typed (f + 1) js)

/-- A program. -/
def Program.ofJson (j : Json) : Program :=
  let types := (j.field "types").items.toArray
  let named := namedIndices types
  let type := typeAt types named (types.size + 1)
  let (functions, constants) :=
    (functionsOf type (j.field "typed").toBool 0 (j.field "funcs").items).run #[]
  { files := ((j.field "files").items.map Json.toText).toArray
    packages := ((j.field "pkgs").items.map fun p =>
      (⟨(p.field "path").toText, (p.field "name").toText⟩ : Package)).toArray
    types := (named.map fun i =>
      let t := (types[i]?).getD .null
      (⟨(t.field "name").toText, (t.field "pkg").toNat?, type (t.field "u"),
        (t.field "targs").items.map type⟩ : NamedType)).toArray
    globals := ((j.field "globals").items.map fun g =>
      (⟨(g.field "name").toText, (g.field "pkg").toNat?, type (g.field "t")⟩ : Global)).toArray
    constants := constants
    functions := functions.toArray
    runtimeTypes := (j.field "runtime").items.map fun r =>
      ⟨type (r.field "t"), (r.field "methods").items.map fun m => ((m.item 0).toText, (m.item 1).toNat)⟩ }

end Overlap.Ssa
