/-
  The text of instructions and functions.

  * `Program.instrText` writes an instruction, `Program.instrLine` with the
    register it defines;
  * `Program.callDescription` says what kind of call a call site makes;
  * `Program.listing` is the listing of a function: a header of comments, its
    signature and its blocks, with types aligned to the right margin.
-/
import Overlap.Ssa.Flow
import Overlap.Ssa.Names

namespace Overlap.Ssa.Program

variable (P : Program)

/-! ## Instructions -/

/-- What kind of call is made, as a phrase. -/
def callDescription (c : Call) : String :=
  match c.method, c.value with
  | some _, _ => "dynamic method call"
  | none, .builtin _ => "built-in function call"
  | none, .function f =>
    if (P.function? f).any (·.receiver.isSome) then "static method call" else "static function call"
  | none, v => match P.definition? v with
    | some (.makeClosure ..) => "static function closure call"
    | _ => "dynamic function call"

/-- The type of the function that a call runs. -/
def calledType? (c : Call) : Option Ty := do
  let t := (← P.typeOf? c.value).underlying P.types
  match c.method, t with
  | none, t => some t
  | some m, .interface names signatures => signatures[names.idxOf m]?
  | some _, _ => none

/-- Whether the last argument of a call is the slice of a variadic parameter. -/
def isVariadicCall (c : Call) : Bool :=
  match P.calledType? c with
  | some (.func _ _ variadic) => variadic
  | _ => false

/-- The text of a call without its mode, as seen from `origin`. -/
def callText (origin : Option Nat) (c : Call) : String :=
  let called := match c.method with
    | some m => "invoke " ++ P.valueText origin c.value ++ "." ++ m
    | none => P.valueText origin c.value
  called ++ "(" ++ ", ".intercalate (c.args.map (P.valueText origin)) ++
    (if P.isVariadicCall c then "..." else "") ++ ")"

/-- The word before a call that does not run at once. -/
def callModeText : CallMode → String
  | .call => ""
  | .go => "go "
  | .defer => "defer "

/-- The word a conversion is written with. -/
def conversionText : Conversion → String
  | .changeType => "changetype"
  | .convert => "convert"
  | .changeInterface => "change interface"
  | .sliceToArrayPointer => "slice to array pointer"
  | .makeInterface => "make"

/-- The type a pointer leads to, or the type itself. -/
def pointee (t : Ty) : Ty :=
  match t.underlying P.types with
  | .pointer e => e
  | _ => t

/-- The text of the result type of the instruction at `l`. -/
def resultTypeText (origin : Option Nat) (l : Loc) : String := P.valueTypeText origin (.result l)

/-- The mark of an instruction that also tells whether it succeeded. -/
def okMark (commaOk : Bool) : String := if commaOk then ",ok" else ""

/-- The edges of a phi with the predecessors they come from. -/
def phiEdges (origin : Option Nat) (l : Loc) (edges : List Value) : String :=
  let preds := P.preds l.func l.block
  ", ".intercalate (edges.mapIdx fun i e =>
    (match preds[i]? with | some p => toString p | none => "-1") ++ ": " ++ P.valueText origin e)

/-- The text of one case of a `select`. -/
def selectCaseText (origin : Option Nat) : Value × Option Value → String
  | (c, none) => "<-" ++ P.valueText origin c
  | (c, some x) => P.valueText origin c ++ "<-" ++ P.valueText origin x

/-- The text of an instruction at the place `l`, as seen from `origin`. -/
def opText (origin : Option Nat) (l : Loc) (op : Op) : String :=
  let value := P.valueText origin
  let optional := fun (v : Option Value) => (v.map value).getD ""
  let target := fun (i : Nat) => ((P.succs l.func l.block)[i]?.map toString).getD "-1"
  match op with
  | .alloc comment heap =>
    (if heap then "new " else "local ") ++
      (((P.typeOf? (.result l)).map fun t => P.typeText origin (P.pointee t)).getD "") ++
      " (" ++ comment ++ ")"
  | .phi edges comment =>
    "phi [" ++ P.phiEdges origin l edges ++ "]" ++ if comment.isEmpty then "" else " #" ++ comment
  | .call c => callModeText c.mode ++ P.callText origin c
  | .binary operator x y => value x ++ " " ++ operator ++ " " ++ value y
  | .unary operator x commaOk => operator.symbol ++ value x ++ okMark commaOk
  | .convert kind x => conversionText kind ++ " " ++ P.resultTypeText origin l ++ " <- " ++
      P.valueTypeText origin x ++ " (" ++ value x ++ ")"
  | .multiConvert x => "multiconvert " ++ P.resultTypeText origin l ++ " <- " ++
      P.valueTypeText origin x ++ " (" ++ value x ++ ")"
  | .typeAssert x asserted commaOk =>
    "typeassert" ++ okMark commaOk ++ " " ++ value x ++ ".(" ++ P.typeText origin asserted ++ ")"
  | .range x => "range " ++ value x
  | .next x _ => "next " ++ value x
  | .makeClosure f bindings =>
    "make closure " ++ P.funcText origin f ++ " [" ++ ", ".intercalate (bindings.map value) ++ "]"
  | .makeMap reserve => "make " ++ P.resultTypeText origin l ++ " " ++ optional reserve
  | .makeChan size => "make " ++ P.resultTypeText origin l ++ " " ++ value size
  | .makeSlice len cap => "make " ++ P.resultTypeText origin l ++ " " ++ value len ++ " " ++ value cap
  | .slice x low high max => "slice " ++ value x ++ "[" ++ optional low ++ ":" ++ optional high ++
      (match max with | some m => ":" ++ value m | none => "") ++ "]"
  | .fieldAddr x field =>
    "&" ++ value x ++ "." ++ P.selectedField x field ++ " [#" ++ toString field ++ "]"
  | .field x field => value x ++ "." ++ P.selectedField x field ++ " [#" ++ toString field ++ "]"
  | .extract x i => "extract " ++ value x ++ " #" ++ toString i
  | .indexAddr x i => "&" ++ value x ++ "[" ++ value i ++ "]"
  | .index x i => value x ++ "[" ++ value i ++ "]"
  | .lookup x i commaOk => value x ++ "[" ++ value i ++ "]" ++ okMark commaOk
  | .select cases blocking => "select " ++ (if blocking then "" else "non") ++ "blocking [" ++
      ", ".intercalate (cases.map (P.selectCaseText origin)) ++ "]"
  | .jump => "jump " ++ target 0
  | .branch cond => "if " ++ value cond ++ " goto " ++ target 0 ++ " else " ++ target 1
  | .ret results =>
    "return" ++ if results.isEmpty then "" else " " ++ ", ".intercalate (results.map value)
  | .runDefers => "rundefers"
  | .panic x => "panic " ++ value x
  | .send c x => "send " ++ value c ++ " <- " ++ value x
  | .store addr val => "*" ++ value addr ++ " = " ++ value val
  | .mapUpdate m k v => value m ++ "[" ++ value k ++ "] = " ++ value v
  | .debugRef x => "; " ++ P.valueName x

/-- The text of the instruction at a place, as seen from its own package. -/
def instrText (l : Loc) : String :=
  ((P.op? l).map (P.opText (P.packageOf l.func) l)).getD ""

/-- The text of the instruction at a place, after the register it defines. -/
def instrLine (l : Loc) : String :=
  if P.isValue l then P.valueName (.result l) ++ " = " ++ P.instrText l else P.instrText l

/-! ## Functions -/

/-- `n` blanks. -/
def blanks (n : Nat) : String := String.ofList (List.replicate n ' ')

/-- An entry of a numbered list of variables in the header of a listing. -/
def numbered (i : Nat) (name type : String) : String :=
  let digits := " " ++ toString i
  "# " ++ blanks (3 - digits.length) ++ digits ++ ":\t" ++ name ++ " " ++ type ++ "\n"

/-- The registers of the local variables of `f`: its allocations outside the heap. -/
def locals (f : Nat) : List Loc :=
  (P.locs f).filter fun l => match P.op? l with
    | some (.alloc _ heap) => !heap
    | _ => false

/-- The comment lines at the top of a listing. -/
def listingHeader (f : Nat) (fn : Function) : String :=
  let origin := P.packageOf f
  let line := fun (key : String) (value : Option String) =>
    (value.map fun v => "# " ++ key ++ ": " ++ v ++ "\n").getD ""
  let listed := fun (title : String) (vars : List (String × Ty)) =>
    if vars.isEmpty then "" else "# " ++ title ++ ":\n" ++
      String.join (vars.mapIdx fun i v => numbered i v.1 (P.typeText origin v.2))
  let place := fn.pos.map fun p =>
    (P.files[p.file]?).getD "" ++ ":" ++ toString p.line ++ ":" ++ toString p.column
  line "Name" (some (P.funcString f)) ++
  line "Package" (P.packagePath? fn.package) ++
  line "Synthetic" (if fn.synthetic.isEmpty then none else some fn.synthetic) ++
  line "Location" place ++
  line "Parent" (fn.parent.map fun g => P.valueName (.function g)) ++
  line "Recover" ((fn.body.bind (·.recover)).map toString) ++
  listed "Free variables" (fn.freeVars.toList.map fun v => (v.name, v.type)) ++
  listed "Locals" ((P.locals f).map fun l =>
    (P.valueName (.result l), P.pointee ((P.typeOf? (.result l)).getD (.tuple []))))

/-- A declared parameter with its name. -/
def namedParam (name type : String) : String := if name.isEmpty then type else name ++ " " ++ type

/-- The line that declares a function. -/
def declaration (origin : Option Nat) (fn : Function) : String :=
  let receiver := match fn.receiver, fn.params[0]? with
    | some _, some v => "(" ++ namedParam v.name (P.typeText origin v.type) ++ ") "
    | _, _ => ""
  let types := Ty.paramTexts (fn.signature.params.map fun v => P.typeText origin v.type)
    fn.signature.variadic
  "func " ++ receiver ++ fn.name ++ "(" ++
    ", ".intercalate (fn.signature.params.zipWith (fun v t => namedParam v.name t) types) ++ ")" ++
    Ty.resultText (fn.signature.results.map (P.typeText origin)) ++ ":\n"

/-- The width of a listing; a tab is eight columns wide. -/
def listingWidth : Nat := 80

/-- The line of an instruction in a listing: the type of a value is aligned to the margin. -/
def listingInstr (origin : Option Nat) (l : Loc) : String :=
  let text := P.instrLine l
  "\t" ++ text ++ (if P.isValue l then
      let type := P.resultTypeText origin l
      " " ++ blanks (listingWidth - 8 - text.utf8ByteSize - (type.utf8ByteSize + 2)) ++ type
    else "") ++ "\n"

/-- The lines of a block in a listing. -/
def listingBlock (origin : Option Nat) (f b : Nat) (block : Block) : String :=
  let number := toString b ++ ":"
  let note := block.comment ++ " P:" ++ toString (P.preds f b).length ++ " S:" ++
    toString block.succs.length
  let gap := (listingWidth - 1 - number.length - note.utf8ByteSize : Int).natAbs
  number ++ blanks gap ++ note ++ "\n" ++
    String.join ((P.blockLocs f b).map (P.listingInstr origin))

/-- The listing of one function. -/
def listing (f : Nat) : String :=
  match P.function? f with
  | none => ""
  | some fn =>
    let origin := P.packageOf f
    P.listingHeader f fn ++ P.declaration origin fn ++
      (if fn.isExternal then "\t(external)\n" else "") ++
      String.join (fn.blocks.toList.mapIdx fun b block => P.listingBlock origin f b block) ++ "\n"

/-- The listings of a function and of the closures inside it, to a depth of `fuel`. -/
def listingsWithin : Nat → Nat → String
  | 0, f => P.listing f
  | fuel + 1, f => P.listing f ++ String.join ((P.closures f).map (listingsWithin fuel))

/-- The listings of a function and of the closures inside it. -/
def listings (f : Nat) : String := P.listingsWithin P.functions.size f

end Overlap.Ssa.Program
