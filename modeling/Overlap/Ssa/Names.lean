/-
  The names of types, functions and values, and source positions.

  * `Program.typeText`, `Program.funcText` and `Program.valueText` write types,
    functions and operands as seen from a package, whose own declarations are
    not qualified;
  * `Program.runtimeName` is the name of a function in profiles and stack
    traces, `Program.shortName` its name without the package;
  * `Program.displayName` names the memory a value refers to as its source
    would;
  * `Program.sourcePos` is the place of an instruction in the source.
-/
import Overlap.Ssa.Program
import Overlap.Text.Path
import Overlap.Text.Quoted

namespace Overlap.Ssa.Program

open Text

variable (P : Program)

/-! ## Types and packages -/

/-- The import path of a package. -/
def packagePath? (pkg : Option Nat) : Option String := (pkg.bind (P.packages[·]?)).map (·.path)

/-- A name of the package `pkg` as seen from the package `origin`. -/
def qualified (origin pkg : Option Nat) (name : String) : String :=
  if pkg = origin then name
  else match P.packagePath? pkg with
    | some path => path ++ "." ++ name
    | none => name

/-- The text of a named type as seen from `origin`, with its type arguments; each level of
    arguments uses one unit of `fuel`. -/
def namedText (origin : Option Nat) : Nat → Nat → String
  | 0, _ => "?"
  | fuel + 1, id => match P.types[id]? with
    | none => "?"
    | some t =>
      let args := t.args.map (Ty.text (namedText origin fuel))
      P.qualified origin t.package t.name ++
        if args.isEmpty then "" else "[" ++ ", ".intercalate args ++ "]"

/-- The text of a type as seen from the package `origin`. -/
def typeText (origin : Option Nat) (t : Ty) : String :=
  t.text (P.namedText origin (P.types.size + 1))

/-- The type of a value as seen from the package `origin`. -/
def valueTypeText (origin : Option Nat) (v : Value) : String :=
  ((P.typeOf? v).map (P.typeText origin)).getD ""

/-! ## Functions -/

/-- The part of a name after its last dollar sign. -/
def afterDollar (name : String) : String := ((name.splitOn "$").getLast?).getD name

/-- The import path of the package of a function: its own, that of its declaration, or that of
    the function enclosing it. -/
def packagePath (f : Nat) : String :=
  match P.function? f with
  | none => ""
  | some fn => match P.packagePath? fn.package, P.packagePath? fn.declaredIn, fn.parent with
    | some path, _, _ => path
    | none, some path, _ => path
    | none, none, some g => if g < f then packagePath g else ""
    | none, none, none => ""

/-- Whether a package is a main package. -/
def isMain (pkg : Option Nat) : Bool := (pkg.bind (P.packages[·]?)).any (·.name == "main")

/-- The package part of the runtime name of a function. -/
def runtimePackage (f : Nat) : String :=
  match P.function? f with
  | none => ""
  | some fn => if P.isMain fn.package || P.isMain fn.declaredIn then "main" else P.packagePath f

/-- The name of the type of a receiver, without its package. -/
def receiverTypeName : Ty → String
  | .named id => match P.types[id]? with
    | some t => if t.args.isEmpty then t.name else t.name ++ "[...]"
    | none => "?"
  | t => P.typeText none t

/-- The receiver part of the name of a method: `T` or `(*T)`. -/
def receiverName : Ty → String
  | .pointer t => "(*" ++ P.receiverTypeName t ++ ")"
  | t => P.receiverTypeName t

/-- The name of a generic instance without its type arguments. -/
def eraseTypeArgs (name : String) : String :=
  if '[' ∈ name.toList then String.ofList (name.toList.takeWhile (· != '[')) ++ "[...]"
  else name

/-- The name of a function in profiles and stack traces: `main.f` for a function of the main
    package, `path.(*T).M` for a method, `main.f.func1` and `main.f.func1.2` for closures, and
    `path.f[...]` for the instances of a generic function. -/
def runtimeName (f : Nat) : String :=
  match P.function? f with
  | none => ""
  | some fn => match fn.parent with
    | some g =>
      if g < f then
        let outermost := (P.function? g).all (·.parent.isNone)
        runtimeName g ++ (if outermost then ".func" else ".") ++ afterDollar fn.name
      else fn.name
    | none =>
      let name := eraseTypeArgs fn.name
      P.runtimePackage f ++ "." ++ match fn.receiver with
        | some r => P.receiverName r ++ "." ++ name
        | none => name

/-- The name of a function without its package: `f`, `(*T).M` or `main$1`. -/
def shortName (f : Nat) : String :=
  match P.function? f with
  | none => ""
  | some fn => match fn.receiver, fn.parent with
    | some r, none => P.receiverName r ++ "." ++ fn.name
    | _, _ => fn.name

/-- The name of a function in reports, a question mark if it is not known. -/
def displayFunction : Option Nat → String
  | some f => P.shortName f
  | none => "?"

/-- The full name of a function as seen from the package `origin`: a closure is numbered in the
    function enclosing it, a method carries the type of its receiver. -/
def funcText (origin : Option Nat) (f : Nat) : String :=
  match P.function? f with
  | none => ""
  | some fn => match fn.parent with
    | some g =>
      if g < f then
        funcText origin g ++ "$" ++ toString ((P.closures g).idxOf f + 1)
      else fn.name
    | none => match fn.receiver with
      | some r => "(" ++ P.typeText origin r ++ ")." ++ fn.name
      | none =>
        match fn.name.endsWith "$bound", fn.freeVars.toList with
        | true, [v] => "(" ++ P.typeText origin v.type ++ ")." ++ fn.name
        | _, _ => P.qualified origin (P.packageOf f) fn.name

/-- The full name of a function. -/
def funcString (f : Nat) : String := P.funcText none f

/-! ## Values -/

/-- The number a constant's text stands for, if it is a decimal number of 64 bits. -/
def decimal? (s : String) : Option Int :=
  let (negative, digits) := match s.toList with
    | '-' :: ds => (true, ds)
    | '+' :: ds => (false, ds)
    | ds => (false, ds)
  if digits.isEmpty || !digits.all Char.isDigit then none
  else
    let n : Int := (digits.foldl (fun n d => 10 * n + (d.toNat - '0'.toNat)) 0 : Nat)
    let n := if negative then -n else n
    if -Int.pow 2 63 ≤ n && n < Int.pow 2 63 then some n else none

/-- The text of a literal: a number, a truth value or a quoted text of at most 20 bytes. -/
def literalText (s : String) : String :=
  match decimal? s with
  | some n => toString n
  | none => if s = "true" || s = "false" then s else quoteCut 20 s

/-- The names of the basic types that are not numbers, with their zero values. -/
def basicZero : String → String
  | "bool" | "untyped bool" => "false"
  | "string" | "untyped string" => "\"\""
  | "unsafe.Pointer" | "untyped nil" => "nil"
  | _ => "0"

/-- The text of the zero value of a type. -/
def zeroText (origin : Option Nat) (t : Ty) : String :=
  match t.underlying P.types with
  | .basic n => basicZero n
  | u@(.array ..) | u@(.struct ..) => P.typeText origin u ++ "\x7b\x7d"
  | _ => "nil"

/-- The text of a constant: its value and its type. -/
def constText (origin : Option Nat) (c : Constant) : String :=
  (match c.literal with
    | some s => literalText s
    | none => P.zeroText origin c.type) ++ ":" ++ P.typeText origin c.type

/-- The name of a value in its function. -/
def valueName : Value → String
  | .result l => match (P.instr? l).bind (·.register) with
    | some r => "t" ++ toString r.id
    | none => ""
  | .param f i => (((P.function? f).bind (·.params[i]?)).map (·.name)).getD ""
  | .freeVar f i => (((P.function? f).bind (·.freeVars[i]?)).map (·.name)).getD ""
  | .global g => ((P.globals[g]?).map (·.name)).getD ""
  | .function f => ((P.function? f).map (·.name)).getD ""
  | .builtin name => name
  | .const c => ((P.constants[c]?).map (P.constText none)).getD ""

/-- The full name of a global as seen from the package `origin`. -/
def globalText (origin : Option Nat) (g : Nat) : String :=
  match P.globals[g]? with
  | some global => P.qualified origin global.package global.name
  | none => ""

/-- A value as an operand of an instruction, as seen from the package `origin`. -/
def valueText (origin : Option Nat) : Value → String
  | .global g => P.globalText origin g
  | .function f => P.funcText origin f
  | .const c => ((P.constants[c]?).map (P.constText origin)).getD ""
  | v => P.valueName v

/-- The name of a field selected from the memory of `x`. -/
def selectedField (x : Value) (field : Int) : String :=
  match P.typeOf? x with
  | some t => (t.underlying P.types).fieldName P.types field
  | none => "?"

/-- The name of the memory of a value, with at most `fuel` selections. -/
def displayNameWithin : Nat → Value → String
  | 0, v => P.valueName v
  | fuel + 1, v => match P.definition? v with
    | some (.alloc comment _) => if comment.isEmpty then P.valueName v else comment
    | some (.fieldAddr x field) => displayNameWithin fuel x ++ "." ++ P.selectedField x field
    | some (.indexAddr x _) => displayNameWithin fuel x ++ "[]"
    | some (.unary .load x _) | some (.convert .changeType x) | some (.convert .convert x)
    | some (.convert .makeInterface x) | some (.slice x ..) => displayNameWithin fuel x
    | _ => P.valueName v

/-- The memory a value refers to as a source would name it: the variable of an allocation, a
    global or a parameter, with field selections and indexing; the register of a value that has
    no such name. -/
def displayName (v : Value) : String := P.displayNameWithin (P.instrCount + 1) v

/-! ## Source positions -/

/-- A place in the source; line and column are -1 if it is not known. -/
structure SourcePos where
  file : String
  line : Int
  column : Int
deriving DecidableEq, Repr, Inhabited

/-- The place that stands for an unknown one. -/
def SourcePos.unknown : SourcePos := ⟨"unknown", -1, -1⟩

/-- Whether a place is known. -/
def SourcePos.isKnown (p : SourcePos) : Bool := 0 < p.line

/-- The last component of the file name of a known place, empty for an unknown one. -/
def SourcePos.fileBase (p : SourcePos) : String := if p.isKnown then Path.base p.file else ""

/-- The file of a position by name. -/
def resolvePos (p : Position) : SourcePos := ⟨(P.files[p.file]?).getD "", p.line, p.column⟩

/-- The place of an instruction in the source. -/
def sourcePos (l : Loc) : SourcePos :=
  (((P.instr? l).bind (·.pos)).map P.resolvePos).getD .unknown

/-- The last component of the name of the file a function is declared in, empty if unknown. -/
def functionFile (f : Nat) : String :=
  match (P.function? f).bind (·.pos) with
  | some p => (P.resolvePos p).fileBase
  | none => ""

end Overlap.Ssa.Program
