/-
  Effects of functions on the memory of their arguments.

  Whether a function reads or writes the memory a value points to is a question
  about the uses of the value, and the answer for a use may depend on further
  questions: on the callee of a call, the body of a closure, the uses of a
  derived pointer.  A question is a `Query`; `Source.parts` lists what its
  answer is the union of.

  `Source.answer` answers a question with a table of earlier answers.  A
  question that is being answered counts as having no effect, apart from a
  question about a captured variable, which counts with what has been found so
  far; and the uses of one value are not looked at beyond `Effect.modRef`.  Each
  new question uses one unit of fuel, and `Source.questions` lists all that there
  are.

  * `Query` and `Part` are the questions and the parts of their answers;
  * `Source` is what the answers depend on: the program, the callees of call
    sites and the effect assumed of unknown callees;
  * `Source.argumentEffect`, `Source.freeVarEffect` and
    `Source.callArgumentEffect` are the questions asked by the analyses.
-/
import Std.Data.HashMap
import Overlap.Effect.Basic
import Overlap.Ssa.Object

namespace Overlap

open Ssa

/-- A question about an effect. -/
inductive Query where
  /-- The effect of all uses of a value on the memory it points to. -/
  | value (v : Value)
  /-- The effect of the instruction at `use` on the memory that `v` points to. -/
  | use (use : Loc) (v : Value)
  /-- The effect of the uses of a variable on the memory that the pointer stored in it points
      to. -/
  | cell (v : Value)
deriving DecidableEq, Hashable, Repr, Inhabited

/-- A part of the answer to a question. -/
inductive Part where
  | const (e : Effect)
  /-- The answer to another question. -/
  | sub (q : Query)
  /-- The effects of the uses of a value. -/
  | uses (v : Value)
deriving Repr, Inhabited

/-- Earlier answers. -/
abbrev EffectMemo := Std.HashMap Query Effect

namespace Effect

/-- What effects depend on. -/
structure Source where
  program : Program
  /-- The function with a body that is called at a site, if it is known. -/
  resolve : Loc → Option Nat
  /-- The effect of callees that are not known or have no body. -/
  unknown : Effect

namespace Source

variable (S : Source)

/-- The effect of `f` on its `i`-th parameter, as part of an answer. -/
def paramParts (f i : Nat) : List Part :=
  match S.program.function? f with
  | some fn =>
    if fn.isExternal then [.const S.unknown]
    else if i < fn.params.size then [.sub (.value (.param f i))] else []
  | .none => [.const S.unknown]

/-- The effect of a call on its `i`-th argument, as part of an answer. -/
def argParts (site : Loc) (c : Call) (i : Nat) : List Part :=
  match c.builtin? with
  | some name => [.const (builtinEffect name i)]
  | .none => match S.resolve site with
    | some f => S.paramParts f i
    | .none => [.const S.unknown]

/-- The effect of a call on a value: that on each argument which is the value. Calling a
    function value reads it. -/
def callParts (site : Loc) (c : Call) (v : Value) : List Part :=
  (c.allArgs.zipIdx.flatMap fun (arg, i) => if arg = v then S.argParts site c i else []) ++
    if c.method.isNone && c.value = v then [.const .readOnly] else []

/-- The positions at which a list holds `v`. -/
def positions (vs : List Value) (v : Value) : List Nat :=
  vs.zipIdx.filterMap fun (w, i) => if w = v then some i else .none

/-- The effect of a comparison: telling new memory from nil does not read it. -/
def comparisonParts (operator : String) (x y v : Value) : List Part :=
  let other := if x = v then y else x
  if (operator = "==" || operator = "!=") && S.program.isNilConst other &&
      S.program.isFreshAllocation v
  then [] else [.const .readOnly]

/-- The effect of an instruction on the memory that one of its operands points to. -/
def useParts (l : Loc) (v : Value) : List Part :=
  let derived := fun (x : Value) => if x = v then [Part.uses (.result l)] else []
  match S.program.op? l with
  | some (.unary .load x _) => if x = v then [.const .readOnly] else []
  | some (.unary .receive x _) => if x = v then [.const .modRef] else []
  | some (.store addr val) =>
    if addr = v then [.const .writeOnly]
    -- the value is kept in a variable, such as one captured by a closure
    else match S.program.definition? addr with
      | some (.alloc ..) => if val = v then [.sub (.cell addr)] else []
      | _ => []
  | some (.ret _) | some (.range _) => [.const .readOnly]
  | some (.call c) => S.callParts l c v
  | some (.fieldAddr x _) | some (.indexAddr x _) | some (.slice x ..) => derived x
  | some (.convert ..) | some (.typeAssert ..) | some (.phi ..) => [.uses (.result l)]
  | some (.mapUpdate m _ _) => if m = v then [.const .writeOnly] else []
  | some (.lookup x _ _) => if x = v then [.const .readOnly] else []
  | some (.send c _) => if c = v then [.const .writeOnly] else []
  | some (.select ..) => [.const .modRef]
  | some (.makeClosure f bindings) =>
    (positions bindings v).map fun i => .sub (.value (.freeVar f i))
  | some (.binary operator x y) => S.comparisonParts operator x y v
  | _ => []

/-- The effect of a closure on the memory that its `i`-th captured variable, or the pointer in
    it, points to. The captured variable of a method value is the receiver itself. -/
def freeVarParts (f i : Nat) : List Part :=
  match S.program.function? f with
  | some fn =>
    if fn.isExternal then [.const S.unknown]
    else if fn.freeVars.size ≤ i then []
    else if fn.parent.isSome then [.sub (.cell (.freeVar f i))]
    else [.sub (.value (.freeVar f i))]
  | .none => [.const S.unknown]

/-- The effect of an instruction that uses a variable on the memory that the pointer in the
    variable points to. Overwriting the variable does not touch that memory. -/
def cellUseParts (cell : Value) (l : Loc) : List Part :=
  match S.program.op? l with
  | some (.unary .load x _) => if x = cell then [.uses (.result l)] else []
  | some (.makeClosure f bindings) =>
    if (S.program.function? f).any (·.parent.isSome) then
      (positions bindings cell).flatMap (S.freeVarParts f)
    else []
  | _ => []

/-- What the answer to a question is the union of. -/
def parts : Query → List Part
  | .value v => [.uses v]
  | .use l v => S.useParts l v
  | .cell v => (S.program.referrers v).flatMap (S.cellUseParts v)

/-! ## Answering -/

/-- Whether a question that is being answered counts with what has been found so far. -/
def publishes : Query → Bool
  | .cell _ => true
  | _ => false

/-- The union of the effects of the uses of a value, until it is `modRef`. -/
def answerUses (ask : Query → EffectMemo → Option (Effect × EffectMemo)) (v : Value) :
    List Loc → Effect → EffectMemo → Option (Effect × EffectMemo)
  | [], e, memo => some (e, memo)
  | l :: rest, e, memo => do
    let (found, memo) ← ask (.use l v) memo
    let e := e.union found
    if e = .modRef then return (e, memo) else answerUses ask v rest e memo

/-- The effect of a part of an answer. -/
def answerPart (ask : Query → EffectMemo → Option (Effect × EffectMemo)) (memo : EffectMemo) :
    Part → Option (Effect × EffectMemo)
  | .const c => some (c, memo)
  | .sub q => ask q memo
  | .uses v => answerUses ask v (S.program.referrers v) .none memo

/-- The union of the parts of the answer to `q`. -/
def answerParts (ask : Query → EffectMemo → Option (Effect × EffectMemo)) (q : Query) :
    List Part → Effect → EffectMemo → Option (Effect × EffectMemo)
  | [], e, memo => some (e, memo)
  | p :: rest, e, memo => do
    let (found, memo) ← S.answerPart ask memo p
    let e := e.union found
    answerParts ask q rest e (if publishes q then memo.insert q e else memo)

/-- The answer to a question, and the table with all answers found on the way. Each question
    that was not in the table uses one unit of `fuel`; there is no answer without fuel. -/
def answer : Nat → Query → EffectMemo → Option (Effect × EffectMemo)
  | 0, _, _ => .none
  | fuel + 1, q, memo => match memo[q]? with
    | some e => some (e, memo)
    | .none => do
      let (e, memo) ← S.answerParts (answer fuel) q (S.parts q) .none (memo.insert q .none)
      return (e, memo.insert q e)

/-- The questions about an instruction: its result as a variable, its operands, and the
    variables that the closure it makes captures. -/
def instrQuestions (P : Program) (l : Loc) : List Query :=
  .cell (.result l) :: match P.op? l with
    | some op => op.operands.map (.use l) ++ match op with
      | .makeClosure f bindings => (List.range bindings.length).map (.value <| .freeVar f ·)
      | _ => []
    | .none => []

/-- The questions about the variables of a function and its instructions. -/
def functionQuestions (P : Program) (f : Nat) (fn : Function) : List Query :=
  (List.range fn.params.size).map (.value <| .param f ·) ++
  (List.range fn.freeVars.size).flatMap (fun i =>
    [.value (.freeVar f i), .cell (.freeVar f i)]) ++
  (P.locs f).flatMap (instrQuestions P)

/-- All questions that answers to other questions lead to. -/
def questions (P : Program) : List Query :=
  P.functions.toList.zipIdx.flatMap fun (fn, f) => functionQuestions P f fn

/-- The answer to a question. -/
def ask (q : Query) (memo : EffectMemo) : Effect × EffectMemo :=
  (S.answer ((questions S.program).length + 2) q memo).getD (.none, memo)

/-! ## The questions of the analyses -/

/-- The answer that consists of at most one part. -/
def askPart (parts : List Part) (memo : EffectMemo) : Effect × EffectMemo :=
  match parts with
  | [.const e] => (e, memo)
  | [.sub q] => S.ask q memo
  | _ => (.none, memo)

/-- The effect of `f` on the memory its `index`-th parameter points to; the receiver of a
    method is its first parameter. -/
def argumentEffect (f : Option Nat) (index : Int) (memo : EffectMemo) : Effect × EffectMemo :=
  match f with
  | some f =>
    if index < 0 then
      (if S.program.hasBody f then .none else S.unknown, memo)
    else S.askPart (S.paramParts f index.toNat) memo
  | .none => (S.unknown, memo)

/-- The effect of the closure `f` on the memory its `index`-th captured variable points to. -/
def freeVarEffect (f : Option Nat) (index : Int) (memo : EffectMemo) : Effect × EffectMemo :=
  match f with
  | some f =>
    if index < 0 then
      (if S.program.hasBody f then .none else S.unknown, memo)
    else S.askPart (S.freeVarParts f index.toNat) memo
  | .none => (S.unknown, memo)

/-- The effect of a call site on the memory its `index`-th argument points to. -/
def callArgumentEffect (site : Loc) (index : Int) (memo : EffectMemo) : Effect × EffectMemo :=
  match (S.program.call? site).bind (·.builtin?) with
  | some name => (if index < 0 then builtinEffect name 1 else builtinEffect name index.toNat, memo)
  | .none => S.argumentEffect (S.resolve site) index memo

end Source

end Effect

end Overlap
