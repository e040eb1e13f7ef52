/-
  The analyses that find dependences between two call sites of a function.

  * *correlation*: a value that one call defines decides whether or how the
    other one runs;
  * *pointer alias*: arguments of both calls point to the same memory, which one
    of them writes;
  * *globals*: the callees access the same global variable, which one of them
    changes;
  * *dominator*: neither call dominates the other.

  `conflict?` is the dependence that two accesses to the same memory make: it
  goes from the call that is first in program order to the other one.
-/
import Overlap.Analysis.Context
import Overlap.DefUse

namespace Overlap

open Ssa Dependence

/-- The analyses of pairs of call sites. -/
inductive Analyzer where
  | correlation | pointerAlias | globals | dominator
deriving DecidableEq, Repr

/-- The name of an analysis. -/
def Analyzer.name : Analyzer → String
  | .correlation => "correlation"
  | .pointerAlias => "pointer-alias"
  | .globals => "globals"
  | .dominator => "dominator"

/-- A pair that an analysis was wrongly run on. -/
inductive PairError where
  | missingSite (func : Nat)
  | foreignSite (func : Nat) (a b : Loc)
  | missingGraph (func : Nat)
deriving DecidableEq, Repr

/-- The message of an error. -/
def PairError.message (P : Program) : PairError → String
  | .missingSite f => "dependence analysis of " ++ P.funcString f ++ " called on a nil instruction"
  | .foreignSite f a b =>
    "dependence analysis of " ++ P.funcString f ++ " called on instructions of another function: " ++
      P.instrLine a ++ ", " ++ P.instrLine b
  | .missingGraph f => "no dependence graph for " ++ P.funcString f

/-- The dependence between two calls that access the same memory, if one of them writes it. -/
def conflict? (P : Program) (a b : Loc) (effectA effectB : Effect) (objectA objectB : String) :
    Option Edge :=
  let first := P.before a b
  let forth := fun k => some (⟨k, a, b, objectA, objectB⟩ : Edge)
  let back := fun k => some (⟨k, b, a, objectB, objectA⟩ : Edge)
  if effectA.mod && effectB.ref then (if first then forth .flow else back .anti)
  else if effectA.ref && effectB.mod then (if first then forth .anti else back .flow)
  else if effectA.mod && effectB.mod then forth .output
  else none

/-- Adds an edge to a graph, if there is one. -/
def Dependence.Graph.recordEdge? (g : Graph) : Option Edge → Graph
  | some e => g.record e.source e.target e.kind e.own e.foreign
  | none => g

namespace Context

variable {τ : Type} [Quantity τ] (C : Context τ)

/-- The dependences that make `b` depend on arguments written at `a`: the argument is written
    by the callee and reaches `b`. -/
def argumentCorrelations (callee : Nat) (a b : Loc) (s : State) : List Edge × State :=
  let params := ((C.program.function? callee).map (·.params.toList)).getD []
  ((params.zip (C.program.args a)).zipIdx).foldl (fun (edges, s) ((param, arg), i) =>
    if C.program.canPointType param.type then
      let (e, memo) := C.source.argumentEffect (some callee) i s.effects
      let s := { s with effects := memo }
      if e.mod && DefUse.reaches C.program b arg false then
        (edges ++ [⟨.control, a, b, C.program.displayName arg, ""⟩], s)
      else (edges, s)
    else (edges, s)) ([], s)

/-- The dependences that make `b` depend on globals changed by the callee of `a`. -/
def globalCorrelations (callee : Nat) (a b : Loc) (s : State) : List Edge × State :=
  let (accesses, memo) := C.source.globalAccesses callee s.accesses
  ((sortedGlobals C.program accesses).filterMap fun g =>
    if accesses.get g = .change && DefUse.reaches C.program b (.global g) false then
      some ⟨.control, a, b, C.program.valueName (.global g), ""⟩
    else none, { s with accesses := memo })

/-- The dependence of `b` on the result of the call at `a`. -/
def resultCorrelation (a b : Loc) : List Edge :=
  match C.program.call? a with
  | some c =>
    if c.mode = .call && DefUse.reaches C.program b (.result a) true then
      [⟨.control, a, b, "", ""⟩]
    else []
  | none => []

/-- Adds edges to the graph of `f`. -/
def recordAll (f : Nat) (edges : List Edge) (s : State) : State :=
  s.updateGraph f C.settings.dedup fun g => edges.foldl (fun g e => g.recordEdge? (some e)) g

/-- Records how `b` depends on what the call at `a` defines. -/
def correlateOrdered (f : Nat) (a b : Loc) (s : State) : State :=
  match C.resolve a with
  | none => s
  | some callee =>
    let (args, s) := C.argumentCorrelations callee a b s
    let (globals, s) := C.globalCorrelations callee a b s
    C.recordAll f (args ++ globals ++ C.resultCorrelation a b) s

/-- Records how each of two calls depends on what the other one defines. -/
def correlate (f : Nat) (a b : Loc) (s : State) : State :=
  C.correlateOrdered f b a (C.correlateOrdered f a b s)

/-- The effect of a call site on a memory node: that on its first argument which points to the
    node. -/
def effectOnNode (A : Memory.PointerAnalysis) (site : Loc) (node : A.Node) (memo : EffectMemo) :
    Effect × EffectMemo :=
  match (C.program.args site).findIdx? fun arg =>
      C.program.canPoint arg && (A.node? arg).any (A.same · node) with
  | some i => C.source.callArgumentEffect site i memo
  | none => (.none, memo)

/-- The distinct memory nodes that the arguments of a call site point to, each with the name of
    the first argument pointing to it. -/
def argumentNodes (A : Memory.PointerAnalysis) (site : Loc) : List (A.Node × String) :=
  (C.program.args site).foldl (fun nodes arg =>
    match A.node? arg with
    | some n =>
      if C.program.canPoint arg && !(nodes.any fun other => A.same other.1 n) then
        nodes ++ [(n, C.program.displayName arg)]
      else nodes
    | none => nodes) []

/-- The pairs of nodes of two call sites that are the same memory. -/
def sharedNodes (A : Memory.PointerAnalysis) (a b : Loc) :
    List ((A.Node × String) × (A.Node × String)) :=
  let nodesB := C.argumentNodes A b
  (C.argumentNodes A a).flatMap fun na =>
    (nodesB.filter fun nb => A.same na.1 nb.1).map fun nb => (na, nb)

/-- Records the conflicts of two calls on the memory that arguments of both point to. -/
def aliasConflicts (A : Memory.PointerAnalysis) (f : Nat) (a b : Loc) (s : State) : State :=
  (C.sharedNodes A a b).foldl (fun s (na, nb) =>
    let (effectA, memo) := C.effectOnNode A a na.1 s.effects
    let (effectB, memo) := C.effectOnNode A b nb.1 memo
    ({ s with effects := memo }).updateGraph f C.settings.dedup fun g =>
      g.recordEdge? (conflict? C.program a b effectA effectB na.2 nb.2))
    (s.updateGraph f C.settings.dedup id)

/-- The effect that an access to a global amounts to. -/
def accessEffect : Access → Effect
  | .absent => .none
  | .read => .readOnly
  | .change => .writeOnly

/-- Records the conflicts of two calls on the globals that both callees access. -/
def globalConflicts (f : Nat) (a b : Loc) (s : State) : State :=
  match C.resolve a, C.resolve b with
  | some calleeA, some calleeB =>
    let (accessesA, memo) := C.source.globalAccesses calleeA s.accesses
    let (accessesB, memo) := C.source.globalAccesses calleeB memo
    let edges := (sortedGlobals C.program accessesA).filterMap fun g =>
      let name := "G:" ++ C.program.valueName (.global g)
      conflict? C.program a b (accessEffect (accessesA.get g)) (accessEffect (accessesB.get g))
        name name
    C.recordAll f edges { s with accesses := memo }
  | _, _ => s

/-- Records that neither of two calls dominates the other; the function must have a graph. -/
def dominance (f : Nat) (a b : Loc) (s : State) : Except PairError State :=
  if s.graphs.contains f then
    if C.program.locDominates a b || C.program.locDominates b a then .ok s
    else .ok (C.recordAll f [⟨.noDominate, a, b, "", ""⟩] s)
  else .error (.missingGraph f)

/-- The two call sites of a pair, if they are there and belong to `f`. -/
def checkPair (f : Nat) (a b : Option Loc) : Except PairError (Loc × Loc) :=
  match a, b with
  | some a, some b =>
    if a.func = f && b.func = f then .ok (a, b) else .error (.foreignSite f a b)
  | _, _ => .error (.missingSite f)

/-- The analyses that are run on every pair of candidate sites, in order. -/
def analyzers : List Analyzer :=
  [.correlation] ++ (if C.pointers.isSome then [.pointerAlias] else []) ++ [.globals] ++
    if C.settings.dominators then [.dominator] else []

/-- Runs an analysis on a pair of call sites of `f`. -/
def analyzePair (analyzer : Analyzer) (f : Nat) (a b : Option Loc) (s : State) :
    Except PairError State := do
  let (a, b) ← checkPair f a b
  match analyzer with
  | .correlation => return C.correlate f a b s
  | .pointerAlias => match C.pointers with
    | some A => return C.aliasConflicts A f a b s
    | none => return s
  | .globals => return C.globalConflicts f a b s
  | .dominator => C.dominance f a b s

end Context

end Overlap
