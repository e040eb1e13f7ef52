/-
  Drawings of dependence graphs and call trees.

  * `drawDependences`: a box per call site with its callee and place; the
    dependences between two sites are one arrow with a label for each of them,
    in the colour of its gravest kind;
  * `drawCallTree`: a box per function, with a double border if it calls itself;
    the functions and calls on a recursive cycle can be drawn in red
    (`drawCallTreeBy` takes the components from any `Splitting`).
-/
import Overlap.CallTree
import Overlap.Dependence.Graph
import Overlap.Dot
import Overlap.Keyed

namespace Overlap

open Ssa Dot

/-! ## Dependence graphs -/

/-- The colours of the kinds of dependence, the gravest kind first. -/
def kindColors : List (Kinds × String) := [
  (.flow, "red"), (.output, "purple"), (.anti, "orange"), (.control, "blue"),
  (.noDominate, "gray")]

/-- The label of a call site: its callee, or what kind of call it is, and its place. -/
def siteLabel (P : Program) (site : Loc) (callee : Option Nat) : String :=
  let name := match callee, P.call? site with
    | some f, _ => P.shortName f
    | none, some c => P.callDescription c
    | none, none => "?"
  let pos := P.sourcePos site
  if pos.isKnown then
    name ++ "\n" ++ P.functionFile site.func ++ ":" ++ toString pos.line
  else name

/-- The label of a dependence. -/
def edgeLabel (e : Dependence.Edge) : String :=
  if e.own.isEmpty && e.foreign.isEmpty then e.kind.text
  else e.kind.text ++ " (" ++ e.own ++ " -> " ++ e.foreign ++ ")"

/-- What an arrow stands for: the kinds of some dependences together, and the label of each. -/
structure Arrow where
  kinds : Kinds
  labels : List String
deriving DecidableEq, Repr

namespace Arrow

/-- The arrow of one dependence. -/
def ofEdge (e : Dependence.Edge) : Arrow := ⟨e.kind, [edgeLabel e]⟩

/-- The dependences of two arrows in one. -/
def join (a b : Arrow) : Arrow := ⟨a.kinds.union b.kinds, a.labels ++ b.labels⟩

/-- The attributes of an arrow. -/
def attrs (a : Arrow) : List Attr :=
  [⟨"label", "\n".intercalate a.labels⟩] ++
  (match kindColors.find? fun k => a.kinds.has k.1 with
    | some k => [⟨"color", k.2⟩]
    | none => []) ++
  if a.kinds = .noDominate then [⟨"style", "dashed"⟩] else []

end Arrow

/-- The numbers of the nodes that a dependence joins. -/
def endNumbers (g : Dependence.Graph) (e : Dependence.Edge) : Nat × Nat :=
  (g.sites.idxOf e.source, g.sites.idxOf e.target)

/-- The arrows between the nodes of a dependence graph, by the numbers of their ends: each
    dependence joins the arrow between its nodes, or is the first one of a new arrow. -/
def arrows (g : Dependence.Graph) : List ((Nat × Nat) × Arrow) :=
  Keyed.merge Arrow.join [] (g.edges.toList.map fun e => (endNumbers g e, .ofEdge e))

/-- A drawing cannot have an arrow from a node to itself. -/
inductive DrawError where
  | selfEdge
deriving DecidableEq, Repr

/-- The message of an error. -/
def DrawError.message : DrawError → String
  | .selfEdge => "simple: adding self edge"

/-- The drawing of a dependence graph, where `callee` names the callees of the sites. -/
def drawDependences (P : Program) (callee : Loc → Option Nat) (g : Dependence.Graph) :
    Except DrawError Drawing :=
  let drawn := arrows g
  if drawn.any fun a => a.1.1 == a.1.2 then .error .selfEdge
  else .ok {
    name := "dependencies"
    attrs := [⟨"label", P.shortName g.func⟩]
    nodes := g.sites.mapIdx fun i site => ⟨i, [⟨"label", siteLabel P site (callee site)⟩]⟩
    edges := drawn.map fun a => ⟨a.1.1, a.1.2, a.2.attrs⟩ }

/-- The callees that the sites of a program name. -/
def staticCallees (P : Program) (site : Loc) : Option Nat := (P.call? site).bind P.staticCallee?

/-! ## Call trees -/

/-- The steps of a cycle. -/
def cycleSteps (cycle : List Nat) : List (Nat × Nat) := cycle.zip (cycle.drop 1)

/-- The colour of what is on a cycle. -/
def redIf (highlighted : Bool) : List Attr := if highlighted then [⟨"color", "red"⟩] else []

/-- The box of a node of a call tree, where `name` names functions. -/
def treeNode (name : Nat → String) (t : CallTree) (highlighted : Bool) (id : Nat) : Node :=
  ⟨id, [⟨"label", ((t.function? id).map name).getD ""⟩] ++
    (if t.calls id id then [⟨"peripheries", "2"⟩] else []) ++ redIf highlighted⟩

/-- The calls of a call tree between different nodes. -/
def treeCalls (t : CallTree) : List (Nat × Nat) :=
  t.keys.flatMap fun id => ((t.callees id).filter (· != id)).map fun callee => (id, callee)

/-- The drawing of a call tree, where `name` names its functions. If `highlight` is set, what
    is on a recursive cycle is red, where `split` finds components. -/
def drawCallTreeBy (split : Graph.Splitting) (name : Nat → String) (t : CallTree)
    (highlight : Bool) : Drawing :=
  let cycles := if highlight then (t.cyclesBy split).getD [] else []
  let onCycle := cycles.flatten
  let steps := cycles.flatMap cycleSteps
  { name := "calltree"
    attrs := [⟨"rankdir", "LR"⟩]
    nodes := t.keys.map fun id => treeNode name t (onCycle.contains id) id
    edges := (treeCalls t).map fun call => ⟨call.1, call.2, redIf (steps.contains call)⟩ }

/-- The drawing of a call tree. -/
def drawCallTree (name : Nat → String) (t : CallTree) (highlight : Bool) : Drawing :=
  drawCallTreeBy Graph.strongComponents name t highlight

end Overlap
