/-
  Dependence graphs after any operations.

  A graph is built by looking up or creating nodes and by recording
  dependences (`Operation`).  What it holds is said by the list of operations:
  its nodes are the call sites they name, and its edges the dependences they
  record, in order, without repetitions if the graph keeps no duplicates.

  * `run_eq`: no operation on call sites fails;
  * `Graph.Holds`: a graph holds the nodes and edges of some operations, which
    every operation keeps up (`Holds.apply`, `holds_build`);
  * `run_holds`: after any operations the edges are found from both of their
    nodes, once and in order.
-/
import Overlap.Proofs.DependenceGraph

namespace Overlap.Dependence

open Ssa

/-- The mark of a dependence seen from its target is not kept. -/
theorem has_incoming_withoutIncoming (k : Kinds) : k.withoutIncoming.has .incoming = false := by
  have hbit : k.bits &&& 223 &&& 32 = 0 := by
    rw [UInt8.and_assoc]
    exact UInt8.and_zero
  simp [Kinds.has, Kinds.withoutIncoming, Kinds.incoming, hbit]

/-! ## Operations -/

/-- An operation on a dependence graph. -/
inductive Operation where
  /-- Looks up the node of a call site; it is created if it is missing and `create` is set. -/
  | node (site : Loc) (create : Bool)
  /-- Records a dependence of `b` on `a`. -/
  | dependence (a b : Loc) (kind : Kinds) (own foreign : String)
deriving DecidableEq, Repr

namespace Operation

/-- The call sites that have nodes after an operation, in the order in which missing ones are
    created. -/
def sites : Operation → List Loc
  | .node site create => if create then [site] else []
  | .dependence a b .. => [a, b]

/-- The edge that an operation records. -/
def edge? : Operation → Option Edge
  | .node .. => none
  | .dependence a b kind own foreign => some ⟨kind.withoutIncoming, a, b, own, foreign⟩

/-- Performs an operation on a graph. -/
def perform (g : Graph) : Operation → Except GraphError Graph
  | .node site create => (g.requireNode (some site) create).map (·.1)
  | .dependence a b kind own foreign =>
    match g.requireDependence (some a) (some b) kind own foreign with
    | (g, .ok _) => .ok g
    | (_, .error e) => .error e

/-- The graph after an operation. -/
def apply (g : Graph) : Operation → Graph
  | .node site create => if create then g.addNode site else g
  | .dependence a b kind own foreign => g.record a b kind own foreign

theorem perform_eq (g : Graph) (op : Operation) : op.perform g = .ok (op.apply g) := by
  cases op with
  | node site create =>
    unfold perform apply Graph.requireNode
    dsimp only
    split_ifs with hnode hcreate
    · rw [Graph.addNode_of_mem (Graph.isSome_node?_iff.1 hnode)]
      rfl
    · rfl
    · rfl
    · rfl
  | dependence a b kind own foreign => rfl

theorem recorded_concat (ops : List Operation) (op : Operation) :
    (ops ++ [op]).filterMap edge? = ops.filterMap edge? ++ op.edge?.toList := by
  rw [List.filterMap_append]
  cases hop : op.edge? <;> simp [hop]

end Operation

namespace Graph

/-- Performs operations on a graph, one after the other. -/
def run (g : Graph) (ops : List Operation) : Except GraphError Graph :=
  ops.foldlM (fun g op => op.perform g) g

/-- The graph of `f` after some operations. -/
def build (f : Nat) (dedup : Bool) (ops : List Operation) : Graph :=
  ops.foldl Operation.apply (.empty f dedup)

theorem run_eq (f : Nat) (dedup : Bool) (ops : List Operation) :
    run (.empty f dedup) ops = .ok (build f dedup ops) := by
  unfold run build
  generalize Graph.empty f dedup = g
  induction ops generalizing g with
  | nil => rfl
  | cons op ops ih =>
    rw [List.foldlM_cons, Operation.perform_eq, List.foldl_cons]
    exact ih _

/-! ## What a graph holds -/

/-- The graph `g` holds the nodes and the edges of the operations `ops`. -/
structure Holds (dedup : Bool) (ops : List Operation) (g : Graph) : Prop where
  wellFormed : g.WellFormed
  dedup_eq : g.dedup = dedup
  sites_eq : g.sites = (ops.flatMap Operation.sites).eraseDups
  edges_eq : g.edges.toList = if dedup then (ops.filterMap Operation.edge?).eraseDups
    else ops.filterMap Operation.edge?

variable {g : Graph} {dedup : Bool} {ops : List Operation}

theorem sites_addNode_eraseDups {xs : List Loc} (h : g.sites = xs.eraseDups) (a : Loc) :
    (g.addNode a).sites = (xs ++ [a]).eraseDups := by
  rw [sites_addNode, eraseDups_concat, h]
  simp only [List.mem_eraseDups]

theorem sites_record_eq (g : Graph) (a b : Loc) (kind : Kinds) (own foreign : String) :
    (g.record a b kind own foreign).sites = ((g.addNode a).addNode b).sites := by
  rcases record_cases g a b kind own foreign with h | h <;> simp [h]

/-- Recording adds the edge, unless the graph has it and keeps no duplicates. -/
theorem edges_record (g : Graph) (a b : Loc) (kind : Kinds) (own foreign : String) :
    let e : Edge := ⟨kind.withoutIncoming, a, b, own, foreign⟩
    (g.record a b kind own foreign).edges.toList =
      if g.dedup ∧ e ∈ g.edges.toList then g.edges.toList else g.edges.toList ++ [e] := by
  intro e
  unfold record addDependence
  simp only [dedup_addNode, edges_addNode, Bool.and_eq_true, Array.contains_iff_mem,
    Array.mem_toList_iff]
  split_ifs
  · simp
  · simp [pushEdge, e]

theorem holds_empty (f : Nat) (dedup : Bool) : Holds dedup [] (.empty f dedup) where
  wellFormed := wellFormed_empty f dedup
  dedup_eq := rfl
  sites_eq := rfl
  edges_eq := by cases dedup <;> rfl

theorem Holds.node (hg : Holds dedup ops g) (site : Loc) :
    Holds dedup (ops ++ [.node site true]) (g.addNode site) where
  wellFormed := hg.wellFormed.addNode site
  dedup_eq := (dedup_addNode g site).trans hg.dedup_eq
  sites_eq := by
    rw [sites_addNode_eraseDups hg.sites_eq, List.flatMap_append]
    rfl
  edges_eq := by
    rw [edges_addNode, hg.edges_eq, Operation.recorded_concat]
    simp [Operation.edge?]

theorem Holds.dependence (hg : Holds dedup ops g) (a b : Loc) (kind : Kinds)
    (own foreign : String) :
    Holds dedup (ops ++ [.dependence a b kind own foreign]) (g.record a b kind own foreign) where
  wellFormed := hg.wellFormed.record ..
  dedup_eq := (dedup_record ..).trans hg.dedup_eq
  sites_eq := by
    rw [sites_record_eq, sites_addNode_eraseDups (sites_addNode_eraseDups hg.sites_eq a) b,
      List.flatMap_append, List.append_assoc]
    rfl
  edges_eq := by
    rw [edges_record, hg.dedup_eq, hg.edges_eq, Operation.recorded_concat]
    cases dedup with
    | false => simp [Operation.edge?]
    | true => simp [Operation.edge?, eraseDups_concat]

/-- **Every operation keeps up what a graph holds.** -/
theorem Holds.apply (hg : Holds dedup ops g) (op : Operation) :
    Holds dedup (ops ++ [op]) (op.apply g) := by
  cases op with
  | node site create =>
    cases create with
    | true => exact hg.node site
    | false =>
      refine ⟨hg.wellFormed, hg.dedup_eq, ?_, ?_⟩
      · simpa [Operation.apply, Operation.sites] using hg.sites_eq
      · rw [Operation.recorded_concat]
        simpa [Operation.apply, Operation.edge?] using hg.edges_eq
  | dependence a b kind own foreign => exact hg.dependence a b kind own foreign

theorem holds_build (f : Nat) (dedup : Bool) (ops : List Operation) :
    Holds dedup ops (build f dedup ops) := by
  induction ops using List.reverseRecOn with
  | nil => exact holds_empty f dedup
  | append_singleton ops op ih =>
    rw [build, List.foldl_append]
    exact ih.apply op

theorem Holds.mem_recorded (hg : Holds dedup ops g) {e : Edge} (he : e ∈ g.edges) :
    e ∈ ops.filterMap Operation.edge? := by
  have he' := Array.mem_toList_iff.2 he
  rw [hg.edges_eq] at he'
  split_ifs at he'
  · exact List.mem_eraseDups.1 he'
  · exact he'

theorem Holds.has_incoming (hg : Holds dedup ops g) {e : Edge} (he : e ∈ g.edges) :
    e.kind.has .incoming = false := by
  obtain ⟨op, -, hop⟩ := List.mem_filterMap.1 (hg.mem_recorded he)
  cases op with
  | node site create => cases hop
  | dependence a b kind own foreign =>
    cases hop
    exact has_incoming_withoutIncoming kind

/-! ## All operations -/

/-- **The nodes and edges of a graph after any operations.** None of them fails. The nodes are the
    call sites of the operations in the order in which they were created, each once, and the edges
    are the recorded dependences in their order, each once if the graph keeps no duplicates; they
    carry no mark. An edge joins two nodes of the graph, the first of which holds it as outgoing and
    the second as incoming; each node holds its edges in the order of the graph. -/
theorem run_holds (f : Nat) (dedup : Bool) (ops : List Operation) :
    ∃ g, run (.empty f dedup) ops = .ok g ∧
      g.sites = (ops.flatMap Operation.sites).eraseDups ∧ g.sites.Nodup ∧
      (g.edges.toList = if dedup then (ops.filterMap Operation.edge?).eraseDups
        else ops.filterMap Operation.edge?) ∧
      (∀ e ∈ g.edges, e.source ∈ g.sites ∧ e.target ∈ g.sites ∧ e.kind.has .incoming = false) ∧
      (∀ a, g.out a = (g.edges.toList.filter (·.source = a)).map (⟨·, false⟩)) ∧
      (∀ a, g.incoming a = (g.edges.toList.filter (·.target = a)).map (⟨·, true⟩)) ∧
      ∀ a b, g.edgesBetween a b =
        g.edges.toList.filter fun e => e.source = a ∧ e.target = b := by
  have hg := holds_build f dedup ops
  refine ⟨build f dedup ops, run_eq f dedup ops, hg.sites_eq, hg.wellFormed.nodup, hg.edges_eq,
    fun e he => ⟨?_, ?_, hg.has_incoming he⟩, hg.wellFormed.out_refs, hg.wellFormed.incoming_refs,
    hg.wellFormed.edgesBetween_eq⟩
  · exact hg.wellFormed.source_mem e he
  · exact hg.wellFormed.target_mem e he

end Graph

end Overlap.Dependence
