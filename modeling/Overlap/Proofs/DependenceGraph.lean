/-
  Dependence graphs store their edges consistently.

  An edge is stored once, and its two nodes hold its number.

  * `Graph.WellFormed`: each call site has one node, which holds the numbers of
    just the edges that start and end there, in order;
  * `WellFormed.addNode`, `WellFormed.pushEdge` and `WellFormed.record`: this is
    so of every graph that is built from the empty one;
  * `edges_recordEdges_of_plain` and `mem_edges_recordEdges`: recording edges adds
    each of them to a graph that keeps duplicates, and leaves every graph with
    all of them;
  * `WellFormed.edgesBetween_eq`: looking edges up gives those of the graph.
-/
import Mathlib.Data.Finset.Insert
import Overlap.Dependence.Analyzer
import Overlap.Proofs.Lists

namespace Overlap.Dependence

open Ssa

/-- The two call sites of an edge. -/
def Edge.ends (e : Edge) : Finset Loc := {e.source, e.target}

theorem Edge.ends_eq_pair_iff {e : Edge} {a b : Loc} :
    e.ends = {a, b} ↔ e.source = a ∧ e.target = b ∨ e.source = b ∧ e.target = a := by
  rw [Edge.ends, ← Finset.coe_inj]
  simpa using Set.pair_eq_pair_iff

namespace Graph

variable {g : Graph} {a b : Loc} {e : Edge}

/-! ## Numbers of edges -/

/-- The numbers of the edges with a property, in order. -/
def numbers (p : Edge → Bool) (es : Array Edge) : List Nat :=
  (List.range es.size).filter fun i => (es[i]?).any p

theorem numbers_push (p : Edge → Bool) (es : Array Edge) (e : Edge) :
    numbers p (es.push e) = numbers p es ++ if p e then [es.size] else [] := by
  unfold numbers
  rw [Array.size_push, List.range_succ, List.filter_append]
  congr 1
  · refine List.filter_congr fun i hi => ?_
    rw [Array.getElem?_push, if_neg (Nat.ne_of_lt (List.mem_range.1 hi))]
  · simp [List.filter_cons]

theorem numbers_eq_nil {p : Edge → Bool} {es : Array Edge} (h : ∀ e ∈ es, p e = false) :
    numbers p es = [] := by
  refine List.filter_eq_nil_iff.2 fun i _ => ?_
  cases hi : es[i]? with
  | none => simp
  | some e => simp [h e (Array.mem_of_getElem? hi)]

/-- The numbers held by a node stay those of the edges at its call site `x`, on one `side` of
    them. -/
theorem numbers_side_push {side : Edge → Loc} {x : Loc} {ids : Array Nat} {es : Array Edge}
    (h : ids.toList = numbers (side · = x) es) (e : Edge) :
    (if x = side e then ids.push es.size else ids).toList = numbers (side · = x) (es.push e) := by
  rw [numbers_push]
  by_cases hx : x = side e
  · subst hx
    simp [← h]
  · simp [hx, Ne.symm hx, ← h]

/-- The edges with these numbers are those with the property. -/
theorem filterMap_numbers (p : Edge → Bool) (es : Array Edge) :
    (numbers p es).filterMap (es[·]?) = es.toList.filter p := by
  unfold numbers
  rw [List.filterMap_filter]
  have hget : ∀ i : Nat, (if (es[i]?).any p then es[i]? else none) = (es.toList[i]?).filter p := by
    intro i
    rw [Array.getElem?_toList]
    cases es[i]? <;> simp [Option.filter]
  simp only [hget, ← List.filter_filterMap, ← Array.length_toList, filterMap_getElem?_range]

/-! ## Nodes -/

theorem isSome_node?_iff : (g.node? a).isSome ↔ a ∈ g.sites := by
  simp [node?, sites, Array.find?_isSome]

theorem node?_eq_some {n : Node} (h : g.node? a = some n) : n ∈ g.nodes ∧ n.site = a :=
  ⟨Array.mem_of_find?_eq_some h, by simpa using Array.find?_some h⟩

theorem sites_addNode (g : Graph) (a : Loc) :
    (g.addNode a).sites = if a ∈ g.sites then g.sites else g.sites ++ [a] := by
  unfold addNode
  simp only [isSome_node?_iff]
  split_ifs
  · rfl
  · simp [sites]

theorem mem_sites_addNode_iff : b ∈ (g.addNode a).sites ↔ b ∈ g.sites ∨ b = a := by
  rw [sites_addNode]
  split_ifs with h
  · exact ⟨Or.inl, fun hb => hb.elim id fun hb => hb ▸ h⟩
  · simp

@[simp] theorem edges_addNode (g : Graph) (a : Loc) : (g.addNode a).edges = g.edges := by
  unfold addNode
  split_ifs <;> rfl

@[simp] theorem func_addNode (g : Graph) (a : Loc) : (g.addNode a).func = g.func := by
  unfold addNode
  split_ifs <;> rfl

theorem addNode_of_mem (h : a ∈ g.sites) : g.addNode a = g :=
  if_pos (isSome_node?_iff.2 h)

@[simp] theorem sites_pushEdge (g : Graph) (e : Edge) : (g.pushEdge e).sites = g.sites := by
  simp [sites, pushEdge, link, Function.comp_def]

/-! ## Well-formed graphs -/

/-- Each call site has one node, which holds the numbers of the edges that start and end there. -/
structure WellFormed (g : Graph) : Prop where
  nodup : g.sites.Nodup
  source_mem : ∀ e ∈ g.edges, e.source ∈ g.sites
  target_mem : ∀ e ∈ g.edges, e.target ∈ g.sites
  out_eq : ∀ n ∈ g.nodes, n.out.toList = numbers (·.source = n.site) g.edges
  incoming_eq : ∀ n ∈ g.nodes, n.incoming.toList = numbers (·.target = n.site) g.edges

theorem wellFormed_empty (f : Nat) (dedup : Bool) : (empty f dedup).WellFormed where
  nodup := List.nodup_nil
  source_mem := by simp [empty]
  target_mem := by simp [empty]
  out_eq := by simp [empty]
  incoming_eq := by simp [empty]

theorem WellFormed.addNode (hg : g.WellFormed) (a : Loc) : (g.addNode a).WellFormed := by
  by_cases ha : a ∈ g.sites
  · rwa [addNode_of_mem ha]
  · have hsites : (g.addNode a).sites = g.sites ++ [a] := by rw [sites_addNode, if_neg ha]
    have hnode : ∀ n ∈ (g.addNode a).nodes, n ∈ g.nodes ∨ n = ⟨a, #[], #[]⟩ := by
      intro n hn
      rw [Graph.addNode, if_neg (mt isSome_node?_iff.1 ha)] at hn
      exact Array.mem_push.1 hn
    refine ⟨?_, ?_, ?_, ?_, ?_⟩
    · rw [hsites]
      exact List.nodup_append_comm.1 (List.nodup_cons.2 ⟨ha, hg.nodup⟩)
    · intro e he
      rw [edges_addNode] at he
      exact hsites ▸ List.mem_append_left _ (hg.source_mem e he)
    · intro e he
      rw [edges_addNode] at he
      exact hsites ▸ List.mem_append_left _ (hg.target_mem e he)
    · intro n hn
      rw [edges_addNode]
      rcases hnode n hn with hn | rfl
      · exact hg.out_eq n hn
      · refine (numbers_eq_nil fun e he => ?_).symm
        exact decide_eq_false fun h : e.source = a => ha (h ▸ hg.source_mem e he)
    · intro n hn
      rw [edges_addNode]
      rcases hnode n hn with hn | rfl
      · exact hg.incoming_eq n hn
      · refine (numbers_eq_nil fun e he => ?_).symm
        exact decide_eq_false fun h : e.target = a => ha (h ▸ hg.target_mem e he)

theorem WellFormed.pushEdge (hg : g.WellFormed) (hs : e.source ∈ g.sites)
    (ht : e.target ∈ g.sites) : (g.pushEdge e).WellFormed := by
  have hmem : ∀ e' ∈ (g.pushEdge e).edges, e' ∈ g.edges ∨ e' = e := fun e' he' =>
    Array.mem_push.1 he'
  refine ⟨?_, ?_, ?_, ?_, ?_⟩
  · rw [sites_pushEdge]
    exact hg.nodup
  · intro e' he'
    rw [sites_pushEdge]
    rcases hmem e' he' with he' | rfl
    · exact hg.source_mem e' he'
    · exact hs
  · intro e' he'
    rw [sites_pushEdge]
    rcases hmem e' he' with he' | rfl
    · exact hg.target_mem e' he'
    · exact ht
  · intro n hn
    obtain ⟨m, hm, rfl⟩ := Array.mem_map.1 hn
    exact numbers_side_push (hg.out_eq m hm) e
  · intro n hn
    obtain ⟨m, hm, rfl⟩ := Array.mem_map.1 hn
    exact numbers_side_push (hg.incoming_eq m hm) e

/-! ## Recording dependences -/

variable {kind : Kinds} {own foreign : String}

/-- Recording adds the two nodes, and at most one edge between them. -/
theorem record_cases (g : Graph) (a b : Loc) (kind : Kinds) (own foreign : String) :
    g.record a b kind own foreign = (g.addNode a).addNode b ∨
      g.record a b kind own foreign =
        ((g.addNode a).addNode b).pushEdge ⟨kind.withoutIncoming, a, b, own, foreign⟩ := by
  unfold record addDependence
  dsimp only
  split_ifs
  · exact Or.inl rfl
  · exact Or.inr rfl

theorem WellFormed.record (hg : g.WellFormed) (a b : Loc) (kind : Kinds) (own foreign : String) :
    (g.record a b kind own foreign).WellFormed := by
  have hnodes : ((g.addNode a).addNode b).WellFormed := (hg.addNode a).addNode b
  have ha : a ∈ ((g.addNode a).addNode b).sites := by simp [mem_sites_addNode_iff]
  have hb : b ∈ ((g.addNode a).addNode b).sites := by simp [mem_sites_addNode_iff]
  rcases record_cases g a b kind own foreign with h | h <;> rw [h]
  · exact hnodes
  · exact hnodes.pushEdge ha hb

theorem func_record (g : Graph) (a b : Loc) (kind : Kinds) (own foreign : String) :
    (g.record a b kind own foreign).func = g.func := by
  rcases record_cases g a b kind own foreign with h | h <;> simp [h, pushEdge]

theorem sites_record (ha : a ∈ g.sites) (hb : b ∈ g.sites) :
    (g.record a b kind own foreign).sites = g.sites := by
  rcases record_cases g a b kind own foreign with h | h <;>
    simp [h, addNode_of_mem ha, addNode_of_mem hb]

theorem mem_edges_record (he : e ∈ (g.record a b kind own foreign).edges) :
    e ∈ g.edges ∨ e.source = a ∧ e.target = b := by
  rcases record_cases g a b kind own foreign with h | h <;> rw [h] at he
  · exact Or.inl (by simpa using he)
  · rcases Array.mem_push.1 he with he | rfl
    · exact Or.inl (by simpa using he)
    · exact Or.inr ⟨rfl, rfl⟩

/-- The graph with some edges recorded one after the other. -/
def recordEdges (g : Graph) (es : List Edge) : Graph :=
  es.foldl (fun g e => g.recordEdge? (some e)) g

theorem recordEdges_append (g : Graph) (es es' : List Edge) :
    g.recordEdges (es ++ es') = (g.recordEdges es).recordEdges es' := List.foldl_append

theorem recordEdges_toList (g : Graph) (e? : Option Edge) :
    g.recordEdges e?.toList = g.recordEdge? e? := by
  cases e? <;> rfl

/-! ## Recorded edges -/

@[simp] theorem dedup_addNode (g : Graph) (a : Loc) : (g.addNode a).dedup = g.dedup := by
  unfold addNode
  split_ifs <;> rfl

theorem dedup_record (g : Graph) (a b : Loc) (kind : Kinds) (own foreign : String) :
    (g.record a b kind own foreign).dedup = g.dedup := by
  rcases record_cases g a b kind own foreign with h | h <;> simp [h, pushEdge]

/-- A graph that keeps duplicates gets every edge. -/
theorem edges_record_of_plain (hg : g.dedup = false) :
    (g.record a b kind own foreign).edges =
      g.edges.push ⟨kind.withoutIncoming, a, b, own, foreign⟩ := by
  simp [record, addDependence, hg, pushEdge]

theorem edges_recordEdges_of_plain {es : List Edge} (hg : g.dedup = false)
    (hes : ∀ e ∈ es, e.kind.withoutIncoming = e.kind) :
    (g.recordEdges es).edges.toList = g.edges.toList ++ es := by
  induction es generalizing g with
  | nil => simp [recordEdges]
  | cons e es ih =>
    have hkind : e.kind.withoutIncoming = e.kind := hes e (List.mem_cons_self ..)
    have hg' : (g.recordEdge? (some e)).dedup = false := (dedup_record ..).trans hg
    have hedges : (g.recordEdge? (some e)).edges = g.edges.push e := by
      rw [recordEdge?, edges_record_of_plain hg, hkind]
    have := ih hg' fun e' he' => hes e' (List.mem_cons_of_mem _ he')
    rw [hedges, Array.toList_push, List.append_assoc] at this
    exact this

theorem mem_edges_record_self (g : Graph) (a b : Loc) (kind : Kinds) (own foreign : String) :
    ⟨kind.withoutIncoming, a, b, own, foreign⟩ ∈ (g.record a b kind own foreign).edges := by
  unfold record addDependence
  dsimp only
  split_ifs with h
  · simp only [Bool.and_eq_true, Array.contains_iff_mem] at h
    exact h.2
  · exact Array.mem_push_self

theorem mem_edges_record_of_mem (he : e ∈ g.edges) : e ∈ (g.record a b kind own foreign).edges := by
  rcases record_cases g a b kind own foreign with h | h <;> rw [h]
  · simpa using he
  · exact Array.mem_push_of_mem _ (by simpa using he)

/-- Every graph has the edges recorded in it. -/
theorem mem_edges_recordEdges {es : List Edge} (he : e ∈ es)
    (hkind : e.kind.withoutIncoming = e.kind) : e ∈ (g.recordEdges es).edges := by
  have hkeep : ∀ (es : List Edge) (g : Graph), e ∈ g.edges → e ∈ (g.recordEdges es).edges :=
    fun es g hg => List.foldlRecOn es _ (motive := fun g : Graph => e ∈ g.edges) hg
      fun _ hg' _ _ => mem_edges_record_of_mem hg'
  obtain ⟨es₁, es₂, rfl⟩ := List.append_of_mem he
  rw [recordEdges_append]
  refine hkeep es₂ _ ?_
  have := mem_edges_record_self (g.recordEdges es₁) e.source e.target e.kind e.own e.foreign
  rwa [hkind] at this

/-! ## Looking edges up -/

theorem edgesAt_of_numbers {ids : Array Nat} {p : Edge → Bool}
    (h : ids.toList = numbers p g.edges) : g.edgesAt ids = g.edges.toList.filter p := by
  rw [edgesAt, h, filterMap_numbers]

theorem not_mem_sites (hn : g.node? a = none) : a ∉ g.sites := fun h => by
  simpa [hn] using isSome_node?_iff.2 h

/-- The references held by the source of edges, in the order of the graph. -/
theorem WellFormed.out_refs (hg : g.WellFormed) (a : Loc) :
    g.out a = (g.edges.toList.filter (·.source = a)).map (⟨·, false⟩) := by
  unfold out
  cases hn : g.node? a with
  | some n =>
    obtain ⟨hmem, rfl⟩ := node?_eq_some hn
    exact congrArg _ (edgesAt_of_numbers (hg.out_eq n hmem))
  | none =>
    have hnone : g.edges.toList.filter (·.source = a) = [] := by
      refine List.filter_eq_nil_iff.2 fun e he => ?_
      have hs := hg.source_mem e (Array.mem_toList_iff.1 he)
      simpa using fun h : e.source = a => not_mem_sites hn (h ▸ hs)
    rw [hnone, List.map_nil]

/-- The references held by the target of edges, in the order of the graph. -/
theorem WellFormed.incoming_refs (hg : g.WellFormed) (a : Loc) :
    g.incoming a = (g.edges.toList.filter (·.target = a)).map (⟨·, true⟩) := by
  unfold incoming
  cases hn : g.node? a with
  | some n =>
    obtain ⟨hmem, rfl⟩ := node?_eq_some hn
    exact congrArg _ (edgesAt_of_numbers (hg.incoming_eq n hmem))
  | none =>
    have hnone : g.edges.toList.filter (·.target = a) = [] := by
      refine List.filter_eq_nil_iff.2 fun e he => ?_
      have ht := hg.target_mem e (Array.mem_toList_iff.1 he)
      simpa using fun h : e.target = a => not_mem_sites hn (h ▸ ht)
    rw [hnone, List.map_nil]

/-- The edges that start at a call site, in the order of the graph. -/
theorem WellFormed.out_edges (hg : g.WellFormed) (a : Loc) :
    (g.out a).map (·.edge) = g.edges.toList.filter (·.source = a) := by
  rw [hg.out_refs, List.map_map]
  exact List.map_id _

/-- **The edges between two call sites are those of the graph**, in its order. -/
theorem WellFormed.edgesBetween_eq (hg : g.WellFormed) (a b : Loc) :
    g.edgesBetween a b = g.edges.toList.filter fun e => e.source = a ∧ e.target = b := by
  unfold edgesBetween
  rw [hg.out_edges, List.filter_filter]
  refine List.filter_congr fun e _ => ?_
  simp [Bool.and_comm, beq_eq_decide]

end Graph

end Overlap.Dependence
