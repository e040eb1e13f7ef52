/-
  An analysis accounts for every dependence once.

  The graphs of the functions of a call tree are built first, and the node sets
  are made of them afterwards.

  * `Context.GraphOf`: the graph of a function has its candidate sites as nodes,
    and its edges join two different ones.  So it is after every analysis
    (`GraphOf.recordEdges`), and therefore in the end (`buildGraphs_ok`);
  * `Context.Tallies`: the node sets of a function are the pairs of its
    candidate sites, and each edge of its graph is in the one of its two sites;
  * `analyze_tallies`: an analysis from a function with a body succeeds, and its
    node sets tally with the graphs of all functions of the call tree.
-/
import Mathlib.Algebra.Order.Ring.Nat
import Mathlib.Data.Set.Function
import Overlap.Proofs.AnalyzePair
import Overlap.Proofs.NodeSets
import Overlap.Proofs.PostOrder
import Overlap.Proofs.Program
import Overlap.Proofs.Sorting

namespace Overlap

open Ssa Dependence

namespace Context

variable {τ : Type} {C : Context τ} {f : Nat} {a b : Loc} {g : Dependence.Graph} {s : State}

theorem nodup_candidates (C : Context τ) (f : Nat) : (C.candidates f).Nodup :=
  Program.nodup_callSites.filter _

theorem func_of_mem_candidates (h : a ∈ C.candidates f) : a.func = f :=
  (Program.mem_callSites_iff.1 (List.mem_filter.1 h).1).1

/-! ## Graphs of candidate sites -/

/-- `g` is a graph of the candidate sites of `f`: they are its nodes, in order, and its edges join
    two different ones. -/
structure GraphOf (C : Context τ) (f : Nat) (g : Dependence.Graph) : Prop where
  func_eq : g.func = f
  wellFormed : g.WellFormed
  sites_eq : g.sites = C.candidates f
  source_ne_target : ∀ e ∈ g.edges, e.source ≠ e.target

/-- Adding the nodes of call sites that have none. -/
theorem foldl_addNode (sites : List Loc) (hg : g.WellFormed) (hsites : (g.sites ++ sites).Nodup) :
    (sites.foldl (·.addNode ·) g).WellFormed ∧
      (sites.foldl (·.addNode ·) g).sites = g.sites ++ sites ∧
      (sites.foldl (·.addNode ·) g).edges = g.edges ∧
      (sites.foldl (·.addNode ·) g).func = g.func := by
  induction sites generalizing g with
  | nil => simpa using hg
  | cons a sites ih =>
    have ha : a ∉ g.sites := fun h =>
      List.disjoint_of_nodup_append hsites h (List.mem_cons_self ..)
    have hadd : (g.addNode a).sites = g.sites ++ [a] := by rw [Graph.sites_addNode, if_neg ha]
    obtain ⟨hwf, hsites', hedges, hfunc⟩ := ih (hg.addNode a) (by simpa [hadd] using hsites)
    refine ⟨hwf, ?_, ?_, ?_⟩
    · rw [List.foldl_cons, hsites', hadd, List.append_assoc]
      rfl
    · rw [List.foldl_cons, hedges, Graph.edges_addNode]
    · rw [List.foldl_cons, hfunc, Graph.func_addNode]

/-- The graph that analyses start from. -/
theorem graphOf_nodes (C : Context τ) (f : Nat) (dedup : Bool) :
    C.GraphOf f ((C.candidates f).foldl (·.addNode ·) (.empty f dedup)) := by
  obtain ⟨hwf, hsites, hedges, hfunc⟩ :=
    foldl_addNode (C.candidates f) (Graph.wellFormed_empty f dedup) (nodup_candidates C f)
  refine ⟨hfunc, hwf, hsites, fun e he => ?_⟩
  rw [hedges] at he
  simp [Graph.empty] at he

theorem GraphOf.recordEdge (hg : C.GraphOf f g) (ha : a ∈ C.candidates f)
    (hb : b ∈ C.candidates f) (hab : a ≠ b) {e : Edge} (he : e.ends = {a, b}) :
    C.GraphOf f (g.recordEdge? (some e)) := by
  obtain ⟨hs, ht, hne⟩ : e.source ∈ C.candidates f ∧ e.target ∈ C.candidates f ∧
      e.source ≠ e.target := by
    rcases Edge.ends_eq_pair_iff.1 he with ⟨hs, ht⟩ | ⟨hs, ht⟩ <;> rw [hs, ht]
    · exact ⟨ha, hb, hab⟩
    · exact ⟨hb, ha, hab.symm⟩
  rw [← hg.sites_eq] at hs ht
  refine ⟨?_, hg.wellFormed.record .., ?_, fun e' he' => ?_⟩
  · rw [← hg.func_eq]
    exact Graph.func_record ..
  · rw [← hg.sites_eq]
    exact Graph.sites_record hs ht
  · rcases Graph.mem_edges_record he' with he' | ⟨hs', ht'⟩
    · exact hg.source_ne_target e' he'
    · rwa [hs', ht']

/-- Graphs of candidate sites stay so when dependences between two of them are recorded. -/
theorem GraphOf.recordEdges (hg : C.GraphOf f g) (ha : a ∈ C.candidates f)
    (hb : b ∈ C.candidates f) (hab : a ≠ b) {es : List Edge} (hes : ∀ e ∈ es, e.ends = {a, b}) :
    C.GraphOf f (g.recordEdges es) :=
  List.foldlRecOn es _ hg fun _ hg' e he => hg'.recordEdge ha hb hab (hes e he)

theorem GraphOf.ends_mem_pairs (hgraph : C.GraphOf f g) {e : Edge} (he : e ∈ g.edges) :
    e.ends ∈ pairs (C.candidates f) := by
  rw [← List.mem_toFinset, toFinset_pairs (nodup_candidates C f), Finset.mem_powersetCard]
  refine ⟨?_, Finset.card_pair (hgraph.source_ne_target e he)⟩
  have hs := hgraph.wellFormed.source_mem e he
  have ht := hgraph.wellFormed.target_mem e he
  rw [hgraph.sites_eq] at hs ht
  simp [Edge.ends, Finset.insert_subset_iff, hs, ht]

/-! ## Building graphs -/

/-- **Building the graph of a function that has none succeeds** and changes no other graph. -/
theorem buildGraph_ok (C : Context τ) (hs : s.graphs[f]? = none) :
    ∃ s', C.buildGraph s f = .ok s' ∧ (∀ h, h ≠ f → s'.graphs[h]? = s.graphs[h]?) ∧
      ∃ g, s'.graphs[f]? = some g ∧ C.GraphOf f g := by
  unfold buildGraph
  refine foldlM_ok (motive := fun s' : State => (∀ h, h ≠ f → s'.graphs[h]? = s.graphs[h]?) ∧
    ∃ g, s'.graphs[f]? = some g ∧ C.GraphOf f g) ?_ ⟨fun h hh => ?_, ?_⟩
  -- every pair is one of two different candidate sites of `f`
  · rintro s₁ ⟨hothers, g, hg, hgraph⟩ ⟨a, b⟩ hp
    obtain ⟨ha, hb⟩ := mem_of_mem_orderedPairs hp
    have hab := ne_of_mem_orderedPairs (nodup_candidates C f) hp
    obtain ⟨s₂, h₂, hrecords⟩ := analyzeSites_records C (func_of_mem_candidates ha)
      (func_of_mem_candidates hb) (by simp [hg] : (s₁.graphs[f]?).isSome)
    obtain ⟨es, hes, hg₂⟩ := hrecords.own g hg
    exact ⟨s₂, h₂, fun h hh => (hrecords.others h hh).trans (hothers h hh), _, hg₂,
      hgraph.recordEdges ha hb hab hes⟩
  · rw [State.graphs_updateGraph, if_neg hh]
  · refine ⟨_, ?_, graphOf_nodes C f C.settings.dedup⟩
    rw [State.graphs_updateGraph, if_pos rfl, State.graph, hs, Option.getD_none]

/-- **The graphs of the functions of a call tree are built without errors.** -/
theorem buildGraphs_ok (C : Context τ) {fs : List Nat} (hfs : fs.Nodup)
    (hs : ∀ f ∈ fs, s.graphs[f]? = none) :
    ∃ s', fs.foldlM C.buildGraph s = .ok s' ∧ (∀ h, h ∉ fs → s'.graphs[h]? = s.graphs[h]?) ∧
      ∀ f ∈ fs, ∃ g, s'.graphs[f]? = some g ∧ C.GraphOf f g := by
  induction fs generalizing s with
  | nil => exact ⟨s, rfl, fun _ _ => rfl, by simp⟩
  | cons f fs ih =>
    obtain ⟨hf, hfs⟩ := List.nodup_cons.1 hfs
    obtain ⟨s₁, h₁, hothers, g, hg, hgraph⟩ := buildGraph_ok C (hs f (List.mem_cons_self ..))
    have hs₁ : ∀ h ∈ fs, s₁.graphs[h]? = none := by
      intro h hh
      rw [hothers h (by rintro rfl; exact hf hh)]
      exact hs h (List.mem_cons_of_mem _ hh)
    obtain ⟨s', h', hkeep, hall⟩ := ih hfs hs₁
    refine ⟨s', ?_, fun h hh => ?_, fun h hh => ?_⟩
    · rw [List.foldlM_cons, h₁]
      exact h'
    · rw [List.mem_cons, not_or] at hh
      exact (hkeep h hh.2).trans (hothers h hh.1)
    · rcases List.mem_cons.1 hh with rfl | hh
      · exact ⟨g, (hkeep h hf).trans hg, hgraph⟩
      · exact hall h hh

/-! ## The functions of the call tree -/

theorem nodup_functions_callTree (C : Context τ) (root : Nat) :
    (C.callTree root).functions.Nodup := by
  rw [callTree, CallTree.functions_build]
  exact Graph.nodup_postOrder ..

theorem root_mem_functions_callTree (C : Context τ) (root : Nat) :
    root ∈ (C.callTree root).functions := by
  rw [callTree, CallTree.functions_build]
  exact Graph.root_mem_postOrder ..

theorem functions_callTree_of_callees_eq_nil {root : Nat} (h : C.callees root = []) :
    (C.callTree root).functions = [root] := by
  simp [callTree, CallTree.functions_build, Graph.postOrder, Graph.walk, h]

/-! ## Node sets of a function -/

variable [Quantity τ]

theorem functionNodeSets_eq (C : Context τ) (hg : s.graphs[f]? = some g) :
    C.functionNodeSets s f = (orderedPairs (C.candidates f)).map fun p =>
      .build C.program g [C.member p.1, C.member p.2] := by
  unfold functionNodeSets
  rw [orderedPairs_map, List.map_map]
  simp [State.graph, hg, Function.comp_def]

theorem map_sites_functionNodeSets (C : Context τ) (hg : s.graphs[f]? = some g) :
    (C.functionNodeSets s f).map NodeSet.sites = pairs (C.candidates f) := by
  rw [functionNodeSets_eq C hg, List.map_map, pairs]
  refine List.map_congr_left fun p _ => ?_
  exact NodeSet.sites_build ..

theorem func_of_mem_functionNodeSets (hgraph : C.GraphOf f g) (hg : s.graphs[f]? = some g)
    {n : NodeSet τ} (hn : n ∈ C.functionNodeSets s f) : n.func = f := by
  rw [functionNodeSets_eq C hg] at hn
  obtain ⟨p, -, rfl⟩ := List.mem_map.1 hn
  exact hgraph.func_eq

/-- The dependences of a node set are the edges that join its call sites. -/
theorem edges_perm_of_mem_functionNodeSets (hgraph : C.GraphOf f g) (hg : s.graphs[f]? = some g)
    {n : NodeSet τ} (hn : n ∈ C.functionNodeSets s f) :
    n.edges.Perm (g.edges.toList.filter fun e => e.ends = n.sites) := by
  rw [functionNodeSets_eq C hg] at hn
  obtain ⟨p, hp, rfl⟩ := List.mem_map.1 hn
  exact NodeSet.edges_build_perm hgraph.wellFormed _
    (ne_of_mem_orderedPairs (nodup_candidates C f) hp)

theorem nodup_functionNodeSets (C : Context τ) (hg : s.graphs[f]? = some g) :
    (C.functionNodeSets s f).Nodup := by
  refine List.Nodup.of_map NodeSet.sites ?_
  rw [map_sites_functionNodeSets C hg]
  exact nodup_pairs (nodup_candidates C f)

/-- The edges of a graph are those of the node sets of its function together. -/
theorem flatMap_edges_perm (hgraph : C.GraphOf f g) (hg : s.graphs[f]? = some g) :
    ((C.functionNodeSets s f).flatMap (·.edges)).Perm g.edges.toList := by
  have hparts : ((C.functionNodeSets s f).flatMap (·.edges)).Perm
      ((C.functionNodeSets s f).flatMap fun n =>
        g.edges.toList.filter fun e => e.ends = n.sites) :=
    List.Perm.flatMap_left _ fun n hn => edges_perm_of_mem_functionNodeSets hgraph hg hn
  have hkeys : ((C.functionNodeSets s f).flatMap fun n =>
      g.edges.toList.filter fun e => e.ends = n.sites) =
      (pairs (C.candidates f)).flatMap fun k => g.edges.toList.filter fun e => e.ends = k := by
    rw [← map_sites_functionNodeSets C hg, List.flatMap_map]
  rw [hkeys] at hparts
  refine hparts.trans (flatMap_filter_perm (nodup_pairs (nodup_candidates C f)) fun e he => ?_)
  exact hgraph.ends_mem_pairs (Array.mem_toList_iff.1 he)

/-- The node sets of a function are the pairs of its candidate sites. -/
theorem bijOn_functionNodeSets (C : Context τ) (hg : s.graphs[f]? = some g) :
    Set.BijOn NodeSet.sites {n | n ∈ C.functionNodeSets s f}
      ((C.candidates f).toFinset.powersetCard 2) := by
  have hsites := map_sites_functionNodeSets C hg
  have hpairs : ∀ k, k ∈ (C.functionNodeSets s f).map NodeSet.sites ↔
      k ∈ (C.candidates f).toFinset.powersetCard 2 := by
    intro k
    rw [hsites, ← List.mem_toFinset, toFinset_pairs (nodup_candidates C f)]
  refine ⟨fun n hn => (hpairs _).1 (List.mem_map_of_mem hn), fun n hn n' hn' h => ?_,
    fun k hk => ?_⟩
  · exact List.inj_on_of_nodup_map (hsites ▸ nodup_pairs (nodup_candidates C f)) hn hn' h
  · exact List.mem_map.1 ((hpairs k).2 hk)

/-- An edge belongs to the node set of its two call sites only. -/
theorem existsUnique_functionNodeSets (hgraph : C.GraphOf f g) (hg : s.graphs[f]? = some g)
    {e : Edge} (he : e ∈ g.edges) : ∃! n, n ∈ C.functionNodeSets s f ∧ e ∈ n.edges := by
  have hiff : ∀ n ∈ C.functionNodeSets s f, e ∈ n.edges ↔ e.ends = n.sites := by
    intro n hn
    rw [(edges_perm_of_mem_functionNodeSets hgraph hg hn).mem_iff]
    simp [he]
  obtain ⟨n, hn, hends⟩ :=
    List.mem_map.1 (map_sites_functionNodeSets C hg ▸ hgraph.ends_mem_pairs he)
  refine ⟨n, ⟨hn, (hiff n hn).2 hends.symm⟩, ?_⟩
  rintro n' ⟨hn', he'⟩
  exact (bijOn_functionNodeSets C hg).injOn hn' hn (((hiff n' hn').1 he').symm.trans hends.symm)

/-- The counters of the node sets of a function add up to the edges of its graph. -/
theorem sum_count_functionNodeSets (hgraph : C.GraphOf f g) (hg : s.graphs[f]? = some g)
    (k : Kinds) :
    ((C.functionNodeSets s f).map (·.count k)).sum = g.edges.toList.countP (·.kind.has k) := by
  calc ((C.functionNodeSets s f).map (·.count k)).sum
      = ((C.functionNodeSets s f).flatMap (·.edges)).countP (·.kind.has k) := by
        rw [List.countP_flatMap]
        rfl
    _ = g.edges.toList.countP (·.kind.has k) := (flatMap_edges_perm hgraph hg).countP_eq _

/-! ## Node sets and graphs -/

/-- The node sets `ns` tally with the graph `g` of `f`. -/
structure Tallies (C : Context τ) (ns : List (NodeSet τ)) (f : Nat) (g : Dependence.Graph) :
    Prop where
  /-- The nodes are the candidate sites, in the order of the instructions. -/
  sites_eq : g.sites = C.candidates f
  /-- An edge joins two different candidate sites. -/
  ends_mem : ∀ e ∈ g.edges,
    e.source ≠ e.target ∧ e.source ∈ C.candidates f ∧ e.target ∈ C.candidates f
  /-- There is one node set for each unordered pair of candidate sites. -/
  bijOn : Set.BijOn NodeSet.sites {n | n ∈ ns ∧ n.func = f}
    ((C.candidates f).toFinset.powersetCard 2)
  /-- A node set has the edges that join its two sites, as often as the graph has them. -/
  edges_perm : ∀ n ∈ ns, n.func = f →
    n.edges.Perm (g.edges.toList.filter fun e => e.ends = n.sites)
  /-- An edge belongs to one node set. -/
  existsUnique : ∀ e ∈ g.edges, ∃! n, n ∈ ns ∧ n.func = f ∧ e ∈ n.edges
  /-- The counters of the node sets add up to the edges of each kind. -/
  sum_count : ∀ k, ((ns.filter (·.func = f)).map (·.count k)).sum =
    g.edges.toList.countP (·.kind.has k)

theorem tallies_of_perm {ns : List (NodeSet τ)} (hgraph : C.GraphOf f g)
    (hg : s.graphs[f]? = some g) (hns : (ns.filter (·.func = f)).Perm (C.functionNodeSets s f)) :
    C.Tallies ns f g := by
  have hmem : ∀ n, n ∈ ns ∧ n.func = f ↔ n ∈ C.functionNodeSets s f := by
    intro n
    rw [← hns.mem_iff, List.mem_filter, decide_eq_true_eq]
  refine ⟨hgraph.sites_eq, fun e he => ⟨hgraph.source_ne_target e he, ?_, ?_⟩, ?_, ?_, ?_, ?_⟩
  · exact hgraph.sites_eq ▸ hgraph.wellFormed.source_mem e he
  · exact hgraph.sites_eq ▸ hgraph.wellFormed.target_mem e he
  · simp only [hmem]
    exact bijOn_functionNodeSets C hg
  · exact fun n hn hf => edges_perm_of_mem_functionNodeSets hgraph hg ((hmem n).1 ⟨hn, hf⟩)
  · intro e he
    simp only [← and_assoc, hmem]
    exact existsUnique_functionNodeSets hgraph hg he
  · intro k
    rw [(hns.map _).sum_eq]
    exact sum_count_functionNodeSets hgraph hg k

/-! ## A function that calls another one twice -/

/-- `twice` calls `tick` two times, which changes a global variable. -/
def twice : Context Float where
  program := smallProgram #[⟨"clock", some 0, .pointer (.basic "int")⟩] #[
    straightLine "twice" #[] #[callTo 0 1 [], callTo 1 1 [], ⟨.ret [], none, none⟩],
    straightLine "tick" #[] #[⟨.store (.global 0) (.const 0), none, none⟩, ⟨.ret [], none, none⟩]]
  resolve
    | ⟨0, 0, _⟩ => some 1
    | _ => none
  pointers := none
  profile := none
  settings := ⟨.modRef, true, false, fun _ => true, .default⟩

/-! ## The analysis -/

/-- Making node sets leaves graphs as they are. -/
theorem graphs_collectNodeSets (C : Context τ) (tree : CallTree) (hg : s.graphs[f]? = some g) :
    (C.collectNodeSets tree s).2.graphs[f]? = some g := by
  refine List.foldlRecOn tree.functions _ (motive := fun s' : State => s'.graphs[f]? = some g) hg ?_
  intro s' hg' h _
  rw [State.graphs_updateGraph]
  split_ifs with hh
  · simp [← hh, State.graph, hg']
  · exact hg'

theorem analyze_eq {root : Nat} {s₀ : State} (hroot : C.program.hasBody root)
    (hs : C.buildGraphs (C.callTree root) s₀ = .ok s) :
    C.analyze (some root) s₀ =
      .ok ({ root := root
             totalTime := C.totalTime
             nodeSets := NodeSet.rank C.settings.weights (C.collectNodeSets (C.callTree root) s).1
             callTree := C.callTree root
             weights := C.settings.weights }, (C.collectNodeSets (C.callTree root) s).2) := by
  have hcheck : C.checkRoot (some root) = .ok root := if_pos hroot
  unfold analyze
  rw [hcheck]
  change ((C.buildGraphs (C.callTree root) s₀).mapError AnalysisError.pair >>= _) = _
  rw [hs]
  rfl

/-- What an analysis that succeeds has done. -/
theorem analyze_cases {root : Option Nat} {s₀ s' : State} {r : Result τ}
    (h : C.analyze root s₀ = .ok (r, s')) :
    ∃ f s, root = some f ∧ C.program.hasBody f ∧ C.buildGraphs (C.callTree f) s₀ = .ok s ∧
      r = { root := f
            totalTime := C.totalTime
            nodeSets := NodeSet.rank C.settings.weights (C.collectNodeSets (C.callTree f) s).1
            callTree := C.callTree f
            weights := C.settings.weights } ∧
      s' = (C.collectNodeSets (C.callTree f) s).2 := by
  cases root with
  | none => cases h
  | some f =>
    by_cases hf : C.program.hasBody f
    · cases hs : C.buildGraphs (C.callTree f) s₀ with
      | ok s =>
        rw [analyze_eq hf hs] at h
        cases h
        exact ⟨f, s, rfl, hf, hs, rfl, rfl⟩
      | error e =>
        simp [analyze, checkRoot, hf, hs, Except.mapError, bind, Except.bind] at h
    · simp [analyze, checkRoot, hf, Except.mapError, bind, Except.bind] at h

/-- **An analysis accounts for every dependence once.** From a function with a body and a fresh
    state it succeeds; its node sets, each listed once, are those of the functions of the call
    tree, and tally with their graphs. -/
theorem analyze_tallies (C : Context τ) {root : Nat} (hroot : C.program.hasBody root) :
    ∃ r s, C.analyze (some root) .fresh = .ok (r, s) ∧ r.callTree = C.callTree root ∧
      root ∈ r.callTree.functions ∧
      (∀ f ∈ r.callTree.functions, ∃ g, s.graphs[f]? = some g ∧ C.Tallies r.nodeSets f g) ∧
      r.nodeSets.Nodup ∧ ∀ n ∈ r.nodeSets, n.func ∈ r.callTree.functions := by
  have hfs := nodup_functions_callTree C root
  obtain ⟨s, hs, -, hall⟩ := buildGraphs_ok C (s := .fresh) hfs (by simp [State.fresh])
  have hperm := Quantity.sortDescending_perm (NodeSet.score · C.settings.weights)
    (C.collectNodeSets (C.callTree root) s).1
  have hfunc : ∀ f ∈ (C.callTree root).functions, ∀ n ∈ C.functionNodeSets s f, n.func = f := by
    intro f hf n hn
    obtain ⟨g, hg, hgraph⟩ := hall f hf
    exact func_of_mem_functionNodeSets hgraph hg hn
  refine ⟨_, _, analyze_eq hroot hs, rfl, root_mem_functions_callTree C root, fun f hf => ?_, ?_,
    fun n hn => ?_⟩
  · obtain ⟨g, hg, hgraph⟩ := hall f hf
    refine ⟨g, graphs_collectNodeSets C _ hg, tallies_of_perm hgraph hg ?_⟩
    refine (hperm.filter _).trans ?_
    rw [collectNodeSets, filter_flatMap_of_key hfunc hfs hf]
  · refine hperm.nodup_iff.2 (List.nodup_flatMap.2 ⟨fun f hf => ?_, ?_⟩)
    · obtain ⟨g, hg, -⟩ := hall f hf
      exact nodup_functionNodeSets C hg
    · -- a node set in two of the lists would be of two functions
      refine hfs.imp_of_mem fun hf hh hne n hn hn' => hne ?_
      exact (hfunc _ hf n hn).symm.trans (hfunc _ hh n hn')
  · obtain ⟨f, hf, hn⟩ := List.mem_flatMap.1 (hperm.mem_iff.1 hn)
    exact hfunc f hf n hn ▸ hf

/-- The two calls of `twice` make one node set. -/
theorem analyze_tallies_twice :
    twice.program.hasBody 0 ∧ twice.candidates 0 = [⟨0, 0, 0⟩, ⟨0, 0, 1⟩] ∧
      ∃ r s, twice.analyze (some 0) .fresh = .ok (r, s) ∧
        ∃ g, s.graphs[0]? = some g ∧ twice.Tallies r.nodeSets 0 g := by
  refine ⟨rfl, by decide, ?_⟩
  obtain ⟨r, s, h, -, hroot, htallies, -⟩ := analyze_tallies twice (rfl : twice.program.hasBody 0)
  exact ⟨r, s, h, htallies 0 hroot⟩

end Context

end Overlap
