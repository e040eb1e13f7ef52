/-
  The drawing of a dependence graph.

  All dependences from one call site to another are drawn as one arrow.  They
  are joined one after the other, in a table by the numbers of their nodes.

  * `Kinds.single`: the sets of a single kind, by which sets of kinds are compared
    (`Kinds.ext_single`);
  * `Keyed.merge_map`: joining values by key gives each key once, with its
    values in order;
  * `Graph.between`: the dependences from the node of one number to that of
    another; `arrows_eq` says that these are what an arrow stands for;
  * `Graph.Loopless`: no edge of a graph joins a node to itself, as in all
    graphs that analyses leave behind (`invariant_loopless`);
  * `StandsFor`: what an arrow looks like that stands for some dependences;
  * `Shows`: a drawing shows a graph without loss; `drawDependences_shows` says
    so of the drawings of these graphs.
-/
import Overlap.Proofs.AnalysisRuns
import Overlap.Proofs.LeafCalls
import Overlap.Render

namespace Overlap

open Ssa Dot

/-! ## Single kinds -/

namespace Kinds

variable {k l : Kinds} {i : Fin 8}

/-- The set of a single kind, by its number. -/
def single (i : Fin 8) : Kinds := ⟨⟨BitVec.twoPow 8 i⟩⟩

example : reported.map (·.1) = [single 0, single 1, single 2, single 3, single 4] := by decide

theorem has_single_iff : k.has (single i) ↔ k.bits.toBitVec.getLsbD i := by
  have hne : BitVec.twoPow 8 i ≠ 0#8 := by
    revert i
    decide
  simp only [has, single, Bool.and_eq_true, beq_iff_eq, bne_iff_ne, ne_eq, ← UInt8.toBitVec_inj,
    UInt8.toBitVec_and, BitVec.and_twoPow]
  split_ifs with hi
  · exact iff_of_true ⟨rfl, hne⟩ hi
  · exact iff_of_false (fun h => hne h.1.symm) hi

theorem has_union_iff : (k.union l).has (single i) ↔ k.has (single i) ∨ l.has (single i) := by
  rw [has_single_iff, has_single_iff, has_single_iff]
  simp [union]

/-- Two sets are equal if they have the same single kinds. -/
theorem ext_single (h : ∀ i, k.has (single i) ↔ l.has (single i)) : k = l := by
  obtain ⟨⟨x⟩⟩ := k
  obtain ⟨⟨y⟩⟩ := l
  simp only [has_single_iff, Bool.coe_iff_coe] at h
  obtain rfl : x = y := BitVec.eq_of_getLsbD_eq fun i hi => h ⟨i, hi⟩
  rfl

end Kinds

/-! ## Values by key -/

namespace Keyed

variable {ι κ ν : Type} [BEq κ] [LawfulBEq κ] {both : ν → ν → ν} {table : List (κ × ν)} {k : κ}

omit [LawfulBEq κ] in
theorem add_of_new (h : table.lookup k = none) (v : ν) :
    add both table (k, v) = table ++ [(k, v)] := by
  simp [add, h]

omit [LawfulBEq κ] in
theorem add_of_known {w : ν} (h : table.lookup k = some w) (v : ν) :
    add both table (k, v) =
      table.map fun entry => (entry.1, if entry.1 == k then both entry.2 v else entry.2) := by
  simp [add, h]

omit [LawfulBEq κ] in
theorem merge_concat (both : ν → ν → ν) (table entries : List (κ × ν)) (entry : κ × ν) :
    merge both table (entries ++ [entry]) = add both (merge both table entries) entry := by
  simp [merge]

/-- **Joining values by key.** Each key is listed once, in order of first appearance, with what its
    values amount to together. -/
theorem merge_map [DecidableEq κ] {key : ι → κ} {value : ι → ν} {total : List ι → ν}
    (hsingle : ∀ x, total [x] = value x)
    (hconcat : ∀ xs x, total (xs ++ [x]) = both (total xs) (value x)) (xs : List ι) :
    merge both [] (xs.map fun x => (key x, value x)) =
      (xs.map key).eraseDups.map fun k => (k, total (xs.filter (key · = k))) := by
  induction xs using List.reverseRecOn with
  | nil => rfl
  | append_singleton xs x ih =>
    have hother : ∀ k ≠ key x, (xs ++ [x]).filter (key · = k) = xs.filter (key · = k) := by
      intro k hk
      simp [Ne.symm hk]
    have hown : (xs ++ [x]).filter (key · = key x) = xs.filter (key · = key x) ++ [x] := by simp
    rw [List.map_append, List.map_singleton, merge_concat, ih, List.map_append, List.map_singleton,
      eraseDups_concat]
    by_cases hx : key x ∈ xs.map key
    · -- the value joins those of its key
      rw [if_pos hx, add_of_known (List.lookup_graph _ (List.mem_eraseDups.2 hx)), List.map_map]
      refine List.map_congr_left fun k _ => ?_
      by_cases hk : k = key x
      · subst hk
        simp [hown, hconcat]
      · simp [hk, hother k hk]
    · have hnew : ((xs.map key).eraseDups.map fun k =>
          (k, total (xs.filter (key · = k)))).lookup (key x) = none := by
        rw [List.lookup_eq_none_iff]
        intro p hp
        obtain ⟨k, hk, rfl⟩ := List.mem_map.1 hp
        rw [bne_iff_ne]
        rintro rfl
        exact hx (List.mem_eraseDups.1 hk)
      have hnil : xs.filter (key · = key x) = [] := by
        refine List.filter_eq_nil_iff.2 fun y hy => ?_
        have hne : key y ≠ key x := fun h => hx (h ▸ List.mem_map_of_mem hy)
        simpa using hne
      rw [if_neg hx, add_of_new hnew, List.map_append, List.map_singleton, hown, hnil,
        List.nil_append, hsingle]
      congr 1
      refine List.map_congr_left fun k hk => ?_
      rw [hother k]
      rintro rfl
      exact hx (List.mem_eraseDups.1 hk)

end Keyed

/-! ## Arrows -/

/-- The arrow that stands for some dependences. -/
def Arrow.ofEdges (es : List Dependence.Edge) : Arrow :=
  ⟨es.foldl (fun k e => k.union e.kind) ⟨0⟩, es.map edgeLabel⟩

theorem Arrow.ofEdges_singleton (e : Dependence.Edge) : ofEdges [e] = ofEdge e := by
  simp [ofEdges, ofEdge, Kinds.union]

theorem Arrow.ofEdges_concat (es : List Dependence.Edge) (e : Dependence.Edge) :
    ofEdges (es ++ [e]) = (ofEdges es).join (ofEdge e) := by
  simp [ofEdges, ofEdge, join]

theorem Arrow.has_ofEdges_iff {es : List Dependence.Edge} {i : Fin 8} :
    (ofEdges es).kinds.has (.single i) ↔ ∃ e ∈ es, e.kind.has (.single i) := by
  induction es using List.reverseRecOn with
  | nil =>
    rw [Kinds.has_single_iff]
    simp [ofEdges]
  | append_singleton es e ih =>
    rw [ofEdges_concat, join, Kinds.has_union_iff, ih]
    simp [ofEdge, or_and_right, exists_or]

namespace Dependence.Graph

variable {g : Graph}

/-- The dependences from the node with one number to the node with another one. -/
def between (g : Graph) (ends : Nat × Nat) : List Edge :=
  match g.sites[ends.1]?, g.sites[ends.2]? with
  | some a, some b => g.edgesBetween a b
  | _, _ => []

theorem WellFormed.idxOf_eq_iff (hg : g.WellFormed) {a : Loc} (ha : a ∈ g.sites) {i : Nat} :
    g.sites.idxOf a = i ↔ g.sites[i]? = some a := by
  constructor
  · rintro rfl
    exact List.getElem?_idxOf ha
  · intro hi
    obtain ⟨hlt, rfl⟩ := List.getElem?_eq_some_iff.1 hi
    exact hg.nodup.idxOf_getElem i hlt

/-- The ends of an edge have two numbers if and only if it is between these. -/
theorem WellFormed.endNumbers_eq_iff (hg : g.WellFormed) {e : Edge} (he : e ∈ g.edges) {i j : Nat} :
    endNumbers g e = (i, j) ↔ g.sites[i]? = some e.source ∧ g.sites[j]? = some e.target := by
  rw [endNumbers, Prod.mk.injEq, hg.idxOf_eq_iff (hg.source_mem e he),
    hg.idxOf_eq_iff (hg.target_mem e he)]

theorem WellFormed.filter_endNumbers (hg : g.WellFormed) (ends : Nat × Nat) :
    g.edges.toList.filter (endNumbers g · = ends) = g.between ends := by
  obtain ⟨i, j⟩ := ends
  have hnumbers : ∀ e ∈ g.edges.toList, endNumbers g e = (i, j) ↔
      g.sites[i]? = some e.source ∧ g.sites[j]? = some e.target := fun e he =>
    hg.endNumbers_eq_iff (Array.mem_toList_iff.1 he)
  unfold between
  cases hi : g.sites[i]? with
  | none =>
    refine List.filter_eq_nil_iff.2 fun e he => ?_
    simp [hnumbers e he, hi]
  | some a =>
    cases hj : g.sites[j]? with
    | none =>
      refine List.filter_eq_nil_iff.2 fun e he => ?_
      simp [hnumbers e he, hj]
    | some b =>
      refine Eq.trans (List.filter_congr fun e he => ?_) (hg.edgesBetween_eq a b).symm
      rw [decide_eq_decide, hnumbers e he, hi, hj, Option.some.injEq, Option.some.injEq,
        eq_comm (a := a), eq_comm (a := b)]

/-- **The arrows of a graph** stand for the dependences between their ends. -/
theorem WellFormed.arrows_eq (hg : g.WellFormed) :
    arrows g = (g.edges.toList.map (endNumbers g)).eraseDups.map fun ends =>
      (ends, Arrow.ofEdges (g.between ends)) := by
  refine (Keyed.merge_map Arrow.ofEdges_singleton Arrow.ofEdges_concat _).trans ?_
  simp only [hg.filter_endNumbers]

theorem WellFormed.ends_arrows (hg : g.WellFormed) :
    (arrows g).map (·.1) = (g.edges.toList.map (endNumbers g)).eraseDups := by
  rw [hg.arrows_eq, List.map_map]
  exact List.map_id _

theorem WellFormed.mem_ends_arrows_iff (hg : g.WellFormed) {ends : Nat × Nat} :
    ends ∈ (arrows g).map (·.1) ↔ g.between ends ≠ [] := by
  rw [hg.ends_arrows, List.mem_eraseDups, ← hg.filter_endNumbers, List.mem_map, Ne,
    List.filter_eq_nil_iff]
  simp

/-- The dependences of all arrows are those of the graph. -/
theorem WellFormed.flatMap_between_perm (hg : g.WellFormed) :
    ((arrows g).flatMap fun a => g.between a.1).Perm g.edges.toList := by
  have hparts : (arrows g).flatMap (fun a => g.between a.1) =
      ((arrows g).map (·.1)).flatMap fun ends =>
        g.edges.toList.filter (endNumbers g · = ends) := by
    rw [List.flatMap_map]
    simp only [hg.filter_endNumbers]
  rw [hparts, hg.ends_arrows]
  refine flatMap_filter_perm (nodup_eraseDups _) fun e he => ?_
  exact List.mem_eraseDups.2 (List.mem_map_of_mem he)

/-! ## Graphs without self edges -/

/-- No edge joins a node to itself. -/
structure Loopless (g : Graph) : Prop where
  wellFormed : g.WellFormed
  source_ne_target : ∀ e ∈ g.edges, e.source ≠ e.target

/-- Analyses record no self edges. -/
theorem invariant_loopless (dedup : Bool) : Invariant dedup Loopless where
  empty f := ⟨wellFormed_empty f dedup, by simp [Graph.empty]⟩
  addNode g a hg := ⟨hg.wellFormed.addNode a, by simpa using hg.source_ne_target⟩
  record g e he hg := by
    refine ⟨hg.wellFormed.record .., fun e' he' => ?_⟩
    rcases mem_edges_record he' with he' | ⟨hsource, htarget⟩
    · exact hg.source_ne_target e' he'
    · rwa [hsource, htarget]

theorem Loopless.ends_ne (hg : g.Loopless) {i j : Nat} (h : g.between (i, j) ≠ []) : i ≠ j := by
  rintro rfl
  obtain ⟨e, he⟩ := List.exists_mem_of_ne_nil _ h
  rw [← hg.wellFormed.filter_endNumbers, List.mem_filter, decide_eq_true_eq] at he
  have hmem := Array.mem_toList_iff.1 he.1
  obtain ⟨hsource, htarget⟩ := (hg.wellFormed.endNumbers_eq_iff hmem).1 he.2
  exact hg.source_ne_target e hmem (Option.some.inj (hsource.symm.trans htarget))

end Dependence.Graph

/-! ## The drawing -/

/-- An arrow with the kinds `kinds` and the attributes `attrs` stands for the dependences `es`. -/
structure StandsFor (es : List Dependence.Edge) (kinds : Kinds) (attrs : List Attr) : Prop where
  /-- Its kinds are those of the dependences together. -/
  has_iff : ∀ i, kinds.has (.single i) ↔ ∃ e ∈ es, e.kind.has (.single i)
  /-- It has the labels of the dependences in order, one on each line, and the colour of the
      gravest kind; it is dashed if neither call dominates the other and there is nothing else. -/
  attrs_eq : attrs = [⟨"label", "\n".intercalate (es.map edgeLabel)⟩] ++
    ((kindColors.find? fun k => kinds.has k.1).map fun k => ⟨"color", k.2⟩).toList ++
    if kinds = .noDominate then [⟨"style", "dashed"⟩] else []

theorem standsFor_ofEdges (es : List Dependence.Edge) :
    StandsFor es (Arrow.ofEdges es).kinds (Arrow.ofEdges es).attrs := by
  refine ⟨fun i => Arrow.has_ofEdges_iff, ?_⟩
  unfold Arrow.attrs
  cases kindColors.find? fun k => (Arrow.ofEdges es).kinds.has k.1 <;> rfl

/-- Dependences determine the attributes of their arrow. -/
theorem StandsFor.attrs_unique {es : List Dependence.Edge} {kinds kinds' : Kinds}
    {attrs attrs' : List Attr} (h : StandsFor es kinds attrs) (h' : StandsFor es kinds' attrs') :
    attrs = attrs' := by
  obtain rfl : kinds = kinds' := Kinds.ext_single fun i => (h.has_iff i).trans (h'.has_iff i).symm
  rw [h.attrs_eq, h'.attrs_eq]

/-- The drawing `d` shows the dependence graph `g` without loss, where `callee` names the callees of
    its call sites. -/
structure Shows (P : Program) (callee : Loc → Option Nat) (g : Dependence.Graph) (d : Drawing) :
    Prop where
  /-- The boxes are the nodes of the graph, numbered in order. -/
  ids_eq : d.nodes.map (·.id) = List.range g.sites.length
  /-- A box is labelled with the callee and the place of its call site. -/
  boxes_eq : d.nodes.map (·.attrs) =
    g.sites.map fun site => [⟨"label", siteLabel P site (callee site)⟩]
  /-- No arrow leads from a box to itself. -/
  source_ne_target : ∀ e ∈ d.edges, e.source ≠ e.target
  /-- There is at most one arrow from one box to another. -/
  nodup : (d.edges.map fun e => (e.source, e.target)).Nodup
  /-- There is an arrow where the graph has a dependence. -/
  joined_iff : ∀ i j, (∃ e ∈ d.edges, e.source = i ∧ e.target = j) ↔ g.between (i, j) ≠ []
  /-- An arrow stands for the dependences between its ends. -/
  standsFor : ∀ e ∈ d.edges, ∃ kinds, StandsFor (g.between (e.source, e.target)) kinds e.attrs
  /-- Every dependence of the graph is on one arrow. -/
  labelled : (d.edges.flatMap fun e => g.between (e.source, e.target)).Perm g.edges.toList

/-- A graph without self edges can be drawn. -/
theorem Dependence.Graph.Loopless.drawDependences_eq {g : Dependence.Graph} (hg : g.Loopless)
    (P : Program) (callee : Loc → Option Nat) :
    drawDependences P callee g = .ok {
      name := "dependencies"
      attrs := [⟨"label", P.shortName g.func⟩]
      nodes := g.sites.mapIdx fun i site => ⟨i, [⟨"label", siteLabel P site (callee site)⟩]⟩
      edges := (arrows g).map fun a => ⟨a.1.1, a.1.2, a.2.attrs⟩ } := by
  refine if_neg ?_
  rw [List.any_eq_true]
  rintro ⟨a, ha, hself⟩
  have hjoined := hg.wellFormed.mem_ends_arrows_iff.1 (List.mem_map_of_mem ha)
  exact hg.ends_ne hjoined (beq_iff_eq.1 hself)

/-- **The drawing of a graph without self edges shows it without loss.** -/
theorem Dependence.Graph.Loopless.exists_shows {g : Dependence.Graph} (hg : g.Loopless)
    (P : Program) (callee : Loc → Option Nat) :
    ∃ d, drawDependences P callee g = .ok d ∧ Shows P callee g d := by
  have hends : ((arrows g).map fun a => (⟨a.1.1, a.1.2, a.2.attrs⟩ : Dot.Edge)).map
      (fun e => (e.source, e.target)) = (arrows g).map (·.1) := List.map_map
  have hjoined : ∀ i j, (∃ e ∈ (arrows g).map fun a => (⟨a.1.1, a.1.2, a.2.attrs⟩ : Dot.Edge),
      e.source = i ∧ e.target = j) ↔ g.between (i, j) ≠ [] := by
    intro i j
    rw [← hg.wellFormed.mem_ends_arrows_iff, ← hends]
    simp
  refine ⟨_, hg.drawDependences_eq P callee, ⟨?_, ?_, ?_, ?_, hjoined, ?_, ?_⟩⟩
  · exact List.ext_getElem (by simp) fun i _ _ => by simp
  · exact List.ext_getElem (by simp) fun i _ _ => by simp
  · intro e he
    exact hg.ends_ne ((hjoined e.source e.target).1 ⟨e, he, rfl, rfl⟩)
  · rw [hends, hg.wellFormed.ends_arrows]
    exact nodup_eraseDups _
  · intro e he
    obtain ⟨a, ha, rfl⟩ := List.mem_map.1 he
    rw [hg.wellFormed.arrows_eq] at ha
    obtain ⟨ends, -, rfl⟩ := List.mem_map.1 ha
    exact ⟨_, standsFor_ofEdges _⟩
  · rw [List.flatMap_map]
    exact hg.wellFormed.flatMap_between_perm

namespace Context

/-! ## The main statement -/

/-- **The graphs that analyses leave behind can be drawn**, and their drawings show them without
    loss: no arrow leads from a box to itself, and every dependence is on the one arrow between its
    call sites. -/
theorem drawDependences_shows {τ : Type} [Quantity τ] (C : Context τ) (roots : List (Option Nat))
    {f : Nat} {g : Dependence.Graph} (hg : (C.analyses .fresh roots).graphs[f]? = some g)
    (callee : Loc → Option Nat) :
    ∃ d, drawDependences C.program callee g = .ok d ∧ Shows C.program callee g d := by
  have hloopless := all_analyses (Dependence.Graph.invariant_loopless C.settings.dedup)
    (State.all_fresh _) roots f g hg
  exact hloopless.exists_shows C.program callee

/-- The graph that the analysis of `forked` leaves behind. -/
theorem between_forked : ∃ g, (forked.analyses .fresh [some 0]).graphs[0]? = some g ∧
    g.sites = forked.candidates 0 ∧ ∀ ends, g.between ends = forkedEdges.filter fun e =>
      ((forked.candidates 0).idxOf e.source, (forked.candidates 0).idxOf e.target) = ends := by
  obtain ⟨s, g, hbuild, hg, hgraph, hedges⟩ := buildGraphs_forked
  refine ⟨g, ?_, hgraph.sites_eq, fun ends => ?_⟩
  · simp only [analyses, List.foldl_cons, List.foldl_nil,
      analyze_eq (rfl : forked.program.hasBody 0) hbuild]
    exact graphs_collectNodeSets forked _ hg
  · rw [← hgraph.wellFormed.filter_endNumbers, hedges, ← hgraph.sites_eq]
    rfl

/-- The drawing of `forked`: a dashed arrow leads from the call of `once` to that of `rest`, and an
    arrow that stands for two dependences to that of `again`. -/
theorem drawDependences_shows_forked : ∃ g d,
    (forked.analyses .fresh [some 0]).graphs[0]? = some g ∧
      drawDependences forked.program (staticCallees forked.program) g = .ok d ∧
      d.nodes.map (·.id) = [0, 1, 2] ∧
      ∀ e, e ∈ d.edges ↔
        e = ⟨0, 1, [⟨"label", "No dominator dependence"⟩, ⟨"color", "gray"⟩, ⟨"style", "dashed"⟩]⟩ ∨
        e = ⟨0, 2, [⟨"label", "Output dependence (G:total -> G:total)\nNo dominator dependence"⟩,
          ⟨"color", "purple"⟩]⟩ := by
  obtain ⟨g, hg, hsites, hbetween⟩ := between_forked
  obtain ⟨d, hd, hshows⟩ := drawDependences_shows forked [some 0] hg (staticCallees forked.program)
  rw [candidates_forked] at hsites hbetween
  have hrest : g.between (0, 1) = [⟨.noDominate, ⟨0, 1, 0⟩, ⟨0, 2, 0⟩, "", ""⟩] := hbetween (0, 1)
  have hagain : g.between (0, 2) = [⟨.output, ⟨0, 1, 0⟩, ⟨0, 2, 1⟩, "G:total", "G:total"⟩,
      ⟨.noDominate, ⟨0, 1, 0⟩, ⟨0, 2, 1⟩, "", ""⟩] := hbetween (0, 2)
  have honly : ∀ ends, g.between ends ≠ [] → ends = (0, 1) ∨ ends = (0, 2) := by
    intro ends hne
    rw [hbetween] at hne
    obtain ⟨e, he⟩ := List.exists_mem_of_ne_nil _ hne
    rw [List.mem_filter, decide_eq_true_eq] at he
    obtain ⟨hmem, rfl⟩ := he
    revert e
    decide
  have hattrs : ∀ e ∈ d.edges,
      e.attrs = (Arrow.ofEdges (g.between (e.source, e.target))).attrs := by
    intro e he
    obtain ⟨kinds, hstands⟩ := hshows.standsFor e he
    exact hstands.attrs_unique (standsFor_ofEdges _)
  have hdrawn : ∀ i j, g.between (i, j) ≠ [] →
      ⟨i, j, (Arrow.ofEdges (g.between (i, j))).attrs⟩ ∈ d.edges := by
    intro i j hne
    obtain ⟨e, he, rfl, rfl⟩ := (hshows.joined_iff i j).2 hne
    rw [← hattrs e he]
    exact he
  refine ⟨g, d, hg, hd, ?_, fun e => ⟨fun he => ?_, ?_⟩⟩
  · rw [hshows.ids_eq, hsites]
    rfl
  · have hends := honly _ ((hshows.joined_iff _ _).1 ⟨e, he, rfl, rfl⟩)
    have hown := hattrs e he
    obtain ⟨source, target, attrs⟩ := e
    dsimp only at hends hown
    rcases hends with hends | hends <;> cases hends
    · rw [hown, hrest]
      exact .inl rfl
    · rw [hown, hagain]
      exact .inr rfl
  · rintro (rfl | rfl)
    · have hmem := hdrawn 0 1 (by simp [hrest])
      rw [hrest] at hmem
      exact hmem
    · have hmem := hdrawn 0 2 (by simp [hagain])
      rw [hagain] at hmem
      exact hmem

end Context

end Overlap
