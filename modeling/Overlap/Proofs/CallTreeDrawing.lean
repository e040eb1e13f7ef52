/-
  Drawings of call trees.

  The red colour comes from the steps of the elementary cycles of a tree.

  * `exists_leastFirst_step`: a call to a node that leads back is a step of an
    elementary cycle, so the steps of all cycles (`mem_flatMap_cycleSteps_iff`)
    and their nodes (`mem_flatten_cyclesBy_iff`) are known;
  * `mem_treeCalls_iff` and `nodup_treeCalls`: the calls that are drawn;
  * `erase_red_drawCallTreeBy`: all that highlighting does is add the colour;
  * `drawCallTreeBy_shows`: what a drawing shows.
-/
import Overlap.Proofs.Recursion
import Overlap.Render

namespace Overlap

open Dot Graph CallTree

/-! ## Steps of cycles -/

section
variable {i j m : Nat} {c : List Nat} {next : Nat → List Nat}

theorem isChain_cycleSteps (c : List Nat) : c.IsChain fun x y => (x, y) ∈ cycleSteps c := by
  induction c with
  | nil => exact .nil
  | cons x c ih =>
    cases c with
    | nil => exact .singleton x
    | cons y c =>
      refine List.isChain_cons_cons.2 ⟨List.mem_cons_self .., ih.imp fun _ _ hstep => ?_⟩
      exact List.mem_cons_of_mem _ hstep

theorem mem_of_mem_cycleSteps (h : (i, j) ∈ cycleSteps c) : i ∈ c ∧ j ∈ c :=
  ⟨(List.of_mem_zip h).1, List.mem_of_mem_drop (List.of_mem_zip h).2⟩

/-- **A step to a node that leads back is on an elementary cycle.** -/
theorem exists_leastFirst_step (hstep : j ∈ next i) (hback : Reaches next j i) :
    ∃ m c, LeastFirst next m c ∧ (i, j) ∈ cycleSteps c := by
  obtain ⟨rest, hnodup, hchain, hlast⟩ := exists_nodup_of_reaches hback
  have hcycle : ((j :: rest : List Nat) : Cycle Nat).Chain fun x y => y ∈ next x := by
    refine List.isChain_append.2 ⟨hchain, .singleton j, fun x hx y hy => ?_⟩
    cases hlast.symm.trans hx
    cases hy
    exact hstep
  obtain ⟨m, c, hc, heq⟩ := exists_leastFirst (by simp) (Cycle.nodup_coe_iff.2 hnodup) hcycle
  refine ⟨m, c, hc, ?_⟩
  -- the steps of `c` are those of the same cycle from `j` on, of which the one to `j` is the last
  have hsteps : (c.dropLast : Cycle Nat).Chain fun x y => (x, y) ∈ cycleSteps c := by
    have hchain := isChain_cycleSteps c
    obtain ⟨nodes, rfl, -⟩ := hc.exists_rest
    rwa [List.dropLast_concat, Cycle.chain_coe_cons]
  rw [heq, Cycle.chain_coe_cons] at hsteps
  exact (List.isChain_append.1 hsteps).2.2 i hlast j rfl

end

section
variable {callees : Nat → List Nat} {size root : Nat} {t : CallTree}
  (ht : t = build callees size root) {split : Splitting} (hsplit : split.Correct)
include ht hsplit

theorem mem_getD_cyclesBy_iff {c : List Nat} :
    c ∈ (t.cyclesBy split).getD [] ↔ ∃ m, LeastFirst t.callees m c := by
  obtain ⟨cycles, heq, -, hmem⟩ := cyclesBy_spec ht hsplit
  rw [heq]
  exact hmem c

/-- **The steps of all cycles** are the calls to nodes that lead back. -/
theorem mem_flatMap_cycleSteps_iff {i j : Nat} (hcall : j ∈ t.callees i) :
    (i, j) ∈ ((t.cyclesBy split).getD []).flatMap cycleSteps ↔ Reaches t.callees j i := by
  simp only [List.mem_flatMap, mem_getD_cyclesBy_iff ht hsplit]
  constructor
  · rintro ⟨c, ⟨m, hc⟩, hstep⟩
    obtain ⟨hi, hj⟩ := mem_of_mem_cycleSteps hstep
    exact (hc.path hj hi).reaches
  · intro hback
    obtain ⟨m, c, hc, hstep⟩ := exists_leastFirst_step hcall hback
    exact ⟨c, ⟨m, hc⟩, hstep⟩

/-- **The nodes of all cycles** are those with a path to themselves. -/
theorem mem_flatten_cyclesBy_iff {i : Nat} :
    i ∈ ((t.cyclesBy split).getD []).flatten ↔ Path t.callees i i := by
  simp only [List.mem_flatten, mem_getD_cyclesBy_iff ht hsplit]
  constructor
  · rintro ⟨c, ⟨m, hc⟩, hi⟩
    exact hc.path hi hi
  · rintro ⟨j, hcall, hback⟩
    obtain ⟨m, c, hc, hstep⟩ := exists_leastFirst_step hcall hback
    exact ⟨c, ⟨m, hc⟩, (mem_of_mem_cycleSteps hstep).1⟩

end

/-! ## Calls -/

section
variable {callees : Nat → List Nat} {size root : Nat} {t : CallTree}
  (ht : t = build callees size root)
include ht

theorem mem_treeCalls_iff {i j : Nat} : (i, j) ∈ treeCalls t ↔ i ≠ j ∧ t.calls i j := by
  simp only [treeCalls, List.mem_flatMap, List.mem_map, List.mem_filter, bne_iff_ne, Prod.mk.injEq]
  constructor
  · rintro ⟨_, -, _, ⟨hcall, hne⟩, rfl, rfl⟩
    exact ⟨hne.symm, List.contains_iff_mem.2 hcall⟩
  · rintro ⟨hne, hcall⟩
    have hcall := List.contains_iff_mem.1 hcall
    refine ⟨i, ?_, j, ⟨hcall, hne.symm⟩, rfl, rfl⟩
    rw [keys_eq_range ht]
    exact List.mem_range.2 (lt_of_mem_callees ht hcall).1

theorem nodup_treeCalls : (treeCalls t).Nodup := by
  have hkeys : t.keys.Nodup := by
    rw [keys_eq_range ht]
    exact List.nodup_range
  refine List.nodup_flatMap.2 ⟨fun i _ => ?_, hkeys.imp fun hne => ?_⟩
  · subst ht
    have hcallees := (callees_build_increasing callees size root i).imp Nat.ne_of_lt
    exact List.Nodup.map (fun _ _ h => (Prod.mk.inj h).2) (hcallees.filter _)
  · simp only [Function.onFun, List.disjoint_left, List.mem_map]
    rintro _ ⟨_, -, rfl⟩ ⟨_, -, h⟩
    exact hne (Prod.mk.inj h).1.symm

end

/-! ## Drawings -/

/-- The colour of what is on a cycle. -/
def red : Attr := ⟨"color", "red"⟩

/-- A drawing without one attribute. -/
def Dot.Drawing.erase (d : Drawing) (a : Attr) : Drawing :=
  { d with
    nodes := d.nodes.map fun n => { n with attrs := n.attrs.filter (· ≠ a) }
    edges := d.edges.map fun e => { e with attrs := e.attrs.filter (· ≠ a) } }

theorem mem_redIf_iff (b : Bool) : red ∈ redIf b ↔ b := by
  cases b <;> simp [redIf, red]

theorem filter_redIf (b : Bool) : (redIf b).filter (· ≠ red) = [] := by
  cases b <;> rfl

/-- The attributes of a box other than its colour. -/
theorem attrs_treeNode (name : Nat → String) (t : CallTree) (b : Bool) (id : Nat) :
    (treeNode name t b id).attrs = (treeNode name t false id).attrs ++ redIf b := by
  simp [treeNode, redIf]

theorem red_notMem_treeNode (name : Nat → String) (t : CallTree) (id : Nat) :
    red ∉ (treeNode name t false id).attrs := by
  cases h : t.calls id id <;> simp [treeNode, redIf, red, h]

theorem red_mem_treeNode_iff (name : Nat → String) (t : CallTree) (b : Bool) (id : Nat) :
    red ∈ (treeNode name t b id).attrs ↔ b := by
  rw [attrs_treeNode, List.mem_append, or_iff_right (red_notMem_treeNode name t id), mem_redIf_iff]

theorem border_mem_treeNode_iff (name : Nat → String) (t : CallTree) (b : Bool) (id : Nat) :
    ⟨"peripheries", "2"⟩ ∈ (treeNode name t b id).attrs ↔ t.calls id id := by
  cases h : t.calls id id <;> cases b <;> simp [treeNode, redIf, h]

/-- **All that highlighting does is add the colour.** -/
theorem erase_red_drawCallTreeBy (split : Splitting) (name : Nat → String) (t : CallTree) :
    (drawCallTreeBy split name t true).erase red = drawCallTreeBy split name t false := by
  have hnode : ∀ b id, (treeNode name t b id).attrs.filter (· ≠ red) =
      (treeNode name t false id).attrs := by
    intro b id
    rw [attrs_treeNode, List.filter_append, filter_redIf, List.append_nil, List.filter_eq_self]
    intro a ha
    exact decide_eq_true fun h => red_notMem_treeNode name t id (h ▸ ha)
  simp only [drawCallTreeBy, Drawing.erase, List.map_map, Drawing.mk.injEq, true_and]
  constructor
  · refine List.map_congr_left fun id _ => ?_
    exact congrArg (Dot.Node.mk id) (hnode _ id)
  · refine List.map_congr_left fun call _ => ?_
    exact congrArg (Dot.Edge.mk call.1 call.2) (filter_redIf _)

theorem red_notMem_erase (d : Drawing) :
    (∀ n ∈ (d.erase red).nodes, red ∉ n.attrs) ∧ ∀ e ∈ (d.erase red).edges, red ∉ e.attrs := by
  simp [Drawing.erase]

theorem ids_drawCallTreeBy (split : Splitting) (name : Nat → String) (t : CallTree) (b : Bool) :
    (drawCallTreeBy split name t b).nodes.map (·.id) = t.keys :=
  List.map_map.trans (List.map_id t.keys)

theorem ends_drawCallTreeBy (split : Splitting) (name : Nat → String) (t : CallTree) (b : Bool) :
    (drawCallTreeBy split name t b).edges.map (fun e => (e.source, e.target)) = treeCalls t :=
  List.map_map.trans (List.map_id (treeCalls t))

/-- The boxes of a drawing are labelled with the names of the functions. -/
theorem labels_drawCallTreeBy {callees : Nat → List Nat} {size root : Nat} {t : CallTree}
    (ht : t = build callees size root) (split : Splitting) (name : Nat → String) (b : Bool) :
    (drawCallTreeBy split name t b).nodes.map (fun n => (t.function? n.id, n.attrs.head?)) =
      t.functions.map fun f => (some f, some ⟨"label", name f⟩) := by
  have hnode : ∀ id ∈ t.keys, (t.function? id).isSome := by
    subst ht
    intro id hid
    rw [function?_build]
    simpa [keys_build] using hid
  let label : Option Nat → Option Nat × Option Attr := fun f? =>
    (f?, some ⟨"label", (f?.map name).getD ""⟩)
  calc (drawCallTreeBy split name t b).nodes.map (fun n => (t.function? n.id, n.attrs.head?))
    _ = (t.keys.map t.function?).map label := by simp [drawCallTreeBy, treeNode, label]
    _ = (t.functions.map some).map label := by rw [functions, map_some_filterMap hnode]
    _ = t.functions.map fun f => (some f, some ⟨"label", name f⟩) := by simp [label]

/-- **What the drawing of a call tree shows.** With any way to find strongly connected components:
    there is one box for each function of the tree, with its name, and one arrow for each call
    between different nodes. A node that calls itself has a double border. If cycles are
    highlighted, a node is red if and only if it leads to itself by at least one call, and a call if
    and only if the called node leads to the caller. Otherwise nothing is red, and all else is the
    same. -/
theorem drawCallTreeBy_shows (callees : Nat → List Nat) (size root : Nat) {split : Splitting}
    (hsplit : split.Correct) (name : Nat → String) :
    let t := build callees size root
    let d := drawCallTreeBy split name t true
    let plain := drawCallTreeBy split name t false
    t.functions.Nodup ∧
      d.nodes.map (fun n => (t.function? n.id, n.attrs.head?)) =
        t.functions.map (fun f => (some f, some ⟨"label", name f⟩)) ∧
      (d.nodes.map (·.id)).Nodup ∧
      (d.edges.map fun e => (e.source, e.target)).Nodup ∧
      (∀ i j, (∃ e ∈ d.edges, e.source = i ∧ e.target = j) ↔ i ≠ j ∧ t.calls i j) ∧
      (∀ n ∈ d.nodes, ⟨"peripheries", "2"⟩ ∈ n.attrs ↔ t.calls n.id n.id) ∧
      (∀ n ∈ d.nodes, red ∈ n.attrs ↔ Path t.callees n.id n.id) ∧
      (∀ e ∈ d.edges, red ∈ e.attrs ↔ Reaches t.callees e.target e.source) ∧
      (∀ n ∈ plain.nodes, red ∉ n.attrs) ∧ (∀ e ∈ plain.edges, red ∉ e.attrs) ∧
      plain = d.erase red := by
  intro t d plain
  have hplain : plain = d.erase red := (erase_red_drawCallTreeBy split name t).symm
  have hcalls : d.edges.map (fun e => (e.source, e.target)) = treeCalls t :=
    ends_drawCallTreeBy split name t true
  have hedge : ∀ i j, (∃ e ∈ d.edges, e.source = i ∧ e.target = j) ↔ i ≠ j ∧ t.calls i j := by
    intro i j
    rw [← mem_treeCalls_iff (t := t) rfl, ← hcalls]
    simp
  refine ⟨?_, labels_drawCallTreeBy rfl split name true, ?_, ?_, hedge, ?_, ?_, ?_, ?_⟩
  · rw [functions_build]
    exact nodup_postOrder callees size root
  · rw [ids_drawCallTreeBy, keys_build]
    exact List.nodup_range
  · rw [hcalls]
    exact nodup_treeCalls rfl
  · intro n hn
    obtain ⟨id, -, rfl⟩ := List.mem_map.1 hn
    exact border_mem_treeNode_iff name t _ id
  · intro n hn
    obtain ⟨id, -, rfl⟩ := List.mem_map.1 hn
    rw [red_mem_treeNode_iff, List.contains_iff_mem]
    exact mem_flatten_cyclesBy_iff rfl hsplit
  · intro e he
    have hcall := ((hedge e.source e.target).1 ⟨e, he, rfl, rfl⟩).2
    obtain ⟨call, -, rfl⟩ := List.mem_map.1 he
    rw [mem_redIf_iff, List.contains_iff_mem]
    exact mem_flatMap_cycleSteps_iff rfl hsplit (List.contains_iff_mem.1 hcall)
  · rw [hplain]
    exact ⟨(red_notMem_erase d).1, (red_notMem_erase d).2, rfl⟩

/-- The functions 2, 1, 3 and 0 have the nodes 0 to 3. -/
theorem drawCallTreeBy_shows_mixed :
    let t := build mixedCalls 3 0
    let d := drawCallTreeBy strongComponents toString t true
    Splitting.Correct strongComponents ∧
      d.nodes = [⟨0, [⟨"label", "2"⟩, red]⟩, ⟨1, [⟨"label", "1"⟩, red]⟩,
        ⟨2, [⟨"label", "3"⟩, ⟨"peripheries", "2"⟩, red]⟩, ⟨3, [⟨"label", "0"⟩]⟩] ∧
      d.edges = [⟨0, 1, [red]⟩, ⟨1, 0, [red]⟩, ⟨3, 1, []⟩, ⟨3, 2, []⟩] ∧
      Path t.callees 2 2 ∧ ¬ Path t.callees 3 3 ∧
      Reaches t.callees 0 1 ∧ ¬ Reaches t.callees 2 3 := by
  intro t d
  have hnodes : d.nodes = [⟨0, [⟨"label", "2"⟩, red]⟩, ⟨1, [⟨"label", "1"⟩, red]⟩,
      ⟨2, [⟨"label", "3"⟩, ⟨"peripheries", "2"⟩, red]⟩, ⟨3, [⟨"label", "0"⟩]⟩] := by cbv
  have hedges : d.edges = [⟨0, 1, [red]⟩, ⟨1, 0, [red]⟩, ⟨3, 1, []⟩, ⟨3, 2, []⟩] := by cbv
  obtain ⟨-, -, -, -, -, -, hnode, hedge, -⟩ :=
    drawCallTreeBy_shows mixedCalls 3 0 correct_strongComponents toString
  have hloop := hnode ⟨2, [⟨"label", "3"⟩, ⟨"peripheries", "2"⟩, red]⟩ (by simp [t, d, hnodes])
  have hroot := hnode ⟨3, [⟨"label", "0"⟩]⟩ (by simp [t, d, hnodes])
  have hback := hedge ⟨1, 0, [red]⟩ (by simp [t, d, hedges])
  have hforth := hedge ⟨3, 2, []⟩ (by simp [t, d, hedges])
  refine ⟨correct_strongComponents, hnodes, hedges, hloop.1 (by simp), ?_, hback.1 (by simp), ?_⟩
  · intro hpath
    exact absurd (hroot.2 hpath) (by decide)
  · intro hreach
    exact absurd (hforth.2 hreach) (by decide)

end Overlap
