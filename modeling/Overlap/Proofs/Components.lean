/-
  Strongly connected components.

  * `mem_closure_iff`: the closure of some points is what can be reached from
    them;
  * `StrongComponents`: some lists of nodes are the strongly connected
    components of a graph, and a `Splitting` is `Correct` if it finds them in
    every graph; `strongComponents` does (`correct_strongComponents`);
  * `StrongComponents.isCyclic_iff`: a component contains a cycle if and only if
    its nodes have a path to themselves;
  * `leastCyclic?_eq_some`: the least node on a cycle;
  * `CyclicGroups`: the components with cycles, as `recursiveGroups` lists them.
-/
import Mathlib.Data.List.Nodup
import Mathlib.Data.List.Pairwise
import Mathlib.Data.List.Perm.Subperm
import Overlap.Graph.Cycle
import Overlap.Proofs.Reach

namespace Overlap.Graph

/-! ## Closures -/

section
variable {α : Type} [DecidableEq α] {next : α → List α} {points : List α}

theorem mem_explore_of_mem_seen {fuel : Nat} {seen todo : List α} {x : α} (hx : x ∈ seen) :
    x ∈ explore next fuel seen todo := by
  fun_induction explore next fuel seen todo with
  | case1 => exact hx
  | case2 fuel seen y todo hy ih => exact ih hx
  | case3 seen y todo hy => exact hx
  | case4 seen y todo hy fuel ih => exact ih (List.mem_cons_of_mem _ hx)

/-- What is explored has been seen before, or can be reached. -/
theorem reaches_of_mem_explore {fuel : Nat} {seen todo : List α} {y : α}
    (hy : y ∈ explore next fuel seen todo) : y ∈ seen ∨ ∃ x ∈ todo, Reaches next x y := by
  fun_induction explore next fuel seen todo with
  | case1 => exact .inl hy
  | case2 fuel seen x todo hx ih =>
    rcases ih hy with h | ⟨z, hz, hzy⟩
    · exact .inl h
    · exact .inr ⟨z, List.mem_cons_of_mem _ hz, hzy⟩
  | case3 seen x todo hx => exact .inl hy
  | case4 seen x todo hx fuel ih =>
    rcases ih hy with h | ⟨z, hz, hzy⟩
    · rcases List.mem_cons.1 h with rfl | h
      · exact .inr ⟨y, List.mem_cons_self .., .refl y⟩
      · exact .inl h
    · rcases List.mem_append.1 hz with hz | hz
      · exact .inr ⟨x, List.mem_cons_self .., .step hz hzy⟩
      · exact .inr ⟨z, List.mem_cons_of_mem _ hz, hzy⟩

/-- With fuel for all points, what is explored contains what is to be done and all successors of
    its own. -/
theorem explore_closed (hnext : ∀ x ∈ points, ∀ y ∈ next x, y ∈ points) (fuel : Nat)
    {seen todo : List α} (hnodup : seen.Nodup) (hseen : seen ⊆ points) (htodo : todo ⊆ points)
    (hfuel : points.length ≤ fuel + seen.length)
    (hstep : ∀ x ∈ seen, ∀ y ∈ next x, y ∈ seen ∨ y ∈ todo) :
    todo ⊆ explore next fuel seen todo ∧
      ∀ x ∈ explore next fuel seen todo, ∀ y ∈ next x, y ∈ explore next fuel seen todo := by
  fun_induction explore next fuel seen todo with
  | case1 fuel seen =>
    refine ⟨List.nil_subset _, fun x hx y hy => ?_⟩
    exact (hstep x hx y hy).resolve_right List.not_mem_nil
  | case2 fuel seen x todo hx ih =>
    obtain ⟨hsub, hclosed⟩ := ih hnodup hseen (List.cons_subset.1 htodo).2 hfuel fun z hz y hy => by
      rcases hstep z hz y hy with h | h
      · exact .inl h
      · rcases List.mem_cons.1 h with rfl | h
        · exact .inl hx
        · exact .inr h
    exact ⟨List.cons_subset.2 ⟨mem_explore_of_mem_seen hx, hsub⟩, hclosed⟩
  | case3 seen x todo hx =>
    -- all points have been seen, but `x` has not
    have hsub : x :: seen ⊆ points := List.cons_subset.2 ⟨(List.cons_subset.1 htodo).1, hseen⟩
    have := ((List.nodup_cons.2 ⟨hx, hnodup⟩).subperm hsub).length_le
    rw [List.length_cons] at this
    omega
  | case4 seen x todo hx fuel ih =>
    have hxp : x ∈ points := (List.cons_subset.1 htodo).1
    obtain ⟨hsub, hclosed⟩ := ih (List.nodup_cons.2 ⟨hx, hnodup⟩) (List.cons_subset.2 ⟨hxp, hseen⟩)
      (List.append_subset.2 ⟨hnext x hxp, (List.cons_subset.1 htodo).2⟩)
      (by rw [List.length_cons]; omega) fun z hz y hy => by
        rcases List.mem_cons.1 hz with rfl | hz
        · exact .inr (List.mem_append_left _ hy)
        · rcases hstep z hz y hy with h | h
          · exact .inl (List.mem_cons_of_mem _ h)
          · rcases List.mem_cons.1 h with rfl | h
            · exact .inl (List.mem_cons_self ..)
            · exact .inr (List.mem_append_right _ h)
    refine ⟨List.cons_subset.2 ⟨mem_explore_of_mem_seen (List.mem_cons_self ..), ?_⟩, hclosed⟩
    exact (List.append_subset.1 hsub).2

/-- **The closure of some points is what can be reached from them.** -/
theorem mem_closure_iff (hnext : ∀ x ∈ points, ∀ y ∈ next x, y ∈ points) {start : List α}
    (hstart : start ⊆ points) {y : α} :
    y ∈ closure points next start ↔ ∃ x ∈ start, Reaches next x y := by
  obtain ⟨hsub, hclosed⟩ := explore_closed hnext points.length List.nodup_nil (List.nil_subset _)
    hstart (Nat.le_refl _) (by simp)
  constructor
  · intro hy
    exact (reaches_of_mem_explore hy).resolve_left List.not_mem_nil
  · rintro ⟨x, hx, hxy⟩
    replace hx : x ∈ closure points next start := hsub hx
    induction hxy with
    | refl => exact hx
    | step hz _ ih => exact ih (hclosed _ hx _ hz)

end

/-! ## Components -/

/-- Each of two nodes can be reached from the other. -/
def Connected (next : Nat → List Nat) (x y : Nat) : Prop := Reaches next x y ∧ Reaches next y x

/-- `components` are the strongly connected components of the graph on the numbers below `size`. -/
structure StrongComponents (size : Nat) (next : Nat → List Nat) (components : List (List Nat)) :
    Prop where
  nonempty : ∀ c ∈ components, c ≠ []
  /-- Each node is in one of the lists, once. -/
  perm : components.flatten.Perm (List.range size)
  connected : ∀ c ∈ components, ∀ x ∈ c, ∀ y < size, y ∈ c ↔ Connected next x y

/-- A splitting that finds the strongly connected components of all graphs. -/
def Splitting.Correct (split : Splitting) : Prop :=
  ∀ size next, (∀ x < size, ∀ y ∈ next x, y < size) →
    StrongComponents size next (split size next)

variable {size : Nat} {next : Nat → List Nat}

section
variable {x y z : Nat}

theorem Connected.symm (h : Connected next x y) : Connected next y x := ⟨h.2, h.1⟩

theorem Connected.trans (hxy : Connected next x y) (hyz : Connected next y z) :
    Connected next x z := ⟨hxy.1.trans hyz.1, hyz.2.trans hxy.2⟩

end

section
variable (hnext : ∀ x < size, ∀ y ∈ next x, y < size)
include hnext

theorem contains_reachTable_iff {x y : Nat} (hx : x < size) :
    ((reachTable size next)[x]?.any (·.contains y)) ↔ Reaches next x y := by
  have hrange : ∀ x ∈ List.range size, ∀ y ∈ next x, y ∈ List.range size := by simpa using hnext
  have htable : (reachTable size next)[x]? = some (closure (List.range size) next [x]) := by
    simp [reachTable, hx]
  rw [htable, Option.any_some, List.contains_iff_mem, mem_closure_iff hrange (by simpa using hx)]
  simp

theorem linked_iff {x y : Nat} (hx : x < size) (hy : y < size) :
    linked (reachTable size next) x y ↔ Connected next x y := by
  rw [linked, Bool.and_eq_true, contains_reachTable_iff hnext hx, contains_reachTable_iff hnext hy]
  rfl

theorem mem_component_iff {x y : Nat} (hx : x < size) :
    y ∈ component (reachTable size next) x ↔ y < size ∧ Connected next x y := by
  have hsize : (reachTable size next).size = size := by simp [reachTable]
  rw [component, List.mem_filter, List.mem_range, hsize]
  exact and_congr_right fun hy => linked_iff hnext hx hy

/-- A node has the same component as every other node of its component. -/
theorem component_eq {x y : Nat} (hx : x < size) (hy : y ∈ component (reachTable size next) x) :
    component (reachTable size next) y = component (reachTable size next) x := by
  obtain ⟨hy, hxy⟩ := (mem_component_iff hnext hx).1 hy
  refine List.filter_congr fun z hz => ?_
  have hz : z < size := by simpa [reachTable] using hz
  rw [Bool.eq_iff_iff, linked_iff hnext hy hz, linked_iff hnext hx hz]
  exact ⟨hxy.trans, hxy.symm.trans⟩

theorem strongComponents_pairwise : (strongComponents size next).Pairwise List.Disjoint := by
  refine List.pairwise_filterMap.2 (List.nodup_range.imp_of_mem ?_)
  intro x y hx hy hne c hc c' hc' z hz hz'
  dsimp only at hc hc'
  split_ifs at hc hc' with hhead hhead'
  obtain rfl := Option.some.inj hc
  obtain rfl := Option.some.inj hc'
  -- components with a common node are equal, and so are their least nodes
  have heq := (component_eq hnext (List.mem_range.1 hx) hz).symm.trans
    (component_eq hnext (List.mem_range.1 hy) hz')
  rw [heq, hhead'] at hhead
  exact hne (Option.some.inj hhead).symm

theorem mem_flatten_strongComponents {z : Nat} (hz : z < size) :
    z ∈ (strongComponents size next).flatten := by
  have hmem : z ∈ component (reachTable size next) z :=
    (mem_component_iff hnext hz).2 ⟨hz, .refl z, .refl z⟩
  cases hhead : (component (reachTable size next) z).head? with
  | none => simp [List.head?_eq_none_iff.1 hhead] at hmem
  | some x =>
    have hx := List.mem_of_mem_head? hhead
    have hxs := ((mem_component_iff hnext hz).1 hx).1
    rw [← component_eq hnext hz hx] at hmem hhead
    refine List.mem_flatten.2 ⟨component (reachTable size next) x, ?_, hmem⟩
    exact List.mem_filterMap.2 ⟨x, List.mem_range.2 hxs, if_pos hhead⟩

end

theorem exists_of_mem_strongComponents {c : List Nat} (hc : c ∈ strongComponents size next) :
    ∃ x < size, c = component (reachTable size next) x ∧ c.head? = some x := by
  obtain ⟨x, hx, h⟩ := List.mem_filterMap.1 hc
  dsimp only at h
  split_ifs at h with hhead
  obtain rfl := Option.some.inj h
  exact ⟨x, List.mem_range.1 hx, rfl, hhead⟩

/-- **The components of every graph are found.** -/
theorem correct_strongComponents : Splitting.Correct strongComponents := by
  intro size next hnext
  have hnodup : (strongComponents size next).flatten.Nodup := by
    refine List.nodup_flatten.2 ⟨fun c hc => ?_, strongComponents_pairwise hnext⟩
    obtain ⟨x, -, rfl, -⟩ := exists_of_mem_strongComponents hc
    exact List.nodup_range.filter _
  refine ⟨fun c hc hnil => ?_, ?_, fun c hc x hx y hy => ?_⟩
  · obtain ⟨x, -, -, hhead⟩ := exists_of_mem_strongComponents hc
    simp [hnil] at hhead
  · refine (List.perm_ext_iff_of_nodup hnodup List.nodup_range).2 fun z => ?_
    rw [List.mem_range]
    refine ⟨fun hz => ?_, mem_flatten_strongComponents hnext⟩
    obtain ⟨c, hc, hz⟩ := List.mem_flatten.1 hz
    obtain ⟨x, hx, rfl, -⟩ := exists_of_mem_strongComponents hc
    exact ((mem_component_iff hnext hx).1 hz).1
  · obtain ⟨z, hz, rfl, -⟩ := exists_of_mem_strongComponents hc
    have hxs := ((mem_component_iff hnext hz).1 hx).1
    rw [← component_eq hnext hz hx, mem_component_iff hnext hxs]
    exact and_iff_right hy

/-! ## Components that contain a cycle -/

namespace StrongComponents

variable {components : List (List Nat)} (hc : StrongComponents size next components)
include hc

theorem nodup {c : List Nat} (hmem : c ∈ components) : c.Nodup :=
  (List.nodup_flatten.1 (hc.perm.nodup_iff.2 List.nodup_range)).1 c hmem

theorem lt_size {c : List Nat} (hmem : c ∈ components) {x : Nat} (hx : x ∈ c) : x < size :=
  List.mem_range.1 (hc.perm.mem_iff.1 (List.mem_flatten.2 ⟨c, hmem, hx⟩))

theorem exists_mem {x : Nat} (hx : x < size) : ∃ c ∈ components, x ∈ c :=
  List.mem_flatten.1 (hc.perm.mem_iff.2 (List.mem_range.2 hx))

/-- **A component contains a cycle if and only if its nodes are on one.** -/
theorem isCyclic_iff (hnext : ∀ x < size, ∀ y ∈ next x, y < size) {c : List Nat}
    (hmem : c ∈ components) {x : Nat} (hx : x ∈ c) : isCyclic next c ↔ Path next x x := by
  have hsingle : ¬ 2 ≤ c.length → c = [x] := by
    intro hlength
    obtain ⟨y, rfl⟩ := List.length_eq_one_iff.1
      (by have := List.length_pos_of_mem hx; omega : c.length = 1)
    rw [List.mem_singleton.1 hx]
  by_cases hlength : 2 ≤ c.length
  · refine ⟨fun _ => ?_, fun _ => by simp [isCyclic, hlength]⟩
    -- another node of the component can be reached, and has a way back
    have hother : ∃ y ∈ c, x ≠ y := by
      by_contra hall
      have hsub : c ⊆ [x] := fun y hy => List.mem_singleton.2 (by_contra fun h =>
        hall ⟨y, hy, fun heq => h heq.symm⟩)
      have := ((hc.nodup hmem).subperm hsub).length_le
      rw [List.length_singleton] at this
      omega
    obtain ⟨y, hy, hne⟩ := hother
    obtain ⟨hxy, hyx⟩ := (hc.connected c hmem x hx y (hc.lt_size hmem hy)).1 hy
    exact (hxy.path_of_ne hne).trans_reaches hyx
  · obtain rfl := hsingle hlength
    have hself : isCyclic next [x] ↔ x ∈ next x := by simp [isCyclic]
    rw [hself]
    refine ⟨Path.of_mem, ?_⟩
    rintro ⟨z, hz, hzx⟩
    have hzc := (hc.connected _ hmem x hx z (hnext x (hc.lt_size hmem hx) z hz)).2
      ⟨.of_mem hz, hzx⟩
    rwa [List.mem_singleton.1 hzc] at hz

end StrongComponents

/-- Lists of nodes that are the components with a cycle of the graph on the numbers below `size`,
    each in increasing order. -/
structure CyclicGroups (size : Nat) (next : Nat → List Nat) (groups : List (List Nat)) : Prop where
  nonempty : ∀ g ∈ groups, g ≠ []
  increasing : ∀ g ∈ groups, g.Pairwise (· < ·)
  disjoint : groups.Pairwise List.Disjoint
  /-- Two nodes are in a common group if and only if each has a path to the other. -/
  mem_iff : ∀ x y, (∃ g ∈ groups, x ∈ g ∧ y ∈ g) ↔ x < size ∧ Path next x y ∧ Path next y x

theorem CyclicGroups.perm {groups groups' : List (List Nat)} (h : CyclicGroups size next groups)
    (hperm : groups'.Perm groups) : CyclicGroups size next groups' where
  nonempty g hg := h.nonempty g (hperm.mem_iff.1 hg)
  increasing g hg := h.increasing g (hperm.mem_iff.1 hg)
  disjoint := (hperm.pairwise_iff List.disjoint_symm).2 h.disjoint
  mem_iff x y := by simp only [← h.mem_iff, hperm.mem_iff]

theorem pairwise_mergeSort_key {α : Type} (key : α → Nat) (xs : List α) :
    (xs.mergeSort fun a b => decide (key a ≤ key b)).Pairwise fun a b => key a ≤ key b := by
  refine (List.pairwise_mergeSort (fun a b c => ?_) (fun a b => ?_) xs).imp of_decide_eq_true
  · simp only [decide_eq_true_eq]
    omega
  · simp only [Bool.or_eq_true, decide_eq_true_eq]
    omega

theorem increasing_mergeSort {c : List Nat} (hc : c.Nodup) : c.mergeSort.Pairwise (· < ·) := by
  have hsorted : c.mergeSort.Pairwise (· ≤ ·) := pairwise_mergeSort_key id c
  have hnodup : c.mergeSort.Nodup := (List.mergeSort_perm c _).nodup_iff.2 hc
  exact (hsorted.and hnodup).imp fun h => Nat.lt_of_le_of_ne h.1 h.2

theorem cyclicGroups_cyclicComponents (hnext : ∀ x < size, ∀ y ∈ next x, y < size)
    {components : List (List Nat)} (hc : StrongComponents size next components) :
    CyclicGroups size next (cyclicComponents next components) := by
  have hmem : ∀ {g}, g ∈ cyclicComponents next components ↔
      ∃ c ∈ components, isCyclic next c ∧ c.mergeSort = g := by
    simp [cyclicComponents, and_assoc]
  refine ⟨fun g hg => ?_, fun g hg => ?_, ?_, fun x y => ⟨?_, ?_⟩⟩
  · obtain ⟨c, hcmem, -, rfl⟩ := hmem.1 hg
    intro hnil
    exact hc.nonempty c hcmem (List.Perm.nil_eq (hnil ▸ List.mergeSort_perm c _)).symm
  · obtain ⟨c, hcmem, -, rfl⟩ := hmem.1 hg
    exact increasing_mergeSort (hc.nodup hcmem)
  · have hdisjoint := (List.nodup_flatten.1 (hc.perm.nodup_iff.2 List.nodup_range)).2
    refine List.pairwise_map.2 ((hdisjoint.sublist List.filter_sublist).imp fun {c d} h z hz hz' => ?_)
    exact h (List.mem_mergeSort.1 hz) (List.mem_mergeSort.1 hz')
  · rintro ⟨g, hg, hx, hy⟩
    obtain ⟨c, hcmem, hcyclic, rfl⟩ := hmem.1 hg
    rw [List.mem_mergeSort] at hx hy
    have hself := (hc.isCyclic_iff hnext hcmem hx).1 hcyclic
    obtain ⟨hxy, hyx⟩ := (hc.connected c hcmem x hx y (hc.lt_size hcmem hy)).1 hy
    exact ⟨hc.lt_size hcmem hx, hself.trans_reaches hxy, hyx.trans_path hself⟩
  · rintro ⟨hx, hxy, hyx⟩
    obtain ⟨c, hcmem, hxc⟩ := hc.exists_mem hx
    have hys : y < size := Reaches.closed (motive := (· < size)) hnext hxy.reaches hx
    refine ⟨c.mergeSort, hmem.2 ⟨c, hcmem, ?_, rfl⟩, List.mem_mergeSort.2 hxc, ?_⟩
    · exact (hc.isCyclic_iff hnext hcmem hxc).2 (hxy.trans_reaches hyx.reaches)
    · exact List.mem_mergeSort.2 ((hc.connected c hcmem x hxc y hys).2 ⟨hxy.reaches, hyx.reaches⟩)

namespace CyclicGroups

variable {groups : List (List Nat)} (h : CyclicGroups size next groups)
include h

theorem mem_iff_self (x : Nat) : (∃ g ∈ groups, x ∈ g) ↔ x < size ∧ Path next x x := by
  simpa using h.mem_iff x x

/-- Groups with a common node are equal. -/
theorem eq_of_mem {g g' : List Nat} (hg : g ∈ groups) (hg' : g' ∈ groups) {x : Nat} (hx : x ∈ g)
    (hx' : x ∈ g') : g = g' := by
  by_contra hne
  have : Std.Symm (List.Disjoint (α := Nat)) := ⟨fun a b => List.disjoint_symm⟩
  exact h.disjoint.forall hg hg' hne hx hx'

/-- The first node of a group is its least one. -/
theorem exists_head {g : List Nat} (hg : g ∈ groups) :
    ∃ m, g.head? = some m ∧ m ∈ g ∧ ∀ x ∈ g, m ≤ x := by
  cases g with
  | nil => exact absurd rfl (h.nonempty _ hg)
  | cons m g =>
    refine ⟨m, rfl, List.mem_cons_self .., fun x hx => ?_⟩
    rcases List.mem_cons.1 hx with rfl | hx
    · exact Nat.le_refl _
    · exact Nat.le_of_lt (List.rel_of_pairwise_cons (h.increasing _ hg) hx)

end CyclicGroups

/-- There is no least node on a cycle if no node is on one. -/
theorem leastCyclic?_eq_none (hnext : ∀ x < size, ∀ y ∈ next x, y < size)
    {components : List (List Nat)} (hc : StrongComponents size next components)
    (hnone : leastCyclic? next components = none) {x : Nat} (hx : x < size) : ¬ Path next x x := by
  have hgroups := cyclicGroups_cyclicComponents hnext hc
  intro hpath
  obtain ⟨g, hg, -⟩ := (hgroups.mem_iff_self x).2 ⟨hx, hpath⟩
  obtain ⟨m, hm, -⟩ := hgroups.exists_head hg
  have hmem : m ∈ (cyclicComponents next components).filterMap List.head? :=
    List.mem_filterMap.2 ⟨g, hg, hm⟩
  rw [List.min?_eq_none_iff.1 hnone] at hmem
  exact List.not_mem_nil hmem

/-- **The least node on a cycle.** -/
theorem leastCyclic?_eq_some (hnext : ∀ x < size, ∀ y ∈ next x, y < size)
    {components : List (List Nat)} (hc : StrongComponents size next components) {m : Nat}
    (hsome : leastCyclic? next components = some m) :
    m < size ∧ Path next m m ∧ ∀ x < size, Path next x x → m ≤ x := by
  have hgroups := cyclicGroups_cyclicComponents hnext hc
  obtain ⟨hmem, hleast⟩ := List.min?_eq_some_iff.1 hsome
  obtain ⟨g, hg, hm⟩ := List.mem_filterMap.1 hmem
  obtain ⟨hsize, hself⟩ := (hgroups.mem_iff_self m).1 ⟨g, hg, List.mem_of_mem_head? hm⟩
  refine ⟨hsize, hself, fun x hx hpath => ?_⟩
  obtain ⟨g', hg', hxg⟩ := (hgroups.mem_iff_self x).2 ⟨hx, hpath⟩
  obtain ⟨m', hm', -, hle⟩ := hgroups.exists_head hg'
  exact Nat.le_trans (hleast m' (List.mem_filterMap.2 ⟨g', hg', hm'⟩)) (hle x hxg)

/-- **The groups of a graph, by their least nodes.** -/
theorem cyclicGroups_recursiveGroups (hnext : ∀ x < size, ∀ y ∈ next x, y < size)
    {components : List (List Nat)} (hc : StrongComponents size next components) :
    CyclicGroups size next (recursiveGroups next components) ∧
      (recursiveGroups next components).Pairwise fun g g' => g.headD 0 < g'.headD 0 := by
  have hgroups := (cyclicGroups_cyclicComponents hnext hc).perm
    (List.mergeSort_perm (cyclicComponents next components) fun a b => a.headD 0 ≤ b.headD 0)
  refine ⟨hgroups, ?_⟩
  have hsorted : (recursiveGroups next components).Pairwise fun g g' => g.headD 0 ≤ g'.headD 0 :=
    pairwise_mergeSort_key (List.headD · 0) _
  refine (hsorted.and hgroups.disjoint).imp_of_mem fun {g g'} hg hg' h =>
    Nat.lt_of_le_of_ne h.1 fun heq => ?_
  -- disjoint groups have different least nodes
  obtain ⟨m, hm, hmem, -⟩ := hgroups.exists_head hg
  obtain ⟨m', hm', hmem', -⟩ := hgroups.exists_head hg'
  rw [List.headD_eq_head?_getD, List.headD_eq_head?_getD, hm, hm'] at heq
  exact h.2 hmem ((show m = m' from heq) ▸ hmem')

end Overlap.Graph
