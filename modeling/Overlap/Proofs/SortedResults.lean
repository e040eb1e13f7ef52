/-
  The order of the node sets of a result.

  An analysis collects node sets function by function and sorts them by score.
  Its result can be sorted by other keys afterwards, any number of times.  As
  every sort keeps the order of what its key does not tell apart, the last key
  counts most, then the one before it, and so on.

  * `Quantity.SortedBy`: elements are sorted by several keys, those that none of
    them tells apart in their first order;
  * `SortedBy.sortDescending`: a sort by one more key, which counts most;
  * `SortedBy.unique`: there is only one such order;
  * `visit_callTree` and `sites_collectNodeSets`: the first order, in which node
    sets are collected;
  * `nodeSets_ordered`: the node sets of the result of an analysis after any
    sorts.
-/
import Overlap.Command.Execute
import Overlap.Proofs.AnalysisRuns
import Overlap.Proofs.CallTree
import Overlap.Proofs.DepthFirst
import Overlap.Proofs.LeafCalls
import Overlap.Proofs.ProfileRecords

namespace Overlap

/-! ## Sorting by several keys -/

namespace Quantity

variable {α β τ : Type} [Quantity τ] {key : α → τ} {keys : List (α → τ)} {xs ys : List α}

/-- Whether `p` is listed before `q`, where elements are numbered: the first key that tells them
    apart is greater for `p`, or there is none and `p` has the smaller number. -/
def Precedes : List (α → τ) → α × Nat → α × Nat → Prop
  | [], p, q => p.2 < q.2
  | key :: keys, p, q =>
    lt (key q.1) (key p.1) ∨ lt (key p.1) (key q.1) = false ∧ Precedes keys p q

/-- `ys` are the elements of `xs` by decreasing keys, the first of which counts most; those that no
    key tells apart are in the order of `xs`. -/
def SortedBy (keys : List (α → τ)) (xs ys : List α) : Prop :=
  ∃ ps : List (α × Nat), ps.Perm xs.zipIdx ∧ ps.Pairwise (Precedes keys) ∧ ps.map (·.1) = ys

theorem sortedBy_nil (xs : List α) : SortedBy ([] : List (α → τ)) xs xs := by
  refine ⟨xs.zipIdx, .refl _, ?_, List.zipIdx_map_fst 0 xs⟩
  have hnumbers : (xs.zipIdx.map (·.2)).Pairwise (· < ·) := by
    rw [List.zipIdx_map_snd]
    exact List.pairwise_lt_range'
  rwa [List.pairwise_map] at hnumbers

theorem SortedBy.perm (h : SortedBy keys xs ys) : ys.Perm xs := by
  obtain ⟨ps, hps, -, rfl⟩ := h
  simpa only [List.zipIdx_map_fst] using hps.map (·.1)

theorem Precedes.asymm [Ordered τ] {p q : α × Nat} (h : Precedes keys p q) :
    ¬ Precedes keys q p := by
  induction keys with
  | nil => exact Nat.lt_asymm h
  | cons key keys ih =>
    rcases h with hlt | ⟨hle, hrest⟩
    · rintro (hlt' | ⟨hle', -⟩)
      · simp [Ordered.lt_asymm _ _ hlt] at hlt'
      · simp [hlt] at hle'
    · rintro (hlt' | ⟨-, hrest'⟩)
      · simp [hlt'] at hle
      · exact ih hrest hrest'

/-- There is only one way to sort by some keys. -/
theorem SortedBy.unique [Ordered τ] {zs : List α} (h : SortedBy keys xs ys)
    (h' : SortedBy keys xs zs) : ys = zs := by
  obtain ⟨ps, hps, hsorted, rfl⟩ := h
  obtain ⟨qs, hqs, hsorted', rfl⟩ := h'
  have hperm : ps.Perm qs := hps.trans hqs.symm
  rw [hperm.eq_of_pairwise (fun _ _ _ _ hpq hqp => absurd hqp hpq.asymm) hsorted hsorted']

theorem sortDescending_map (key : α → τ) (f : β → α) (xs : List β) :
    sortDescending key (xs.map f) = (sortDescending (fun x => key (f x)) xs).map f := by
  rw [sortDescending_eq, sortDescending_eq, insertionSort_map]

/-- Elements that the key does not tell apart are related as they were before. -/
theorem Descending.pairwise [Ordered τ] (h : Descending key xs ys)
    (hkey : ∀ x ∈ xs, isDefined (key x)) {R : α → α → Prop} (hR : xs.Pairwise R) :
    ys.Pairwise fun a b => lt (key b) (key a) ∨ lt (key a) (key b) = false ∧ R a b := by
  refine List.pairwise_iff_forall_sublist.2 fun {a b} hab => ?_
  by_cases hlt : lt (key b) (key a)
  · exact .inl hlt
  · have hab_le : lt (key a) (key b) = false :=
      List.pairwise_iff_forall_sublist.1 h.sorted hab
    have hba_le : lt (key b) (key a) = false := by simpa using hlt
    refine .inr ⟨hab_le, ?_⟩
    -- `a` and `b` are among the elements that the key does not tell apart from `a`
    have hmem : ∀ x ∈ [a, b], x ∈ xs := fun x hx => h.perm.mem_iff.1 (hab.subset hx)
    have ha := hkey a (hmem a (by simp))
    let ties : α → Bool := fun x => !lt (key x) (key a) && !lt (key a) (key x)
    have hstable : ys.filter ties = xs.filter ties := by
      refine h.stable ties fun x hx y hy htx hty => ?_
      simp only [ties, Bool.and_eq_true, Bool.not_eq_true'] at htx hty
      exact Ordered.not_lt_trans _ _ _ (hkey x hx) ha (hkey y hy) htx.1 hty.2
    have hirrefl : lt (key a) (key a) = false := by
      by_contra hself
      have hself : lt (key a) (key a) = true := by simpa using hself
      simp [Ordered.lt_asymm _ _ hself] at hself
    have hties : [a, b].filter ties = [a, b] := by simp [ties, hirrefl, hab_le, hba_le]
    have hsub : [a, b].Sublist xs := by
      rw [← hties]
      exact (hab.filter ties).trans (hstable ▸ List.filter_sublist)
    exact List.pairwise_iff_forall_sublist.1 hR hsub

/-- **Sorting by one more key**, which counts more than those before it. -/
theorem SortedBy.sortDescending [Ordered τ] (h : SortedBy keys xs ys)
    (hkey : ∀ x ∈ xs, isDefined (key x)) :
    SortedBy (key :: keys) xs (sortDescending key ys) := by
  obtain ⟨ps, hps, hsorted, rfl⟩ := h
  have hdefined : ∀ p ∈ ps, isDefined (key p.1) := by
    intro p hp
    refine hkey p.1 ?_
    rw [← List.zipIdx_map_fst 0 xs]
    exact List.mem_map_of_mem (hps.mem_iff.1 hp)
  have hdescending := descending_sortDescending hdefined
  refine ⟨_, hdescending.perm.trans hps, hdescending.pairwise hdefined hsorted, ?_⟩
  exact (sortDescending_map key (·.1) ps).symm

theorem insertionSort_of_pairwise {precedes : α → α → Bool}
    (h : xs.Pairwise fun a b => precedes b a = false) : insertionSort precedes xs = xs := by
  induction xs using List.reverseRecOn with
  | nil => rfl
  | append_singleton xs x ih =>
    obtain ⟨hxs, -, hlast⟩ := List.pairwise_append.1 h
    rw [insertionSort_concat, ih hxs]
    rcases List.eq_nil_or_concat xs with rfl | ⟨ys, y, rfl⟩
    · rfl
    · have hy : precedes x y = false := hlast y (by simp) x (by simp)
      simp [insertBack, hy]

/-- Sorting again by the same key changes nothing. -/
theorem sortDescending_sortDescending [Ordered τ] (hkey : ∀ x ∈ xs, isDefined (key x)) :
    sortDescending key (sortDescending key xs) = sortDescending key xs := by
  rw [sortDescending_eq key (sortDescending key xs)]
  exact insertionSort_of_pairwise (descending_sortDescending hkey).sorted

end Quantity

open Ssa Quantity

/-! ## The order of collection -/

namespace Context

variable {τ : Type}

/-- A call tree lists its functions as they are left by the recursive traversal from its root. -/
theorem visit_callTree (C : Context τ) (root : Nat) :
    ∃ seen, Graph.Visit C.callees [] root seen (C.callTree root).functions := by
  have hreach : ∀ f, Graph.Reaches C.callees root f →
      f ∈ root :: C.program.allCallSites.filterMap C.resolve := by
    intro f hf
    refine Graph.Reaches.closed (motive := (· ∈ root :: C.program.allCallSites.filterMap C.resolve))
      (fun g _ h hh => List.mem_cons_of_mem _ ?_) hf (List.mem_cons_self ..)
    obtain ⟨site, hsite, hresolve, -⟩ := mem_callees_iff.1 hh
    exact List.mem_filterMap.2 ⟨site, Program.mem_allCallSites_iff.2 ⟨g, hsite⟩, hresolve⟩
  obtain ⟨seen, order, hvisit, horder⟩ :=
    Graph.exists_visit ((List.finite_toSet _).subset fun f hf => hreach f hf)
  have hsize : seen.length ≤ C.program.allCallSites.length + 1 := by
    rw [hvisit.seen_perm.length_eq, List.append_nil]
    have hsub := List.subperm_of_subset (hvisit.isPostOrder horder).nodup
      fun f hf => hreach f ((horder f).1 hf)
    refine hsub.length_le.trans ?_
    rw [List.length_cons]
    exact Nat.succ_le_succ (List.length_filterMap_le ..)
  rw [callTree, CallTree.functions_build, hvisit.postOrder_eq hsize]
  exact ⟨seen, hvisit⟩

variable [Quantity τ]

/-- Node sets are collected function by function, and for each function by the order of their two
    call sites. -/
theorem sites_collectNodeSets (C : Context τ) (tree : CallTree) (s : State) :
    (C.collectNodeSets tree s).1.map (fun n => n.members.map (·.site)) =
      tree.functions.flatMap fun f => (orderedPairs (C.candidates f)).map fun p => [p.1, p.2] := by
  have hfunction : ∀ f, (C.functionNodeSets s f).map (fun n => n.members.map (·.site)) =
      (orderedPairs (C.candidates f)).map fun p => [p.1, p.2] := by
    intro f
    rw [functionNodeSets, orderedPairs_map, List.map_map, List.map_map]
    rfl
  rw [collectNodeSets, List.map_flatMap]
  simp only [hfunction]

end Context

/-! ## Sorting a result -/

namespace Command

variable {τ : Type} [Quantity τ] {r : Result τ}

theorem weights_foldl_ordered (orders : List NodeSet.Order) (r : Result τ) :
    (orders.foldl (fun r order => ordered order r) r).weights = r.weights :=
  List.foldlRecOn orders _ (motive := fun r' : Result τ => r'.weights = r.weights) rfl
    fun _ h _ _ => h

/-- **Sorts of a result, one after the other.** The last order counts most. -/
theorem sortedBy_foldl_ordered [Ordered τ] {keys : List (NodeSet τ → τ)}
    {collected : List (NodeSet τ)} (hr : SortedBy keys collected r.nodeSets)
    {orders : List NodeSet.Order}
    (hkeys : ∀ order ∈ orders, ∀ n ∈ collected, isDefined (order.key r.weights n)) :
    SortedBy (orders.reverse.map (·.key r.weights) ++ keys) collected
      (orders.foldl (fun r order => ordered order r) r).nodeSets := by
  induction orders using List.reverseRecOn with
  | nil => exact hr
  | append_singleton orders order ih =>
    have hprev := ih fun o ho => hkeys o (List.mem_append_left _ ho)
    have hnext := hprev.sortDescending (hkeys order (by simp))
    rw [List.foldl_append, List.reverse_append]
    rwa [← weights_foldl_ordered orders r] at hnext ⊢

/-- A result stays as it is if its node sets are those of a sort by the same order. -/
theorem ordered_eq_self [Ordered τ] {order : NodeSet.Order} {ns : List (NodeSet τ)}
    (hr : r.nodeSets = sortDescending (order.key r.weights) ns)
    (hkey : ∀ n ∈ ns, isDefined (order.key r.weights n)) : ordered order r = r := by
  have hagain : sortDescending (order.key r.weights) r.nodeSets = r.nodeSets := by
    rw [hr, sortDescending_sortDescending hkey]
  exact congrArg (fun ns => { r with nodeSets := ns }) hagain

theorem ordered_getLast [Ordered τ] {keys : List (NodeSet τ → τ)} {collected : List (NodeSet τ)}
    (hr : SortedBy keys collected r.nodeSets) {orders : List NodeSet.Order}
    (hkeys : ∀ order ∈ orders, ∀ n ∈ collected, isDefined (order.key r.weights n))
    {order : NodeSet.Order} (hlast : orders.getLast? = some order) :
    ordered order (orders.foldl (fun r order => ordered order r) r) =
      orders.foldl (fun r order => ordered order r) r := by
  obtain ⟨before, rfl⟩ := List.getLast?_eq_some_iff.1 hlast
  have hbefore := sortedBy_foldl_ordered hr fun o ho => hkeys o (List.mem_append_left _ ho)
  rw [List.foldl_append]
  refine ordered_eq_self rfl fun n hn => ?_
  have hkey := hkeys order (by simp) n (hbefore.perm.mem_iff.1 hn)
  rwa [← weights_foldl_ordered before r] at hkey

end Command

/-! ## The main statement -/

namespace Context

variable {τ : Type} [Quantity τ]

/-- **The order of node sets.** An analysis collects node sets by function, in post-order, and for
    each function by the order of their call sites. After any sorts of its result they are sorted by
    the last order, then by the one before it, and so on, then by score, and what none of these
    tells apart is in the order of collection. Scores and savings decrease, stores increase. Sorting
    once more by the last order changes nothing, and neither does sorting the result of an analysis
    by score. No key may be undefined. -/
theorem nodeSets_ordered [Ordered τ] (C : Context τ) {root : Option Nat} {s s' : State}
    {r : Result τ} (h : C.analyze root s = .ok (r, s')) (key : NodeSet.Order → NodeSet τ → τ)
    (hscore : ∀ n, key .score n = n.score r.weights) (htime : ∀ n, key .time n = n.maxSaving)
    (hstores : ∀ n, key .stores n = -Quantity.ofInt n.stores) (orders : List NodeSet.Order)
    (hkeys : ∀ order ∈ .score :: orders, ∀ n ∈ r.nodeSets, isDefined (key order n)) :
    let sorted := orders.foldl (fun r order => Command.ordered order r) r
    ∃ s₁ seen, C.buildGraphs r.callTree s = .ok s₁ ∧
      Graph.Visit C.callees [] r.root seen r.callTree.functions ∧
      (C.collectNodeSets r.callTree s₁).1.map (fun n => n.members.map (·.site)) =
        (r.callTree.functions.flatMap fun f =>
          (orderedPairs (C.candidates f)).map fun p => [p.1, p.2]) ∧
      sorted.nodeSets.Perm (C.collectNodeSets r.callTree s₁).1 ∧
      SortedBy ((orders.reverse ++ [NodeSet.Order.score]).map key)
        (C.collectNodeSets r.callTree s₁).1 sorted.nodeSets ∧
      (∀ order, orders.getLast? = some order → Command.ordered order sorted = sorted) ∧
      Command.ordered .score r = r := by
  intro sorted
  obtain rfl : key = NodeSet.Order.key r.weights := by
    funext order n
    cases order with
    | score => exact hscore n
    | time => exact htime n
    | stores => exact hstores n
  obtain ⟨f, s₁, -, -, hbuild, hr, -⟩ := analyze_cases h
  obtain ⟨seen, hvisit⟩ := visit_callTree C f
  have htree : r.callTree = C.callTree f := by rw [hr]
  have hroot : r.root = f := by rw [hr]
  have hrank : r.nodeSets =
      sortDescending (NodeSet.Order.score.key r.weights) (C.collectNodeSets r.callTree s₁).1 := by
    rw [hr]
    rfl
  have hdefined : ∀ order ∈ .score :: orders, ∀ n ∈ (C.collectNodeSets r.callTree s₁).1,
      isDefined (order.key r.weights n) := by
    intro order ho n hn
    refine hkeys order ho n ?_
    rw [hrank]
    exact (sortDescending_perm ..).mem_iff.2 hn
  have hfirst : SortedBy [NodeSet.Order.score.key r.weights] (C.collectNodeSets r.callTree s₁).1
      r.nodeSets := by
    rw [hrank]
    exact (sortedBy_nil _).sortDescending (hdefined _ (by simp))
  have hrest : ∀ order ∈ orders, ∀ n ∈ (C.collectNodeSets r.callTree s₁).1,
      isDefined (order.key r.weights n) :=
    fun order ho => hdefined order (List.mem_cons_of_mem _ ho)
  have hsorted := Command.sortedBy_foldl_ordered hfirst hrest
  refine ⟨s₁, seen, htree ▸ hbuild, ?_, sites_collectNodeSets C _ s₁, hsorted.perm, ?_, ?_, ?_⟩
  · rw [htree, hroot]
    exact hvisit
  · rw [List.map_append]
    exact hsorted
  · exact fun order hlast => Command.ordered_getLast hfirst hrest hlast
  · exact Command.ordered_eq_self hrank (hdefined _ (by simp))

/-! ## Three node sets -/

/-- If two timed members run in parallel, at most the time of the faster one is saved. -/
theorem maxSaving_pair (P : Program) (g : Dependence.Graph) {x y : Member ℝ} (hx : 0 < x.time)
    (hy : 0 < y.time) : (NodeSet.build P g [x, y]).maxSaving = min x.time y.time := by
  have hsavings : (NodeSet.build P g [x, y]).maxSaving = x.time + y.time - max x.time y.time := by
    simp [NodeSet.build, NodeSet.savings, hx, hy, sum_pair, maximum_pair]
  rw [hsavings, ← min_add_max x.time y.time, add_sub_cancel_right]

theorem time_forked :
    forked.time ⟨0, 1, 0⟩ = 7 ∧ forked.time ⟨0, 2, 0⟩ = 6 ∧ forked.time ⟨0, 2, 1⟩ = 9 := by
  have htime : ∀ site callee t,
      Profile.groups forkedTimes (siteKey forkedProgram site) = [(callee, t)] →
        forked.time site = t := by
    intro site callee t h
    rw [← (Profile.indexes_ofRecords 0 _).groups_eq] at h
    obtain ⟨record, hrecords, hrecord⟩ := List.map_eq_singleton_iff.1 h
    have hone : ((Profile.ofRecords 0 forkedTimes).recordsAt (siteKey forkedProgram site)).length <
        2 := by
      rw [hrecords]
      exact Nat.one_lt_two
    refine (Profile.executionTime_of_all (.inr hone)).trans ?_
    rw [hrecords, sum_real]
    simpa using (Prod.mk.inj hrecord).2
  have honce : siteKey forkedProgram ⟨0, 1, 0⟩ = ⟨"main.main", "main.go", 5⟩ := by decide +kernel
  have hrest : siteKey forkedProgram ⟨0, 2, 0⟩ = ⟨"main.main", "main.go", 7⟩ := by decide +kernel
  have hagain : siteKey forkedProgram ⟨0, 2, 1⟩ = ⟨"main.main", "main.go", 8⟩ := by decide +kernel
  refine ⟨htime _ "main.once" 7 ?_, htime _ "main.rest" 6 ?_, htime _ "main.again" 9 ?_⟩
  · rw [honce]
    rfl
  · rw [hrest]
    rfl
  · rw [hagain]
    rfl

/-- The node set of two calls of `main`. -/
noncomputable def forkedSet (g : Dependence.Graph) (p q : Loc) : NodeSet ℝ :=
  .build forkedProgram g [forked.member p, forked.member q]

/-- With the usual weights and decay one, the score of a node set from its counts. -/
theorem score_forked {n : NodeSet ℝ} (cost : ℕ) {saving : ℝ}
    (hcost : 2 * n.count .flow + n.count .anti + n.count .output + 2 * n.count .control +
      2 * n.count .noDominate = cost) (hsaving : n.maxSaving = saving) :
    n.score forked.settings.weights = Real.exp (-cost) * saving := by
  have hdecay : ¬ (1 : ℝ) ≤ 0 := by norm_num
  simp [NodeSet.score, NodeSet.cost, forked, Weights.default, hdecay, ← hcost, ← hsaving]

theorem edges_forkedSet {g : Dependence.Graph} (hgraph : forked.GraphOf 0 g)
    (hedges : g.edges.toList = forkedEdges) :
    (forkedSet g ⟨0, 1, 0⟩ ⟨0, 2, 0⟩).edges = [⟨.noDominate, ⟨0, 1, 0⟩, ⟨0, 2, 0⟩, "", ""⟩] ∧
      (forkedSet g ⟨0, 1, 0⟩ ⟨0, 2, 1⟩).edges =
        [⟨.output, ⟨0, 1, 0⟩, ⟨0, 2, 1⟩, "G:total", "G:total"⟩,
          ⟨.noDominate, ⟨0, 1, 0⟩, ⟨0, 2, 1⟩, "", ""⟩] ∧
      (forkedSet g ⟨0, 2, 0⟩ ⟨0, 2, 1⟩).edges = [] := by
  have hbetween : ∀ p q, (forkedSet g p q).edges =
      (forkedEdges.filter fun e => e.source = p ∧ e.target = q) ++
        forkedEdges.filter fun e => e.source = q ∧ e.target = p := by
    intro p q
    refine (NodeSet.memberEdges_pair g p q).trans ?_
    rw [hgraph.wellFormed.edgesBetween_eq, hgraph.wellFormed.edgesBetween_eq, hedges]
  rw [hbetween, hbetween, hbetween]
  decide

theorem maxSaving_forkedSet (g : Dependence.Graph) :
    (forkedSet g ⟨0, 1, 0⟩ ⟨0, 2, 0⟩).maxSaving = 6 ∧
      (forkedSet g ⟨0, 1, 0⟩ ⟨0, 2, 1⟩).maxSaving = 7 ∧
      (forkedSet g ⟨0, 2, 0⟩ ⟨0, 2, 1⟩).maxSaving = 6 := by
  obtain ⟨honce, hrest, hagain⟩ := time_forked
  have hmin : ∀ p q, 0 < forked.time p → 0 < forked.time q →
      (forkedSet g p q).maxSaving = min (forked.time p) (forked.time q) :=
    fun p q hp hq => maxSaving_pair forkedProgram g hp hq
  rw [hmin _ _ (by simp [honce]) (by simp [hrest]), hmin _ _ (by simp [honce]) (by simp [hagain]),
    hmin _ _ (by simp [hrest]) (by simp [hagain]), honce, hrest, hagain]
  norm_num

/-- The two dependences of the second set outweigh its greater saving, and the last one has none. -/
theorem score_forkedSet_lt {g : Dependence.Graph} (hgraph : forked.GraphOf 0 g)
    (hedges : g.edges.toList = forkedEdges) :
    (forkedSet g ⟨0, 1, 0⟩ ⟨0, 2, 1⟩).score forked.settings.weights <
        (forkedSet g ⟨0, 1, 0⟩ ⟨0, 2, 0⟩).score forked.settings.weights ∧
      (forkedSet g ⟨0, 1, 0⟩ ⟨0, 2, 0⟩).score forked.settings.weights <
        (forkedSet g ⟨0, 2, 0⟩ ⟨0, 2, 1⟩).score forked.settings.weights := by
  obtain ⟨hab, hac, hbc⟩ := edges_forkedSet hgraph hedges
  obtain ⟨hsave, hsave', hsave''⟩ := maxSaving_forkedSet g
  have hcost := score_forked 2 (by simp only [NodeSet.count, hab]; decide) hsave
  have hcost' := score_forked 3 (by simp only [NodeSet.count, hac]; decide) hsave'
  have hcost'' := score_forked 0 (by simp only [NodeSet.count, hbc]; decide) hsave''
  rw [hcost, hcost', hcost'']
  -- `7 e⁻³ < 6 e⁻²`, as `e` is more than two
  have hpos : 0 < Real.exp (-(3 : ℕ)) := Real.exp_pos _
  have htwo : (1 : ℝ) + 1 < Real.exp 1 := Real.add_one_lt_exp one_ne_zero
  have hthree : Real.exp (-(2 : ℕ)) = Real.exp (-(3 : ℕ)) * Real.exp 1 := by
    rw [← Real.exp_add]
    norm_num
  have hnone : Real.exp (-(2 : ℕ)) < Real.exp (-(0 : ℕ)) := Real.exp_lt_exp.2 (by norm_num)
  constructor
  · rw [hthree]
    nlinarith
  · linarith

/-- Three node sets that the score, the saving and the stores list in three orders: the sets of
    `once` and `rest`, of `once` and `again`, and of `rest` and `again`. -/
theorem sortedBy_forkedSet {g : Dependence.Graph} (hgraph : forked.GraphOf 0 g)
    (hedges : g.edges.toList = forkedEdges) :
    let key := NodeSet.Order.key forked.settings.weights
    let ab := forkedSet g ⟨0, 1, 0⟩ ⟨0, 2, 0⟩
    let ac := forkedSet g ⟨0, 1, 0⟩ ⟨0, 2, 1⟩
    let bc := forkedSet g ⟨0, 2, 0⟩ ⟨0, 2, 1⟩
    SortedBy [key .score] [ab, ac, bc] [bc, ab, ac] ∧
      SortedBy [key .time, key .score] [ab, ac, bc] [ac, bc, ab] ∧
      SortedBy [key .stores, key .time, key .score] [ab, ac, bc] [ac, ab, bc] := by
  intro key ab ac bc
  obtain ⟨hsave, hsave', hsave''⟩ : ab.maxSaving = 6 ∧ ac.maxSaving = 7 ∧ bc.maxSaving = 6 :=
    maxSaving_forkedSet g
  obtain ⟨hlt, hlt'⟩ : ac.score _ < ab.score _ ∧ ab.score _ < bc.score _ :=
    score_forkedSet_lt hgraph hedges
  have hstores : ab.stores = 3 ∧ ac.stores = 3 ∧ bc.stores = 4 := ⟨rfl, rfl, rfl⟩
  -- each set stands with its place in the order of collection
  refine ⟨⟨[(bc, 2), (ab, 0), (ac, 1)], ?_, ?_, rfl⟩, ⟨[(ac, 1), (bc, 2), (ab, 0)], ?_, ?_, rfl⟩,
    ⟨[(ac, 1), (ab, 0), (bc, 2)], ?_, ?_, rfl⟩⟩
  · exact (List.perm_append_comm : ([(bc, 2)] ++ [(ab, 0), (ac, 1)]).Perm _)
  · simp [Precedes, key, NodeSet.Order.key, hlt, hlt', hlt.trans hlt']
  · exact (List.perm_append_comm : ([(ac, 1), (bc, 2)] ++ [(ab, 0)]).Perm _)
  · norm_num [Precedes, key, NodeSet.Order.key, hsave, hsave', hsave'', hlt']
  · exact .swap ..
  · norm_num [Precedes, key, NodeSet.Order.key, hsave, hsave', hstores]

/-- The node sets of `main` by score, then by saving, then by stores. -/
theorem nodeSets_ordered_forked :
    ∃ r s, forked.analyze (some 0) .fresh = .ok (r, s) ∧
      r.nodeSets.map (fun n => n.members.map (·.site)) =
        [[⟨0, 2, 0⟩, ⟨0, 2, 1⟩], [⟨0, 1, 0⟩, ⟨0, 2, 0⟩], [⟨0, 1, 0⟩, ⟨0, 2, 1⟩]] ∧
      (Command.ordered .time r).nodeSets.map (fun n => (n.members.map (·.site), n.maxSaving)) =
        [([⟨0, 1, 0⟩, ⟨0, 2, 1⟩], 7), ([⟨0, 2, 0⟩, ⟨0, 2, 1⟩], 6), ([⟨0, 1, 0⟩, ⟨0, 2, 0⟩], 6)] ∧
      (Command.ordered .stores (Command.ordered .time r)).nodeSets.map
          (fun n => (n.members.map (·.site), n.stores)) =
        [([⟨0, 1, 0⟩, ⟨0, 2, 1⟩], 3), ([⟨0, 1, 0⟩, ⟨0, 2, 0⟩], 3),
          ([⟨0, 2, 0⟩, ⟨0, 2, 1⟩], 4)] := by
  obtain ⟨s, g, hs, hg, hgraph, hedges⟩ := buildGraphs_forked
  obtain ⟨r, s', h, htree, hweights⟩ : ∃ r s', forked.analyze (some 0) .fresh = .ok (r, s') ∧
      r.callTree = forked.callTree 0 ∧ r.weights = forked.settings.weights :=
    ⟨_, _, analyze_eq rfl hs, rfl, rfl⟩
  have hcollected : (forked.collectNodeSets r.callTree s).1 = [forkedSet g ⟨0, 1, 0⟩ ⟨0, 2, 0⟩,
      forkedSet g ⟨0, 1, 0⟩ ⟨0, 2, 1⟩, forkedSet g ⟨0, 2, 0⟩ ⟨0, 2, 1⟩] := by
    rw [htree, collectNodeSets, functions_callTree_of_callees_eq_nil rfl, List.flatMap_singleton,
      functionNodeSets_eq forked hg, candidates_forked]
    rfl
  have hsorted : ∀ (orders : List NodeSet.Order) ns,
      SortedBy ((orders.reverse ++ [NodeSet.Order.score]).map (·.key forked.settings.weights))
        (forked.collectNodeSets r.callTree s).1 ns →
      (orders.foldl (fun r order => Command.ordered order r) r).nodeSets = ns := by
    intro orders ns hns
    rw [← hweights] at hns
    obtain ⟨s₁, -, hs₁, -, -, -, hsorted, -⟩ := nodeSets_ordered forked h
      (NodeSet.Order.key r.weights) (fun _ => rfl) (fun _ => rfl) (fun _ => rfl) orders
      fun _ _ _ _ => isDefined_real _
    rw [htree] at hs₁
    obtain rfl : s = s₁ := Except.ok.inj (hs.symm.trans hs₁)
    exact hsorted.unique hns
  rw [hcollected] at hsorted
  obtain ⟨hscore, htime, hstores⟩ := sortedBy_forkedSet hgraph hedges
  obtain ⟨hsave, hsave', hsave''⟩ := maxSaving_forkedSet g
  refine ⟨r, s', h, ?_, ?_, ?_⟩
  · exact (congrArg _ (hsorted [] _ hscore)).trans rfl
  · refine (congrArg _ (hsorted [.time] _ htime)).trans ?_
    simp only [List.map_cons, List.map_nil, hsave, hsave', hsave'']
    rfl
  · exact (congrArg _ (hsorted [.time, .stores] _ hstores)).trans rfl

end Context

end Overlap
