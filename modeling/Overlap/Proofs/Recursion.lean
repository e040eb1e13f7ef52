/-
  The recursion of a call tree.

  A call tree lists its cycles by their least nodes: the tree without the nodes
  up to the last least node is searched again.

  * `LeastFirst`: a list is an elementary cycle, written from its least node
    back to it;
  * `exists_leastFirst` and `leastFirst_unique`: every elementary cycle, as a
    cyclic list, is written so in one way;
  * `exists_cycle_of_path`: a node with a path to itself is on such a cycle;
  * `cyclesFrom_spec`: the rounds of the search list what is left;
  * `cyclesBy_elementary` and `recursiveNodes_agree`: every elementary cycle is
    listed once, and the recursive groups are those of the nodes on cycles.
-/
import Mathlib.Data.List.Cycle
import Overlap.Proofs.CallTree
import Overlap.Proofs.Circuits
import Overlap.Proofs.Components

namespace Overlap

/-! ## Elementary cycles -/

namespace Graph

variable {next : Nat → List Nat}

/-- The list `c` is an elementary cycle, from its least node `m` back to `m`. -/
structure LeastFirst (next : Nat → List Nat) (m : Nat) (c : List Nat) : Prop where
  exists_rest : ∃ rest, c = m :: rest ++ [m] ∧ rest.Nodup ∧ ∀ x ∈ rest, m < x
  chain : c.IsChain fun x y => y ∈ next x

section
variable {x y : Nat} {c : List Nat}

/-- The nodes of a chain lead to its last one. -/
theorem path_last_of_isChain (h : (x :: c ++ [y]).IsChain fun x y => y ∈ next x) :
    ∀ z ∈ x :: c, Path next z y := by
  induction c generalizing x with
  | nil =>
    intro z hz
    obtain rfl := List.mem_singleton.1 hz
    exact .of_mem (by simpa using h)
  | cons w c ih =>
    rw [List.cons_append, List.cons_append, List.isChain_cons_cons] at h
    intro z hz
    rcases List.mem_cons.1 hz with rfl | hz
    · exact (Reaches.of_mem h.1).trans_path (ih h.2 w (List.mem_cons_self ..))
    · exact ih h.2 z hz

/-- The first node of a chain leads to the other ones. -/
theorem path_of_isChain (h : (x :: c).IsChain fun x y => y ∈ next x) : ∀ z ∈ c, Path next x z := by
  induction c generalizing x with
  | nil => simp
  | cons w c ih =>
    rw [List.isChain_cons_cons] at h
    intro z hz
    rcases List.mem_cons.1 hz with rfl | hz
    · exact .of_mem h.1
    · exact (Reaches.of_mem h.1).trans_path (ih h.2 z hz)

/-- What can be reached can be reached without passing a node twice. -/
theorem exists_nodup_of_reaches (h : Reaches next x y) :
    ∃ c, (x :: c).Nodup ∧ (x :: c).IsChain (fun x y => y ∈ next x) ∧ (x :: c).getLast? = some y := by
  induction h with
  | refl x => exact ⟨[], by simp, by simp, rfl⟩
  | @step x w y hw _ ih =>
    obtain ⟨c, hnodup, hchain, hlast⟩ := ih
    by_cases hx : x ∈ w :: c
    · -- the part of the chain from `x` on is enough
      obtain ⟨above, below, hsplit⟩ := List.append_of_mem hx
      rw [hsplit] at hnodup hchain hlast
      refine ⟨below, (List.nodup_append.1 hnodup).2.1, (List.isChain_append.1 hchain).2.1, ?_⟩
      rwa [List.getLast?_append_cons] at hlast
    · refine ⟨w :: c, List.nodup_cons.2 ⟨hx, hnodup⟩, List.isChain_cons_cons.2 ⟨hw, hchain⟩, ?_⟩
      rwa [List.getLast?_cons_cons]

/-- **A node with a path to itself is on an elementary cycle.** -/
theorem exists_cycle_of_path (h : Path next x x) :
    ∃ c : Cycle Nat, x ∈ c ∧ c.Nodup ∧ c.Chain fun x y => y ∈ next x := by
  obtain ⟨w, hw, hwx⟩ := h
  obtain ⟨c, hnodup, hchain, hlast⟩ := exists_nodup_of_reaches hwx
  obtain ⟨rest, hrest⟩ := List.getLast?_eq_some_iff.1 hlast
  refine ⟨(x :: rest : List Nat), List.mem_cons_self .., ?_, ?_⟩
  · rw [hrest] at hnodup
    exact (List.perm_append_singleton x rest).nodup_iff.1 hnodup
  · rw [Cycle.chain_coe_cons, ← hrest]
    exact List.isChain_cons_cons.2 ⟨hw, hchain⟩

end

section
variable {m m' : Nat} {c c' : List Nat}

theorem LeastFirst.mem_dropLast (h : LeastFirst next m c) : ∀ x ∈ c, x ∈ c.dropLast := by
  obtain ⟨rest, rfl, -⟩ := h.exists_rest
  intro x hx
  rw [List.dropLast_concat]
  rcases List.mem_append.1 hx with hx | hx
  · exact hx
  · exact List.mem_singleton.1 hx ▸ List.mem_cons_self ..

theorem LeastFirst.head?_eq (h : LeastFirst next m c) : c.head? = some m := by
  obtain ⟨rest, rfl, -⟩ := h.exists_rest
  rfl

theorem LeastFirst.le (h : LeastFirst next m c) : ∀ x ∈ c, m ≤ x := by
  intro x hx
  replace hx := h.mem_dropLast x hx
  obtain ⟨rest, rfl, -, hlt⟩ := h.exists_rest
  rw [List.dropLast_concat] at hx
  rcases List.mem_cons.1 hx with rfl | hx
  · exact Nat.le_refl _
  · exact Nat.le_of_lt (hlt x hx)

/-- Each of the nodes of a cycle has a path to each of them. -/
theorem LeastFirst.path (h : LeastFirst next m c) {x y : Nat} (hx : x ∈ c) (hy : y ∈ c) :
    Path next x y := by
  replace hx := h.mem_dropLast x hx
  replace hy := h.mem_dropLast y hy
  have hchain := h.chain
  obtain ⟨rest, rfl, -⟩ := h.exists_rest
  rw [List.dropLast_concat] at hx hy
  have hym : y ∈ rest ++ [m] := (List.perm_append_singleton m rest).mem_iff.2 hy
  exact (path_last_of_isChain hchain x hx).trans_reaches (path_of_isChain hchain y hym).reaches

/-- **Every elementary cycle is written from its least node.** -/
theorem exists_leastFirst {c : Cycle Nat} (hne : c ≠ Cycle.nil) (hnodup : c.Nodup)
    (hchain : c.Chain fun x y => y ∈ next x) :
    ∃ m d, LeastFirst next m d ∧ (d.dropLast : Cycle Nat) = c := by
  induction c using Quotient.inductionOn' with
  | _ l =>
    have hl : l ≠ [] := fun h => hne (congrArg _ h)
    obtain ⟨m, hm⟩ := Option.ne_none_iff_exists'.1 (mt List.min?_eq_none_iff.1 hl)
    obtain ⟨hmem, hleast⟩ := List.min?_eq_some_iff.1 hm
    obtain ⟨above, below, rfl⟩ := List.append_of_mem hmem
    have hrotated : (m :: (below ++ above)) ~r (above ++ m :: below) :=
      List.isRotated_append (l := m :: below)
    have heq : ((m :: (below ++ above) : List Nat) : Cycle Nat) = (above ++ m :: below : List Nat) :=
      Cycle.coe_eq_coe.2 hrotated
    obtain ⟨hnot, hrest⟩ := List.nodup_cons.1 (hrotated.nodup_iff.2 hnodup)
    refine ⟨m, m :: (below ++ above) ++ [m], ⟨⟨below ++ above, rfl, hrest, fun x hx => ?_⟩, ?_⟩, ?_⟩
    · refine Nat.lt_of_le_of_ne (hleast x ?_) fun h => hnot (h ▸ hx)
      exact hrotated.mem_iff.1 (List.mem_cons_of_mem _ hx)
    · exact (Cycle.chain_coe_cons _ m (below ++ above)).1 (heq ▸ hchain)
    · rw [List.dropLast_concat]
      exact heq

/-- **It is written so in one way only.** -/
theorem leastFirst_unique (h : LeastFirst next m c) (h' : LeastFirst next m' c')
    (heq : (c.dropLast : Cycle Nat) = c'.dropLast) : c = c' := by
  obtain ⟨rest, rfl, hnodup, hlt⟩ := h.exists_rest
  obtain ⟨rest', rfl, hnodup', hlt'⟩ := h'.exists_rest
  rw [List.dropLast_concat, List.dropLast_concat] at heq
  have hrotated := Cycle.coe_eq_coe.1 heq
  have hle : ∀ {m m' : Nat} {rest : List Nat}, (∀ x ∈ rest, m < x) → m' ∈ m :: rest → m ≤ m' := by
    intro m m' rest hlt hmem
    rcases List.mem_cons.1 hmem with rfl | hmem
    · exact Nat.le_refl _
    · exact Nat.le_of_lt (hlt m' hmem)
  have hmm : m = m' := Nat.le_antisymm
    (hle hlt (hrotated.mem_iff.2 (List.mem_cons_self ..)))
    (hle hlt' (hrotated.mem_iff.1 (List.mem_cons_self ..)))
  subst hmm
  -- a rotation that keeps the first node is none
  obtain ⟨n, hn⟩ := hrotated
  have hmod : n % (m :: rest).length < (m :: rest).length := Nat.mod_lt _ (by simp)
  have hhead := List.head?_rotate hmod
  rw [List.rotate_mod, hn] at hhead
  rw [← List.rotate_mod] at hn
  cases hk : n % (m :: rest).length with
  | zero =>
    rw [hk, List.rotate_zero] at hn
    rw [hn]
  | succ k =>
    rw [hk, List.getElem?_cons_succ] at hhead
    exact absurd (hlt m (List.mem_of_getElem? hhead.symm)) (Nat.lt_irrefl m)

end

/-- The search for the first number beyond `x` among the numbers below `n`. -/
theorem upperBound_range {n x low high : Nat} (hlow : low ≤ x + 1) (hhigh : x + 1 ≤ high)
    (hn : high ≤ n) : upperBound (List.range n).toArray x low high = x + 1 := by
  fun_induction upperBound (List.range n).toArray x low high with
  | case1 low high hlt mid hmid ih =>
    have hmid' : mid < n := by omega
    have hx : x < mid := by simpa [hmid'] using hmid
    exact ih hlow hx (by omega)
  | case2 low high hlt mid hmid ih =>
    have hmid' : mid < n := by omega
    have hx : mid ≤ x := by simpa [hmid'] using hmid
    exact ih (by omega) hhigh hn
  | case3 low high hlt => omega

end Graph

/-! ## Rounds of the search -/

namespace CallTree

open Graph

theorem map_some_filterMap {α β : Type} {f : α → Option β} {xs : List α}
    (h : ∀ x ∈ xs, (f x).isSome) : (xs.filterMap f).map some = xs.map f := by
  induction xs with
  | nil => rfl
  | cons x xs ih =>
    obtain ⟨hx, hxs⟩ := List.forall_mem_cons.1 h
    obtain ⟨y, hy⟩ := Option.isSome_iff_exists.1 hx
    rw [List.filterMap_cons_some hy, List.map_cons, List.map_cons, ih hxs, hy]

theorem callees_subtree (t : CallTree) (kept : List Nat) (x : Nat) :
    (t.subtree kept).callees x =
      if x < t.order.size ∧ x ∈ kept then (t.callees x).filter kept.contains else [] := by
  unfold subtree
  by_cases hx : x < t.order.size
  · by_cases hxk : x ∈ kept <;> simp [CallTree.callees, hx, hxk]
  · simp [CallTree.callees, hx]

theorem mem_callees_subtree_iff {t : CallTree} {kept : List Nat} {x y : Nat} :
    y ∈ (t.subtree kept).callees x ↔
      x < t.order.size ∧ x ∈ kept ∧ y ∈ kept ∧ y ∈ t.callees x := by
  rw [callees_subtree]
  split_ifs with hx
  · simp [hx, and_comm]
  · simp only [List.not_mem_nil, false_iff]
    exact fun h => hx ⟨h.1, h.2.1⟩

section
variable {callees : Nat → List Nat} {size root : Nat} {t : CallTree}
  (ht : t = build callees size root)
include ht

theorem lt_of_mem_callees {x y : Nat} (hy : y ∈ t.callees x) :
    x < t.order.size ∧ y < t.order.size := by
  subst ht
  obtain ⟨f, g, hf, hg, -⟩ := (mem_callees_build_iff callees size root).1 hy
  rw [size_order_build]
  exact ⟨(List.getElem?_eq_some_iff.1 hf).1, (List.getElem?_eq_some_iff.1 hg).1⟩

theorem keys_eq_range : t.keys = List.range t.order.size := by
  subst ht
  rw [size_order_build, keys_build]

theorem length_keys : t.keys.length = t.order.size := by
  rw [keys_eq_range ht, List.length_range]

/-- The tree that a round searches. -/
theorem mem_callees_rest_iff {start x y : Nat} :
    y ∈ (t.subtree (t.keys.drop start)).callees x ↔ start ≤ x ∧ start ≤ y ∧ y ∈ t.callees x := by
  have hkept : ∀ {z}, z < t.order.size → (z ∈ t.keys.drop start ↔ start ≤ z) := by
    intro z hz
    rw [keys_eq_range ht, List.range_eq_range', List.drop_range', List.mem_range'_1]
    omega
  rw [mem_callees_subtree_iff]
  constructor
  · rintro ⟨-, hx, hy, hxy⟩
    obtain ⟨hxs, hys⟩ := lt_of_mem_callees ht hxy
    exact ⟨(hkept hxs).1 hx, (hkept hys).1 hy, hxy⟩
  · rintro ⟨hx, hy, hxy⟩
    obtain ⟨hxs, hys⟩ := lt_of_mem_callees ht hxy
    exact ⟨hxs, (hkept hxs).2 hx, (hkept hys).2 hy, hxy⟩

theorem lt_of_mem_callees_rest {start x y : Nat}
    (hy : y ∈ (t.subtree (t.keys.drop start)).callees x) : x < t.order.size ∧ y < t.order.size :=
  lt_of_mem_callees ht ((mem_callees_rest_iff ht).1 hy).2.2

theorem lt_of_callees_rest {start : Nat} : ∀ x < t.order.size,
    ∀ y ∈ (t.subtree (t.keys.drop start)).callees x, y < t.order.size := fun _ _ _ hy =>
  (lt_of_mem_callees_rest ht hy).2

theorem nodup_callees_rest (start x : Nat) :
    ((t.subtree (t.keys.drop start)).callees x).Nodup := by
  rw [callees_subtree]
  split_ifs
  · subst ht
    exact ((callees_build_increasing callees size root x).imp Nat.ne_of_lt).filter _
  · exact List.nodup_nil

/-- A round does not lose the cycles whose least nodes are left. -/
theorem leastFirst_rest_iff {start m : Nat} (hm : start ≤ m) {c : List Nat} :
    LeastFirst (t.subtree (t.keys.drop start)).callees m c ↔ LeastFirst t.callees m c := by
  constructor
  · intro h
    exact ⟨h.exists_rest, h.chain.imp fun x y hy => ((mem_callees_rest_iff ht).1 hy).2.2⟩
  · intro h
    have hle : ∀ x ∈ c, start ≤ x := fun x hx => Nat.le_trans hm (h.le x hx)
    refine ⟨h.exists_rest, List.IsChain.imp_of_mem_imp (fun x y hx hy hxy => ?_) h.chain⟩
    exact (mem_callees_rest_iff ht).2 ⟨hle x hx, hle y hy, hxy⟩

/-- The least node of a cycle that is left has a path to itself in the round. -/
theorem path_rest_of_leastFirst {start m : Nat} (hm : start ≤ m) {c : List Nat}
    (hc : LeastFirst t.callees m c) :
    m < t.order.size ∧ Path (t.subtree (t.keys.drop start)).callees m m := by
  have hmem := List.mem_of_mem_head? hc.head?_eq
  obtain ⟨y, hy, hpath⟩ := ((leastFirst_rest_iff ht hm).2 hc).path hmem hmem
  exact ⟨(lt_of_mem_callees_rest ht hy).1, y, hy, hpath⟩

/-- What is found from the least node of a round. -/
theorem circuitsThrough_least {start least : Nat} (hsize : least < t.order.size)
    (hleast : ∀ x < t.order.size, Path (t.subtree (t.keys.drop start)).callees x x → least ≤ x) :
    ∃ cycles,
      circuitsThrough (t.subtree (t.keys.drop start)).callees t.order.size least = some cycles ∧
      cycles.Nodup ∧ ∀ c, c ∈ cycles ↔ LeastFirst (t.subtree (t.keys.drop start)).callees least c := by
  obtain ⟨cycles, heq, hcycles, hmem⟩ :=
    circuitsThrough_spec (lt_of_callees_rest ht) (nodup_callees_rest ht start) hsize
  refine ⟨cycles, heq, hcycles, fun c => (hmem c).trans ⟨?_, ?_⟩⟩
  · rintro ⟨rest, rfl, hrest, hchain⟩
    obtain ⟨hnot, hrest⟩ := List.nodup_cons.1 hrest
    refine ⟨⟨rest, rfl, hrest, fun x hx => ?_⟩, hchain⟩
    have hpath := (path_last_of_isChain hchain x (List.mem_cons_of_mem _ hx)).trans_reaches
      (path_of_isChain hchain x (List.mem_append_left _ hx)).reaches
    have hxs : x < t.order.size := lt_of_isChain (lt_of_callees_rest ht) hchain hsize x
      (List.mem_append_left _ (List.mem_cons_of_mem _ hx))
    exact Nat.lt_of_le_of_ne (hleast x hxs hpath) fun h => hnot (h ▸ hx)
  · intro h
    have hchain := h.chain
    obtain ⟨rest, rfl, hrest, hlt⟩ := h.exists_rest
    exact ⟨rest, rfl, List.nodup_cons.2 ⟨fun h => Nat.lt_irrefl _ (hlt _ h), hrest⟩, hchain⟩

section
variable {split : Splitting} (hsplit : split.Correct)
include hsplit

/-- A round without a node on a cycle is the last one. -/
theorem not_leastFirst_of_round {start : Nat}
    (hround : leastCyclic? (t.subtree (t.keys.drop start)).callees
      (split t.order.size (t.subtree (t.keys.drop start)).callees) = none) {m : Nat} {c : List Nat}
    (hm : start ≤ m) : ¬ LeastFirst t.callees m c := by
  intro hc
  obtain ⟨hsize, hpath⟩ := path_rest_of_leastFirst ht hm hc
  exact leastCyclic?_eq_none (lt_of_callees_rest ht) (hsplit _ _ (lt_of_callees_rest ht)) hround
    hsize hpath

/-- **One round of the search** lists the cycles with the least node that is left. -/
theorem circuitsThrough_round {start least : Nat}
    (hround : leastCyclic? (t.subtree (t.keys.drop start)).callees
      (split t.order.size (t.subtree (t.keys.drop start)).callees) = some least) :
    start ≤ least ∧ least < t.order.size ∧
      (∀ m c, start ≤ m → LeastFirst t.callees m c → least ≤ m) ∧
      ∃ cycles,
        circuitsThrough (t.subtree (t.keys.drop start)).callees t.order.size least = some cycles ∧
        cycles.Nodup ∧ ∀ c, c ∈ cycles ↔ LeastFirst t.callees least c := by
  obtain ⟨hsize, hpath, hle⟩ := leastCyclic?_eq_some (lt_of_callees_rest ht)
    (hsplit _ _ (lt_of_callees_rest ht)) hround
  have hstart : start ≤ least := by
    obtain ⟨y, hy, -⟩ := hpath
    exact ((mem_callees_rest_iff ht).1 hy).1
  refine ⟨hstart, hsize, fun m c hm hc => ?_, ?_⟩
  · obtain ⟨hms, hpath⟩ := path_rest_of_leastFirst ht hm hc
    exact hle m hms hpath
  · obtain ⟨cycles, heq, hnodup, hmem⟩ := circuitsThrough_least ht hsize hle
    exact ⟨cycles, heq, hnodup, fun c => (hmem c).trans (leastFirst_rest_iff ht hstart)⟩

/-- **The rounds of the search.** From the `start`-th node on, they list the elementary cycles whose
    least nodes are at least `start`, each once. -/
theorem cyclesFrom_spec {fuel start : Nat} (hstart : start ≤ t.order.size)
    (hfuel : t.order.size < fuel + start) :
    ∃ cycles, t.cyclesFrom split fuel start = some cycles ∧ cycles.Nodup ∧
      ∀ c, c ∈ cycles ↔ ∃ m, start ≤ m ∧ LeastFirst t.callees m c := by
  induction fuel generalizing start with
  | zero => omega
  | succ fuel ih =>
    unfold cyclesFrom
    rw [length_keys ht]
    split_ifs with hend
    · refine ⟨[], rfl, List.nodup_nil, fun c => ⟨by simp, ?_⟩⟩
      rintro ⟨m, hm, hc⟩
      have := (path_rest_of_leastFirst ht hm hc).1
      omega
    · dsimp only
      cases hround : leastCyclic? (t.subtree (t.keys.drop start)).callees
          (split (t.subtree (t.keys.drop start)).order.size
            (t.subtree (t.keys.drop start)).callees) with
      | none =>
        refine ⟨[], rfl, List.nodup_nil, fun c => ⟨by simp, ?_⟩⟩
        rintro ⟨m, hm, hc⟩
        exact absurd hc (not_leastFirst_of_round ht hsplit hround hm)
      | some least =>
        obtain ⟨hleast, hsize, hle, through, heq, hnodup, hthrough⟩ :=
          circuitsThrough_round ht hsplit hround
        obtain ⟨rest, heq', hnodup', hrest⟩ := @ih (least + 1) (by omega) (by omega)
        have hbound : upperBound t.keys.toArray least 0 t.order.size = least + 1 := by
          rw [keys_eq_range ht]
          exact upperBound_range (Nat.zero_le _) hsize (Nat.le_refl _)
        refine ⟨through ++ rest, ?_, ?_, fun c => ?_⟩
        · change (circuitsThrough _ t.order.size least).bind _ = _
          rw [heq, hbound, heq']
          rfl
        · -- the lists of this round begin with `least`, and the later ones do not
          refine List.nodup_append.2 ⟨hnodup, hnodup', fun c hc c' hc' heq => ?_⟩
          subst heq
          obtain ⟨m, hm, hc'⟩ := (hrest c).1 hc'
          have := Option.some.inj (((hthrough c).1 hc).head?_eq.symm.trans hc'.head?_eq)
          omega
        · rw [List.mem_append, hthrough, hrest]
          constructor
          · rintro (hc | ⟨m, hm, hc⟩)
            · exact ⟨least, hleast, hc⟩
            · exact ⟨m, by omega, hc⟩
          · rintro ⟨m, hm, hc⟩
            rcases Nat.eq_or_lt_of_le (hle m c hm hc) with rfl | hlt
            · exact .inl hc
            · exact .inr ⟨m, hlt, hc⟩

theorem cyclesBy_spec : ∃ cycles, t.cyclesBy split = some cycles ∧ cycles.Nodup ∧
    ∀ c, c ∈ cycles ↔ ∃ m, LeastFirst t.callees m c := by
  obtain ⟨cycles, heq, hnodup, hmem⟩ :=
    cyclesFrom_spec ht hsplit (Nat.zero_le _) (Nat.lt_succ_self t.order.size)
  refine ⟨cycles, ?_, hnodup, fun c => (hmem c).trans ?_⟩
  · rw [cyclesBy, length_keys ht]
    exact heq
  · simp

theorem recursiveNodesBy_spec :
    CyclicGroups t.order.size t.callees (t.recursiveNodesBy split) ∧
      (t.recursiveNodesBy split).Pairwise fun g g' => g.headD 0 < g'.headD 0 := by
  have hnext : ∀ x < t.order.size, ∀ y ∈ t.callees x, y < t.order.size := fun x _ y hy =>
    (lt_of_mem_callees ht hy).2
  exact cyclicGroups_recursiveGroups hnext (hsplit t.order.size t.callees hnext)

end

end

/-! ## Cycles and groups -/

/-- **Every elementary cycle is listed once.** With any way to find strongly connected components,
    the search in a call tree ends. Each list goes from the least node of a cycle back to it along
    calls, without another repetition; and for each elementary cycle, wherever it is entered, there
    is one list. -/
theorem cyclesBy_elementary (callees : Nat → List Nat) (size root : Nat) {split : Splitting}
    (hsplit : split.Correct) :
    let t := build callees size root
    ∃ cycles, t.cyclesBy split = some cycles ∧ cycles.Nodup ∧
      (∀ d ∈ cycles, ∃ m rest, d = m :: rest ++ [m] ∧ rest.Nodup ∧ (∀ x ∈ rest, m < x) ∧
        d.IsChain fun x y => t.calls x y) ∧
      ∀ c : Cycle Nat, c ≠ Cycle.nil → c.Nodup → c.Chain (fun x y => t.calls x y) →
        ∃! d, d ∈ cycles ∧ (d.dropLast : Cycle Nat) = c := by
  intro t
  have hcalls : (fun x y => t.calls x y = true) = fun x y => y ∈ t.callees x := by
    funext x y
    exact propext List.contains_iff_mem
  obtain ⟨cycles, heq, hnodup, hmem⟩ := cyclesBy_spec (t := t) rfl hsplit
  refine ⟨cycles, heq, hnodup, fun d hd => ?_, fun c hne hc hchain => ?_⟩
  · obtain ⟨m, h⟩ := (hmem d).1 hd
    obtain ⟨rest, hrest, hrestNodup, hlt⟩ := h.exists_rest
    exact ⟨m, rest, hrest, hrestNodup, hlt, hcalls ▸ h.chain⟩
  · rw [hcalls] at hchain
    obtain ⟨m, d, hd, hdc⟩ := exists_leastFirst hne hc hchain
    refine ⟨d, ⟨(hmem d).2 ⟨m, hd⟩, hdc⟩, ?_⟩
    rintro d' ⟨hd', hdc'⟩
    obtain ⟨m', hd'⟩ := (hmem d').1 hd'
    exact leastFirst_unique hd' hd (hdc'.trans hdc.symm)

/-- Functions with nested cycles: 1 calls itself, and it is on cycles with 0 and 2 and with 2
    alone, which is on one with 3. -/
def nestedCalls : Nat → List Nat
  | 0 => [1]
  | 1 => [2, 1]
  | 2 => [0, 1, 3]
  | 3 => [2]
  | _ => []

/-- The nodes of the functions 0 to 3 are numbered from 3 to 0. -/
theorem cyclesBy_elementary_nested :
    Splitting.Correct strongComponents ∧
      (build nestedCalls 3 0).cyclesBy strongComponents =
        some [[0, 1, 0], [1, 2, 1], [1, 3, 2, 1], [2, 2]] ∧
      ∃ cycles, (build nestedCalls 3 0).cyclesBy strongComponents = some cycles ∧
        ∃! d, d ∈ cycles ∧ (d.dropLast : Cycle Nat) = ([3, 2, 1] : List Nat) := by
  refine ⟨correct_strongComponents, by cbv, ?_⟩
  obtain ⟨cycles, heq, -, -, hunique⟩ :=
    cyclesBy_elementary nestedCalls 3 0 correct_strongComponents
  refine ⟨cycles, heq, hunique ([3, 2, 1] : List Nat) (by simp) ?_ ?_⟩
  · exact Cycle.nodup_coe_iff.2 (by decide)
  · rw [Cycle.chain_coe_cons]
    exact .cons_cons (by cbv) (.cons_cons (by cbv) (.cons_cons (by cbv) (.singleton _)))

/-- **Groups and cycles agree.** With any way to find strongly connected components: the recursive
    groups of a call tree are disjoint; two nodes are in a common one if and only if each of them
    leads to the other by at least one call; the nodes of groups are those on cycles, and a cycle is
    inside one group. Groups are listed by their least nodes, and each is in increasing order. -/
theorem recursiveNodes_agree (callees : Nat → List Nat) (size root : Nat) {split : Splitting}
    (hsplit : split.Correct) :
    let t := build callees size root
    let groups := t.recursiveNodesBy split
    ∃ cycles, t.cyclesBy split = some cycles ∧
      groups.Pairwise List.Disjoint ∧
      (∀ i j, (∃ g ∈ groups, i ∈ g ∧ j ∈ g) ↔ Path t.callees i j ∧ Path t.callees j i) ∧
      (∀ i, (∃ g ∈ groups, i ∈ g) ↔ ∃ c ∈ cycles, i ∈ c) ∧
      (∀ c ∈ cycles, ∃ g ∈ groups, ∀ i ∈ c, i ∈ g) ∧
      groups.Pairwise (fun g g' => ∃ m ∈ g, (∀ i ∈ g, m ≤ i) ∧ ∀ j ∈ g', m < j) ∧
      (∀ g ∈ groups, g ≠ [] ∧ g.Pairwise (· < ·)) ∧
      (t.recursiveGroupsBy split).map (·.map some) = groups.map (·.map t.function?) := by
  intro t groups
  obtain ⟨cycles, heq, -, hmem⟩ := cyclesBy_spec (t := t) rfl hsplit
  obtain ⟨hgroups, hsorted⟩ := recursiveNodesBy_spec (t := t) rfl hsplit
  have hnode : ∀ {i j}, Path t.callees i j → i < t.order.size := by
    rintro i j ⟨y, hy, -⟩
    exact (lt_of_mem_callees rfl hy).1
  have hself : ∀ i, (∃ g ∈ groups, i ∈ g) ↔ Path t.callees i i := fun i =>
    (hgroups.mem_iff_self i).trans ⟨fun h => h.2, fun h => ⟨hnode h, h⟩⟩
  refine ⟨cycles, heq, hgroups.disjoint, fun i j => ?_, fun i => ?_, fun c hc => ?_, ?_,
    fun g hg => ⟨hgroups.nonempty g hg, hgroups.increasing g hg⟩, ?_⟩
  · exact (hgroups.mem_iff i j).trans ⟨fun h => h.2, fun h => ⟨hnode h.1, h⟩⟩
  · rw [hself]
    constructor
    · intro h
      obtain ⟨c, hic, hc, hchain⟩ := exists_cycle_of_path h
      have hne : c ≠ Cycle.nil := by
        rintro rfl
        exact Cycle.notMem_nil i hic
      obtain ⟨m, d, hd, rfl⟩ := exists_leastFirst hne hc hchain
      exact ⟨d, (hmem d).2 ⟨m, hd⟩, List.mem_of_mem_dropLast hic⟩
    · rintro ⟨c, hc, hic⟩
      obtain ⟨m, hc⟩ := (hmem c).1 hc
      exact hc.path hic hic
  · obtain ⟨m, hc⟩ := (hmem c).1 hc
    have hmc := List.mem_of_mem_head? hc.head?_eq
    obtain ⟨g, hg, hmg⟩ := (hself m).2 (hc.path hmc hmc)
    refine ⟨g, hg, fun i hi => ?_⟩
    obtain ⟨g', hg', hmg', hig'⟩ := (hgroups.mem_iff m i).2
      ⟨hnode (hc.path hmc hmc), hc.path hmc hi, hc.path hi hmc⟩
    exact hgroups.eq_of_mem hg hg' hmg hmg' ▸ hig'
  · refine hsorted.imp_of_mem fun {g g'} hg hg' hlt => ?_
    obtain ⟨m, hm, hmem, hle⟩ := hgroups.exists_head hg
    obtain ⟨m', hm', -, hle'⟩ := hgroups.exists_head hg'
    rw [List.headD_eq_head?_getD, List.headD_eq_head?_getD, hm, hm'] at hlt
    exact ⟨m, hmem, hle, fun j hj => Nat.lt_of_lt_of_le hlt (hle' j hj)⟩
  · rw [recursiveGroupsBy, List.map_map]
    refine List.map_congr_left fun g hg => map_some_filterMap fun i hi => ?_
    have hi := ((hgroups.mem_iff_self i).1 ⟨g, hg, hi⟩).1
    rw [function?_build]
    simpa [t, size_order_build] using hi

/-- Functions of which 1 and 2 call each other, 3 calls itself, and 0 is not recursive. -/
def mixedCalls : Nat → List Nat
  | 0 => [1, 3]
  | 1 => [2]
  | 2 => [1]
  | 3 => [3]
  | _ => []

/-- The functions 2, 1, 3 and 0 have the nodes 0 to 3. -/
theorem recursiveNodes_agree_mixed :
    Splitting.Correct strongComponents ∧
      (build mixedCalls 3 0).recursiveNodesBy strongComponents = [[0, 1], [2]] ∧
      ∃ cycles, (build mixedCalls 3 0).cyclesBy strongComponents = some cycles ∧
        (∃ c ∈ cycles, 1 ∈ c) ∧ ¬∃ c ∈ cycles, 3 ∈ c := by
  have hgroups : (build mixedCalls 3 0).recursiveNodesBy strongComponents = [[0, 1], [2]] := by cbv
  obtain ⟨cycles, heq, -, -, hmem, -⟩ :=
    recursiveNodes_agree mixedCalls 3 0 correct_strongComponents
  refine ⟨correct_strongComponents, hgroups, cycles, heq, (hmem 1).1 ?_, fun h => ?_⟩
  · rw [hgroups]
    exact ⟨[0, 1], by decide, by decide⟩
  · have h := (hmem 3).2 h
    rw [hgroups] at h
    exact absurd h (by decide)

end CallTree

end Overlap
