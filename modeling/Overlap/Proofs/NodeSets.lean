/-
  The node sets of a dependence graph.

  * `nodup_pairs` and `toFinset_pairs`: the ordered pairs of a list without
    repetitions are its unordered pairs of distinct elements, each once;
  * `edges_build_perm`: the dependences of the node set of two call sites are
    the edges of the graph that join them.
-/
import Mathlib.Data.Finset.Powerset
import Overlap.Analysis.Run
import Overlap.Proofs.DependenceGraph

namespace Overlap

open Ssa Dependence

/-! ## Pairs -/

section
variable {α β : Type}

theorem orderedPairs_map (f : α → β) (xs : List α) :
    orderedPairs (xs.map f) = (orderedPairs xs).map (Prod.map f f) := by
  induction xs with
  | nil => rfl
  | cons x xs ih => simp [orderedPairs, ih, Function.comp_def]

theorem mem_of_mem_orderedPairs {xs : List α} {p : α × α} (h : p ∈ orderedPairs xs) :
    p.1 ∈ xs ∧ p.2 ∈ xs := by
  induction xs with
  | nil => simp [orderedPairs] at h
  | cons x xs ih =>
    rcases List.mem_append.1 h with h | h
    · obtain ⟨y, hy, rfl⟩ := List.mem_map.1 h
      exact ⟨List.mem_cons_self .., List.mem_cons_of_mem _ hy⟩
    · exact ⟨List.mem_cons_of_mem _ (ih h).1, List.mem_cons_of_mem _ (ih h).2⟩

theorem ne_of_mem_orderedPairs {xs : List α} {p : α × α} (hxs : xs.Nodup)
    (h : p ∈ orderedPairs xs) : p.1 ≠ p.2 := by
  induction xs with
  | nil => simp [orderedPairs] at h
  | cons x xs ih =>
    obtain ⟨hx, hxs⟩ := List.nodup_cons.1 hxs
    rcases List.mem_append.1 h with h | h
    · obtain ⟨y, hy, rfl⟩ := List.mem_map.1 h
      exact fun heq : x = y => hx (heq ▸ hy)
    · exact ih hxs h

variable [DecidableEq α]

/-- The unordered pairs that the ordered pairs of a list stand for. -/
def pairs (xs : List α) : List (Finset α) := (orderedPairs xs).map fun p => {p.1, p.2}

theorem pairs_cons (x : α) (xs : List α) :
    pairs (x :: xs) = xs.map (fun y => {x, y}) ++ pairs xs := by
  simp [pairs, orderedPairs, Function.comp_def]

theorem subset_of_mem_pairs {xs : List α} {k : Finset α} (h : k ∈ pairs xs) : k ⊆ xs.toFinset := by
  obtain ⟨p, hp, rfl⟩ := List.mem_map.1 h
  obtain ⟨h₁, h₂⟩ := mem_of_mem_orderedPairs hp
  intro x hx
  rcases Finset.mem_insert.1 hx with rfl | hx
  · exact List.mem_toFinset.2 h₁
  · rw [Finset.mem_singleton.1 hx]
    exact List.mem_toFinset.2 h₂

/-- **The pairs of a list are the sets of two of its elements.** -/
theorem toFinset_pairs {xs : List α} (hxs : xs.Nodup) :
    (pairs xs).toFinset = xs.toFinset.powersetCard 2 := by
  induction xs with
  | nil => rfl
  | cons x xs ih =>
    obtain ⟨hx, hxs⟩ := List.nodup_cons.1 hxs
    rw [pairs_cons, List.toFinset_append, ih hxs, List.toFinset_cons,
      Finset.powersetCard_succ_insert (by simpa using hx), Finset.union_comm]
    congr 1
    ext k
    simp [Finset.powersetCard_one]

theorem nodup_pairs {xs : List α} (hxs : xs.Nodup) : (pairs xs).Nodup := by
  induction xs with
  | nil => exact List.nodup_nil
  | cons x xs ih =>
    obtain ⟨hx, hxs⟩ := List.nodup_cons.1 hxs
    rw [pairs_cons, List.nodup_append]
    refine ⟨hxs.map_on fun y hy z hz h => ?_, ih hxs, ?_⟩
    · have hyx : y ≠ x := by rintro rfl; exact hx hy
      have : y ∈ ({x, z} : Finset α) := h ▸ by simp
      simpa [hyx] using this
    · rintro k hk _ hk' rfl
      obtain ⟨y, -, rfl⟩ := List.mem_map.1 hk
      have := subset_of_mem_pairs hk' (Finset.mem_insert_self x {y})
      exact hx (List.mem_toFinset.1 this)

end

/-! ## Node sets of two call sites -/

namespace NodeSet

variable {τ : Type} [Quantity τ]

/-- The call sites of a node set. -/
def sites (n : NodeSet τ) : Finset Loc := (n.members.map (·.site)).toFinset

theorem sites_build (P : Program) (g : Dependence.Graph) (x y : Member τ) :
    (build P g [x, y]).sites = {x.site, y.site} := by
  simp [sites, build]

theorem memberEdges_pair (g : Dependence.Graph) (a b : Loc) :
    memberEdges g [a, b] = g.edgesBetween a b ++ g.edgesBetween b a := by
  simp [memberEdges]

/-- **The dependences of a node set are the edges that join its two call sites.** -/
theorem edges_build_perm {g : Dependence.Graph} (hg : g.WellFormed) (P : Program) {x y : Member τ}
    (hxy : x.site ≠ y.site) :
    (build P g [x, y]).edges.Perm
      (g.edges.toList.filter fun e => e.ends = (build P g [x, y]).sites) := by
  change (memberEdges g [x.site, y.site]).Perm _
  rw [sites_build, memberEdges_pair, hg.edgesBetween_eq, hg.edgesBetween_eq]
  -- the two directions are told apart by whether an edge starts at the first site
  have hforth : (g.edges.toList.filter fun e => e.ends = {x.site, y.site}).filter
      (fun e => e.source = x.site) =
      g.edges.toList.filter fun e => e.source = x.site ∧ e.target = y.site := by
    rw [List.filter_filter]
    refine List.filter_congr fun e _ => ?_
    rw [← Bool.decide_and, decide_eq_decide, Edge.ends_eq_pair_iff]
    grind
  have hback : (g.edges.toList.filter fun e => e.ends = {x.site, y.site}).filter
      (fun e => !decide (e.source = x.site)) =
      g.edges.toList.filter fun e => e.source = y.site ∧ e.target = x.site := by
    rw [List.filter_filter]
    refine List.filter_congr fun e _ => ?_
    rw [← decide_not, ← Bool.decide_and, decide_eq_decide, Edge.ends_eq_pair_iff]
    grind
  rw [← hforth, ← hback]
  exact List.filter_append_perm _ _

end NodeSet

end Overlap
