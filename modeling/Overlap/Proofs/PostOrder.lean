/-
  The functions of a call tree.

  During a walk each node that has been seen is on the stack or in the order,
  and at one place only.

  * `nodup_postOrder`: a post-order lists no node twice, and it has its root
    (`root_mem_postOrder`), which comes last (`getLast?_postOrder`);
  * `mem_postOrder_iff`: with fuel for all nodes it lists what can be reached
    from the root;
  * `functions_build`: the functions of a call tree are the post-order it was
    built from.
-/
import Mathlib.Data.List.Perm.Subperm
import Overlap.CallTree
import Overlap.Proofs.Lists
import Overlap.Proofs.Reach

namespace Overlap

namespace Graph

variable {α : Type} [DecidableEq α] {next : α → List α}

/-- The nodes of a stack. -/
def onStack (stack : List (α × List α)) : List α := stack.map Prod.fst

/-- The nodes that a walk has met are in its result, each once. -/
theorem walk_nodup {fuel : Nat} {stack : List (α × List α)} {seen order : List α}
    (hnodup : (onStack stack ++ order).Nodup) (hseen : ∀ x ∈ onStack stack ++ order, x ∈ seen) :
    (walk next fuel stack seen order).Nodup ∧
      ∀ x ∈ onStack stack ++ order, x ∈ walk next fuel stack seen order := by
  fun_induction walk next fuel stack seen order with
  | case1 fuel seen order =>
    refine ⟨List.nodup_reverse.2 hnodup, fun x hx => ?_⟩
    exact List.mem_reverse.2 hx
  | case2 fuel x stack seen order ih =>
    -- the top of the stack moves to the order
    have hperm : (onStack stack ++ x :: order).Perm (onStack ((x, []) :: stack) ++ order) :=
      List.perm_middle
    obtain ⟨hnodup', hmem⟩ := ih (hperm.nodup_iff.2 hnodup) fun y hy => hseen y (hperm.mem_iff.1 hy)
    exact ⟨hnodup', fun y hy => hmem y (hperm.mem_iff.2 hy)⟩
  | case3 fuel x y rest stack seen order _ ih => exact ih hnodup hseen
  | case4 x y rest stack seen order _ ih => exact ih hnodup hseen
  | case5 x y rest stack seen order hy fuel ih =>
    have hnew : y ∉ onStack ((x, y :: rest) :: stack) ++ order := fun h => hy (hseen y h)
    obtain ⟨hnodup', hmem⟩ := ih (List.nodup_cons.2 ⟨hnew, hnodup⟩) fun z hz => by
      rcases List.mem_cons.1 hz with rfl | hz
      · exact List.mem_cons_self ..
      · exact List.mem_cons_of_mem _ (hseen z hz)
    exact ⟨hnodup', fun z hz => hmem z (List.mem_cons_of_mem _ hz)⟩

/-- **A post-order lists no node twice.** -/
theorem nodup_postOrder (next : α → List α) (size : Nat) (root : α) :
    (postOrder next size root).Nodup :=
  (walk_nodup (by simp [onStack]) (by simp [onStack])).1

theorem root_mem_postOrder (next : α → List α) (size : Nat) (root : α) :
    root ∈ postOrder next size root :=
  (walk_nodup (by simp [onStack]) (by simp [onStack])).2 root (by simp [onStack])

/-- A walk ends with the bottom of its stack. -/
theorem getLast?_walk {fuel : Nat} {stack : List (α × List α)} {seen order : List α} {root : α}
    (hroot : (onStack stack).getLast?.or order.head? = some root) :
    (walk next fuel stack seen order).getLast? = some root := by
  fun_induction walk next fuel stack seen order with
  | case1 fuel seen order => simpa [onStack] using hroot
  | case2 fuel x stack seen order ih =>
    refine ih ?_
    cases stack with
    | nil => simpa [onStack] using hroot
    | cons frame stack =>
      have hlast : (onStack (frame :: stack)).getLast? = some root := by simpa [onStack] using hroot
      rw [hlast]
      rfl
  | case3 fuel x y rest stack seen order _ ih => exact ih hroot
  | case4 x y rest stack seen order _ ih => exact ih hroot
  | case5 x y rest stack seen order _ fuel ih => exact ih (by simpa [onStack] using hroot)

/-- **The root comes last.** -/
theorem getLast?_postOrder (next : α → List α) (size : Nat) (root : α) :
    (postOrder next size root).getLast? = some root :=
  getLast?_walk (by simp [onStack])

/-- What a walk lists was in its stack or order, or can be reached from there. -/
theorem reaches_of_mem_walk {fuel : Nat} {stack : List (α × List α)} {seen order : List α}
    {root : α} (hstack : ∀ frame ∈ stack, Reaches next root frame.1 ∧ frame.2 ⊆ next frame.1)
    (horder : ∀ x ∈ order, Reaches next root x) :
    ∀ x ∈ walk next fuel stack seen order, Reaches next root x := by
  fun_induction walk next fuel stack seen order with
  | case1 fuel seen order => exact fun x hx => horder x (List.mem_reverse.1 hx)
  | case2 fuel x stack seen order ih =>
    obtain ⟨hx, hstack⟩ := List.forall_mem_cons.1 hstack
    exact ih hstack (List.forall_mem_cons.2 ⟨hx.1, horder⟩)
  | case3 fuel x y rest stack seen order _ ih =>
    obtain ⟨hx, hstack⟩ := List.forall_mem_cons.1 hstack
    exact ih (List.forall_mem_cons.2 ⟨⟨hx.1, (List.cons_subset.1 hx.2).2⟩, hstack⟩) horder
  | case4 x y rest stack seen order _ ih =>
    obtain ⟨hx, hstack⟩ := List.forall_mem_cons.1 hstack
    exact ih (List.forall_mem_cons.2 ⟨⟨hx.1, (List.cons_subset.1 hx.2).2⟩, hstack⟩) horder
  | case5 x y rest stack seen order _ fuel ih =>
    obtain ⟨hx, hstack⟩ := List.forall_mem_cons.1 hstack
    obtain ⟨hy, hrest⟩ := List.cons_subset.1 hx.2
    refine ih (List.forall_mem_cons.2 ⟨⟨hx.1.tail hy, List.Subset.refl _⟩, ?_⟩) horder
    exact List.forall_mem_cons.2 ⟨⟨hx.1, hrest⟩, hstack⟩

/-- The state of a walk in a graph on `points`: all nodes have been seen that the stack or the order
    holds, and so have their successors, but for those that the stack has still to look at. -/
structure Walking (next : α → List α) (points : List α) (stack : List (α × List α))
    (seen order : List α) : Prop where
  nodup : seen.Nodup
  subset : seen ⊆ points
  seen_subset : seen ⊆ onStack stack ++ order
  remaining_subset : ∀ frame ∈ stack, frame.2 ⊆ points
  stack_next : ∀ frame ∈ stack, ∀ y ∈ next frame.1, y ∈ seen ∨ y ∈ frame.2
  order_next : ∀ x ∈ order, next x ⊆ seen

namespace Walking

omit [DecidableEq α]

variable {points : List α} {stack : List (α × List α)} {seen order rest : List α} {x y : α}

/-- A node with no successors left moves to the order. -/
theorem pop (h : Walking next points ((x, []) :: stack) seen order) :
    Walking next points stack seen (x :: order) where
  nodup := h.nodup
  subset := h.subset
  seen_subset z hz := List.perm_middle.mem_iff.2 (h.seen_subset hz)
  remaining_subset := (List.forall_mem_cons.1 h.remaining_subset).2
  stack_next := (List.forall_mem_cons.1 h.stack_next).2
  order_next := by
    refine List.forall_mem_cons.2 ⟨fun z hz => ?_, h.order_next⟩
    exact ((List.forall_mem_cons.1 h.stack_next).1 z hz).resolve_right List.not_mem_nil

/-- A successor that has been seen is left out. -/
theorem skip (h : Walking next points ((x, y :: rest) :: stack) seen order) (hy : y ∈ seen) :
    Walking next points ((x, rest) :: stack) seen order where
  nodup := h.nodup
  subset := h.subset
  seen_subset := h.seen_subset
  remaining_subset := by
    obtain ⟨hrest, hstack⟩ := List.forall_mem_cons.1 h.remaining_subset
    exact List.forall_mem_cons.2 ⟨(List.cons_subset.1 hrest).2, hstack⟩
  stack_next := by
    obtain ⟨hx, hstack⟩ := List.forall_mem_cons.1 h.stack_next
    refine List.forall_mem_cons.2 ⟨fun z hz => ?_, hstack⟩
    rcases hx z hz with hz | hz
    · exact .inl hz
    · rcases List.mem_cons.1 hz with rfl | hz
      · exact .inl hy
      · exact .inr hz
  order_next := h.order_next

/-- A successor that has not been seen is put on the stack. -/
theorem push (hnext : ∀ x ∈ points, ∀ y ∈ next x, y ∈ points)
    (h : Walking next points ((x, y :: rest) :: stack) seen order) (hy : y ∉ seen) :
    Walking next points ((y, next y) :: (x, rest) :: stack) (y :: seen) order := by
  obtain ⟨hrest, hstack⟩ := List.forall_mem_cons.1 h.remaining_subset
  obtain ⟨hyp, hrest⟩ := List.cons_subset.1 hrest
  obtain ⟨hx, hstack'⟩ := List.forall_mem_cons.1 h.stack_next
  refine ⟨List.nodup_cons.2 ⟨hy, h.nodup⟩, List.cons_subset.2 ⟨hyp, h.subset⟩, ?_, ?_, ?_, ?_⟩
  · exact List.cons_subset.2 ⟨List.mem_cons_self .., fun z hz => List.mem_cons_of_mem _
      (h.seen_subset hz)⟩
  · exact List.forall_mem_cons.2 ⟨hnext y hyp, List.forall_mem_cons.2 ⟨hrest, hstack⟩⟩
  · refine List.forall_mem_cons.2 ⟨fun z hz => .inr hz, List.forall_mem_cons.2 ⟨fun z hz => ?_, ?_⟩⟩
    · rcases hx z hz with hz | hz
      · exact .inl (List.mem_cons_of_mem _ hz)
      · rcases List.mem_cons.1 hz with rfl | hz
        · exact .inl (List.mem_cons_self ..)
        · exact .inr hz
    · exact fun frame hframe z hz => (hstack' frame hframe z hz).imp_left (List.mem_cons_of_mem _)
  · exact fun z hz w hw => List.mem_cons_of_mem _ (h.order_next z hz hw)

/-- With fuel for all points, what a walk lists contains all of its successors. -/
theorem walk_closed [DecidableEq α] (fuel : Nat) (hnext : ∀ x ∈ points, ∀ y ∈ next x, y ∈ points)
    (h : Walking next points stack seen order) (hfuel : points.length ≤ fuel + seen.length) :
    ∀ x ∈ walk next fuel stack seen order, ∀ y ∈ next x, y ∈ walk next fuel stack seen order := by
  fun_induction walk next fuel stack seen order with
  | case1 fuel seen order =>
    intro x hx y hy
    exact List.mem_reverse.2 (h.seen_subset (h.order_next x (List.mem_reverse.1 hx) hy))
  | case2 fuel x stack seen order ih => exact ih h.pop hfuel
  | case3 fuel x y rest stack seen order hy ih => exact ih (h.skip hy) hfuel
  | case4 x y rest stack seen order hy _ =>
    -- all points have been seen, but `y` has not
    have hyp := (List.cons_subset.1 (List.forall_mem_cons.1 h.remaining_subset).1).1
    have := ((List.nodup_cons.2 ⟨hy, h.nodup⟩).subperm
      (List.cons_subset.2 ⟨hyp, h.subset⟩)).length_le
    rw [List.length_cons] at this
    omega
  | case5 x y rest stack seen order hy fuel ih =>
    exact ih (h.push hnext hy) (by rw [List.length_cons]; omega)

end Walking

/-- **A post-order lists what can be reached from its root**, if there are no more than `size`
    other points. -/
theorem mem_postOrder_iff (points : List α) {size : Nat} {root x : α} (hroot : root ∈ points)
    (hnext : ∀ x ∈ points, ∀ y ∈ next x, y ∈ points) (hsize : points.length ≤ size + 1) :
    x ∈ postOrder next size root ↔ Reaches next root x := by
  constructor
  · exact reaches_of_mem_walk (by simpa using .refl root) (by simp) x
  · have hstart : Walking next points [(root, next root)] [root] [] := by
      refine ⟨by simp, by simpa using hroot, by simp [onStack], ?_, ?_, by simp⟩
      · exact List.forall_mem_singleton.2 (hnext root hroot)
      · exact List.forall_mem_singleton.2 fun y hy => .inr hy
    have hclosed := hstart.walk_closed size hnext (by simpa using hsize)
    exact fun hx => Reaches.closed (motive := (· ∈ postOrder next size root)) hclosed hx
      (root_mem_postOrder next size root)

end Graph

namespace CallTree

/-- The functions of a call tree are in post-order. -/
theorem functions_build (callees : Nat → List Nat) (size root : Nat) :
    (build callees size root).functions = Graph.postOrder callees size root := by
  have hnode : ∀ id ∈ List.range (Graph.postOrder callees size root).length,
      (build callees size root).function? id = (Graph.postOrder callees size root)[id]? := by
    intro id hid
    simp [function?, hasNode, build, List.mem_range.1 hid]
  exact (List.filterMap_congr hnode).trans (filterMap_getElem?_range _)

end CallTree

end Overlap
