/-
  Post-order and the recursive traversal.

  * `round` is one round of the walk with a stack, without a bound on the number
    of nodes, and `walk_of_rounds` says that the walk goes through such rounds as
    long as its bound allows;
  * `Visit.rounds`: the rounds of a walk do what the recursive traversal does;
  * `exists_visitAll`: in a finite graph the traversal comes to an end;
  * `VisitAll.before_or_reaches`: when a node is emitted, each of its successors
    has been emitted, or is still open and leads to it;
  * `postOrder_depthFirst`: the post-order is that of the recursive traversal.
-/
import Mathlib.Data.Set.Card
import Mathlib.Logic.Relation
import Overlap.Proofs.PostOrder

namespace Overlap.Graph

variable {α : Type} [DecidableEq α] {next : α → List α}

/-! ## Rounds -/

/-- The state of a walk: the nodes on the stack with the successors that remain, the nodes that have
    been seen, and the order in reverse. -/
structure WalkState (α : Type) where
  stack : List (α × List α)
  seen : List α
  order : List α

/-- One round of a walk, until the stack is empty. -/
def round (next : α → List α) : WalkState α → Option (WalkState α)
  | ⟨[], _, _⟩ => none
  | ⟨(x, []) :: stack, seen, order⟩ => some ⟨stack, seen, x :: order⟩
  | ⟨(x, y :: rest) :: stack, seen, order⟩ =>
    if y ∈ seen then some ⟨(x, rest) :: stack, seen, order⟩
    else some ⟨(y, next y) :: (x, rest) :: stack, y :: seen, order⟩

/-- Some rounds of a walk lead from `s` to `t`. -/
abbrev Rounds (next : α → List α) : WalkState α → WalkState α → Prop :=
  Relation.ReflTransGen fun s t => round next s = some t

/-- A round uses fuel only for a node that it sees. -/
theorem walk_of_round {s t : WalkState α} {n : Nat} (h : round next s = some t)
    (hn : t.seen.length ≤ n) :
    s.seen.length ≤ t.seen.length ∧
      walk next (n - s.seen.length) s.stack s.seen s.order =
        walk next (n - t.seen.length) t.stack t.seen t.order := by
  obtain ⟨stack, seen, order⟩ := s
  match stack with
  | [] => cases h
  | (x, []) :: stack =>
    cases h
    exact ⟨Nat.le_refl _, by rw [walk]⟩
  | (x, y :: rest) :: stack =>
    simp only [round] at h
    split_ifs at h with hy
    · cases h
      refine ⟨Nat.le_refl _, ?_⟩
      conv_lhs => rw [walk.eq_def]
      simp only [hy, if_true]
    · cases h
      rw [List.length_cons] at hn ⊢
      obtain ⟨k, rfl⟩ := Nat.exists_eq_add_of_le hn
      have hfuel : seen.length + 1 + k - seen.length = k + 1 := by omega
      have hfuel' : seen.length + 1 + k - (seen.length + 1) = k := by omega
      refine ⟨Nat.le_succ _, ?_⟩
      dsimp only
      rw [hfuel, hfuel', walk, if_neg hy]

theorem walk_of_rounds {s t : WalkState α} {n : Nat} (h : Rounds next s t)
    (hn : t.seen.length ≤ n) :
    s.seen.length ≤ t.seen.length ∧
      walk next (n - s.seen.length) s.stack s.seen s.order =
        walk next (n - t.seen.length) t.stack t.seen t.order := by
  induction h using Relation.ReflTransGen.head_induction_on with
  | refl => exact ⟨Nat.le_refl _, rfl⟩
  | head hround _ ih =>
    obtain ⟨hle, heq⟩ := ih
    obtain ⟨hle', heq'⟩ := walk_of_round hround (Nat.le_trans hle hn)
    exact ⟨Nat.le_trans hle' hle, heq'.trans heq⟩

/-! ## The recursive traversal -/

mutual

/-- **The rounds from a node do what a visit of it does**, and leave the rest of the stack. -/
theorem Visit.rounds {seen seen' order : List α} {x : α} (h : Visit next seen x seen' order)
    (stack : List (α × List α)) (done : List α) :
    Rounds next ⟨(x, next x) :: stack, x :: seen, done⟩ ⟨stack, seen', order.reverse ++ done⟩ := by
  match h with
  | .node h =>
    refine (VisitAll.rounds h x stack done).tail ?_
    simp [round]

theorem VisitAll.rounds {seen xs seen' order : List α} (h : VisitAll next seen xs seen' order)
    (x : α) (stack : List (α × List α)) (done : List α) :
    Rounds next ⟨(x, xs) :: stack, seen, done⟩
      ⟨(x, []) :: stack, seen', order.reverse ++ done⟩ := by
  match h with
  | .nil => exact .refl
  | .skip hy h =>
    refine .head ?_ (VisitAll.rounds h x stack done)
    simp [round, hy]
  | @VisitAll.visit _ _ _ mid _ first order y ys hy hfirst h =>
    have hpush : round next ⟨(x, y :: ys) :: stack, seen, done⟩ =
        some ⟨(y, next y) :: (x, ys) :: stack, y :: seen, done⟩ := if_neg hy
    refine .head hpush ((Visit.rounds hfirst ((x, ys) :: stack) done).trans ?_)
    simpa using VisitAll.rounds h x stack (first.reverse ++ done)

end

/-- A walk lists what a visit of its root emits, if it has fuel for these nodes. -/
theorem Visit.postOrder_eq {seen order : List α} {root : α} (h : Visit next [] root seen order)
    {size : Nat} (hsize : seen.length ≤ size + 1) : postOrder next size root = order := by
  have hwalk := (walk_of_rounds (h.rounds [] []) hsize).2
  simpa [postOrder, walk] using hwalk

section

omit [DecidableEq α]

mutual

/-- What has been seen after a visit had been seen before, or is emitted by it. -/
theorem Visit.seen_perm {seen seen' order : List α} {x : α} (h : Visit next seen x seen' order) :
    seen'.Perm (order ++ seen) := by
  match h with
  | .node h => simpa using VisitAll.seen_perm h

theorem VisitAll.seen_perm {seen xs seen' order : List α}
    (h : VisitAll next seen xs seen' order) : seen'.Perm (order ++ seen) := by
  match h with
  | .nil => exact .refl _
  | .skip _ h => exact VisitAll.seen_perm h
  | @VisitAll.visit _ _ _ mid _ first order _ _ _ hfirst h =>
    have hmid : (order ++ mid).Perm (order ++ first ++ seen) := by
      rw [List.append_assoc]
      exact (Visit.seen_perm hfirst).append_left order
    exact (VisitAll.seen_perm h).trans (hmid.trans (List.perm_append_comm.append_right seen))

end

theorem Visit.mem_seen_iff {seen seen' order : List α} {x y : α}
    (h : Visit next seen x seen' order) : y ∈ seen' ↔ y ∈ order ∨ y ∈ seen :=
  h.seen_perm.mem_iff.trans List.mem_append

theorem VisitAll.mem_seen_iff {seen xs seen' order : List α} {y : α}
    (h : VisitAll next seen xs seen' order) : y ∈ seen' ↔ y ∈ order ∨ y ∈ seen :=
  h.seen_perm.mem_iff.trans List.mem_append

theorem Visit.self_mem {seen seen' order : List α} {x : α} (h : Visit next seen x seen' order) :
    x ∈ order := by
  cases h
  simp

/-- All nodes that were to be visited have been seen. -/
theorem VisitAll.subset {seen xs seen' order : List α} (h : VisitAll next seen xs seen' order) :
    xs ⊆ seen' := by
  match h with
  | .nil => exact List.nil_subset _
  | .skip hx h =>
    exact List.cons_subset.2 ⟨h.mem_seen_iff.2 (.inr hx), VisitAll.subset h⟩
  | .visit _ hfirst h =>
    have hx := hfirst.mem_seen_iff.2 (.inl hfirst.self_mem)
    exact List.cons_subset.2 ⟨h.mem_seen_iff.2 (.inr hx), VisitAll.subset h⟩

mutual

theorem Visit.reaches {seen seen' order : List α} {x : α} (h : Visit next seen x seen' order) :
    ∀ y ∈ order, Reaches next x y := by
  match h with
  | .node h =>
    intro y hy
    rcases List.mem_append.1 hy with hy | hy
    · obtain ⟨z, hz, hzy⟩ := VisitAll.reaches h y hy
      exact .step hz hzy
    · obtain rfl := List.mem_singleton.1 hy
      exact .refl y

theorem VisitAll.reaches {seen xs seen' order : List α} (h : VisitAll next seen xs seen' order) :
    ∀ y ∈ order, ∃ z ∈ xs, Reaches next z y := by
  match h with
  | .nil => simp
  | .skip _ h =>
    intro y hy
    obtain ⟨z, hz, hzy⟩ := VisitAll.reaches h y hy
    exact ⟨z, List.mem_cons_of_mem _ hz, hzy⟩
  | .visit _ hfirst h =>
    intro y hy
    rcases List.mem_append.1 hy with hy | hy
    · exact ⟨_, List.mem_cons_self .., Visit.reaches hfirst y hy⟩
    · obtain ⟨z, hz, hzy⟩ := VisitAll.reaches h y hy
      exact ⟨z, List.mem_cons_of_mem _ hz, hzy⟩

end

/-! ## The order of an edge -/

theorem pair_sublist_append {xs ys : List α} {v u : α} (hv : v ∈ xs) (hu : u ∈ ys) :
    [v, u].Sublist (xs ++ ys) :=
  (List.singleton_sublist.2 hv).append (List.singleton_sublist.2 hu)

mutual

/-- **When a node is emitted, each of its successors** had been seen before the visit, has been
    emitted by it, or **is still open, and then the node can be reached from it.** -/
theorem Visit.before_or_reaches {seen seen' order : List α} {x : α}
    (h : Visit next seen x seen' order) {u v : α} (hu : u ∈ order) (hv : v ∈ next u) :
    v ∈ seen ∨ [v, u].Sublist order ∨ Reaches next v u := by
  match h with
  | @Visit.node _ _ _ _ order _ h =>
    rcases List.mem_append.1 hu with hbelow | hself
    · rcases VisitAll.before_or_reaches h hbelow hv with hseen | hbefore | hreaches
      · rcases List.mem_cons.1 hseen with rfl | hseen
        · -- an edge back to the node that is being visited
          obtain ⟨z, hz, hzu⟩ := h.reaches u hbelow
          exact .inr (.inr (.step hz hzu))
        · exact .inl hseen
      · exact .inr (.inl (hbefore.trans (List.sublist_append_left ..)))
      · exact .inr (.inr hreaches)
    · obtain rfl := List.mem_singleton.1 hself
      rcases h.mem_seen_iff.1 (h.subset hv) with hmem | hseen
      · exact .inr (.inl (pair_sublist_append hmem hself))
      · rcases List.mem_cons.1 hseen with rfl | hseen
        · exact .inr (.inr (.refl v))
        · exact .inl hseen

theorem VisitAll.before_or_reaches {seen xs seen' order : List α}
    (h : VisitAll next seen xs seen' order) {u v : α} (hu : u ∈ order) (hv : v ∈ next u) :
    v ∈ seen ∨ [v, u].Sublist order ∨ Reaches next v u := by
  match h with
  | .nil => simp at hu
  | .skip _ h => exact VisitAll.before_or_reaches h hu hv
  | @VisitAll.visit _ _ _ _ _ first order _ _ _ hfirst h =>
    rcases List.mem_append.1 hu with hu | hu
    · refine (Visit.before_or_reaches hfirst hu hv).imp_right (.imp_left fun hbefore => ?_)
      exact hbefore.trans (List.sublist_append_left ..)
    · rcases VisitAll.before_or_reaches h hu hv with hseen | hbefore | hreaches
      · rcases hfirst.mem_seen_iff.1 hseen with hmem | hseen
        · exact .inr (.inl (pair_sublist_append hmem hu))
        · exact .inl hseen
      · exact .inr (.inl (hbefore.trans (List.sublist_append_right ..)))
      · exact .inr (.inr hreaches)

end

end

/-! ## The end of the traversal -/

/-- **In a graph on finitely many points the traversal comes to an end.** -/
theorem exists_visitAll {points : List α}
    (hnext : ∀ x ∈ points, ∀ y ∈ next x, y ∈ points) (seen xs : List α) (hxs : xs ⊆ points) :
    ∃ seen' order, VisitAll next seen xs seen' order := by
  -- a visit leaves fewer points unseen, and a node that is left out leaves fewer nodes to visit
  induction hn : unseen points seen using Nat.strong_induction_on generalizing seen xs with
  | _ n ih =>
    subst hn
    induction xs with
    | nil => exact ⟨seen, [], .nil⟩
    | cons x xs ihxs =>
      obtain ⟨hx, hxs⟩ := List.cons_subset.1 hxs
      by_cases hseen : x ∈ seen
      · obtain ⟨seen', order, h⟩ := ihxs hxs
        exact ⟨seen', order, .skip hseen h⟩
      · have hlt := unseen_cons_lt hx hseen
        obtain ⟨mid, first, hfirst⟩ := ih _ hlt (x :: seen) (next x) (hnext x hx) rfl
        have hmid : x :: seen ⊆ mid := fun y hy => hfirst.mem_seen_iff.2 (.inr hy)
        have hle := unseen_le_of_subset points hmid
        obtain ⟨seen', order, h⟩ := ih _ (Nat.lt_of_le_of_lt hle hlt) mid xs hxs rfl
        exact ⟨seen', _, .visit hseen (.node hfirst) h⟩

/-! ## Post-order -/

theorem idxOf_lt_of_sublist {xs : List α} {v u : α} (hnodup : xs.Nodup)
    (h : [v, u].Sublist xs) : xs.idxOf v < xs.idxOf u := by
  obtain ⟨before, after, rfl, hv, hu⟩ := List.cons_sublist_iff.1 h
  have hu := List.singleton_sublist.1 hu
  have hnot : u ∉ before := fun hmem => (List.nodup_append.1 hnodup).2.2 u hmem u hu rfl
  rw [List.idxOf_append_of_mem hv, List.idxOf_append_of_notMem hnot]
  exact Nat.lt_add_right _ (List.idxOf_lt_length_of_mem hv)

/-- A list of what can be reached from a root, each node once and the root last, in which a node
    comes after its successors except on cycles. -/
structure IsPostOrder (next : α → List α) (root : α) (order : List α) : Prop where
  nodup : order.Nodup
  mem_iff : ∀ x, x ∈ order ↔ Reaches next root x
  getLast?_eq : order.getLast? = some root
  idxOf_lt : ∀ u ∈ order, ∀ v ∈ next u, ¬ Reaches next v u → order.idxOf v < order.idxOf u

/-- If finitely many nodes can be reached from a root, it can be visited, and they are emitted. -/
theorem exists_visit {root : α} (hfin : {x | Reaches next root x}.Finite) :
    ∃ seen order, Visit next [] root seen order ∧ ∀ x, x ∈ order ↔ Reaches next root x := by
  obtain ⟨points, hpoints⟩ : ∃ points : List α, ∀ x, x ∈ points ↔ Reaches next root x :=
    ⟨hfin.toFinset.toList, by simp⟩
  have hroot : root ∈ points := (hpoints root).2 (.refl root)
  have hnext : ∀ x ∈ points, ∀ y ∈ next x, y ∈ points := fun x hx y hy =>
    (hpoints y).2 (((hpoints x).1 hx).tail hy)
  obtain ⟨seen, order, hall⟩ := exists_visitAll hnext [root] (next root) (hnext root hroot)
  have h : Visit next [] root seen (order ++ [root]) := .node hall
  refine ⟨seen, order ++ [root], h, fun x => ?_⟩
  have hfuel : seen.length ≤ seen.length + points.length + 1 := by omega
  rw [← h.postOrder_eq hfuel]
  exact mem_postOrder_iff points hroot hnext (by omega)

/-- What a visit of a root emits is a post-order. -/
theorem Visit.isPostOrder {seen order : List α} {root : α} (h : Visit next [] root seen order)
    (hmem : ∀ x, x ∈ order ↔ Reaches next root x) : IsPostOrder next root order := by
  have horder := h.postOrder_eq (Nat.le_succ seen.length)
  have hnodup := horder ▸ nodup_postOrder next seen.length root
  refine ⟨hnodup, hmem, horder ▸ getLast?_postOrder next seen.length root, ?_⟩
  intro u hu v hv hback
  rcases h.before_or_reaches hu hv with hseen | hbefore | hreaches
  · cases hseen
  · exact idxOf_lt_of_sublist hnodup hbefore
  · exact absurd hreaches hback

theorem IsPostOrder.length_eq {root : α} {order : List α} (h : IsPostOrder next root order) :
    order.length = {x | Reaches next root x}.ncard := by
  have hset : {x | Reaches next root x} = (order.toFinset : Set α) := by
    ext x
    simp [h.mem_iff]
  rw [hset, Set.ncard_coe_finset, List.toFinset_card_of_nodup h.nodup]

/-- **The post-order of a graph is that of the recursive traversal.** If finitely many nodes can be
    reached from a root, the walk from it comes to an end. With a bound that is not below their
    number it gives the one list that a visit of the root emits: each of these nodes once, the root
    last, and the successors of a node before it except on cycles. -/
theorem postOrder_depthFirst (next : α → List α) (root : α)
    (hfin : {x | Reaches next root x}.Finite) :
    ∃ order,
      (∃ seen, Rounds next ⟨[(root, next root)], [root], []⟩ ⟨[], seen, order.reverse⟩) ∧
      (∀ size, {x | Reaches next root x}.ncard ≤ size + 1 → postOrder next size root = order) ∧
      (∀ order', (∃ seen, Visit next [] root seen order') ↔ order' = order) ∧
      IsPostOrder next root order := by
  obtain ⟨seen, order, h, hmem⟩ := exists_visit hfin
  have hpost := h.isPostOrder hmem
  refine ⟨order, ⟨seen, ?_⟩, ?_, ?_, hpost⟩
  · simpa using h.rounds [] []
  · intro size hsize
    refine h.postOrder_eq ?_
    rwa [h.seen_perm.length_eq, List.append_nil, hpost.length_eq]
  · intro order'
    constructor
    · -- one walk with fuel for both visits lists what each of them emits
      rintro ⟨seen', h'⟩
      have hfuel : seen'.length ≤ seen.length + seen'.length + 1 := by omega
      rw [← h'.postOrder_eq hfuel]
      exact h.postOrder_eq (by omega)
    · rintro rfl
      exact ⟨seen, h⟩

/-- A graph with a cycle, a loop and a repeated successor. -/
def knot : Nat → List Nat
  | 0 => [1, 1, 3]
  | 1 => [2, 1]
  | 2 => [0]
  | 3 => [2, 4]
  | _ => []

theorem lt_of_reaches_knot {x : Nat} (h : Reaches knot 0 x) : x < 5 := by
  refine Reaches.closed (motive := (· < 5)) (fun x hx y hy => ?_) h (by decide)
  match x, hx with
  | 0, _ | 1, _ | 2, _ | 3, _ | 4, _ => revert y; decide

theorem postOrder_depthFirst_knot :
    {x | Reaches knot 0 x}.Finite ∧
    ∃ order,
      (∃ seen, Rounds knot ⟨[(0, knot 0)], [0], []⟩ ⟨[], seen, order.reverse⟩) ∧
      (∀ size, {x | Reaches knot 0 x}.ncard ≤ size + 1 → postOrder knot size 0 = order) ∧
      (∀ order', (∃ seen, Visit knot [] 0 seen order') ↔ order' = order) ∧
      IsPostOrder knot 0 order :=
  have hfin : {x | Reaches knot 0 x}.Finite :=
    (Set.finite_lt_nat 5).subset fun _ => lt_of_reaches_knot
  ⟨hfin, postOrder_depthFirst knot 0 hfin⟩

example : postOrder knot 4 0 = [2, 1, 4, 3, 0] := by cbv

end Overlap.Graph
