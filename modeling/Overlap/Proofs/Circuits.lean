/-
  The search for the cycles through a node.

  A node that is blocked and not on the path is dead: no cycle can be closed
  from it without meeting the path.  It waits for all of its successors, so it
  is unblocked as soon as one of them is.

  * `allCircuits` is the search without blocked nodes, and `mem_allCircuits`
    says what it lists;
  * `Meets`: a chain of successors meets the path first in a given node;
  * `CircuitSearch.Consistent`: what holds of a search.  Blocking the next node
    of the path keeps it up (`Consistent.block`), and so does either way to
    leave it (`Consistent.await`, `Consistent.unblock`);
  * `circuit_spec`: the search with blocked nodes finds the same cycles in the
    same order;
  * `circuitsThrough_spec`: it lists each elementary cycle through a node once.
-/
import Mathlib.Data.List.Nodup
import Mathlib.Data.List.Perm.Subperm
import Overlap.Graph.Cycle

namespace Overlap.Graph

variable {next : Nat → List Nat} {start : Nat}

/-! ## The search without blocked nodes -/

/-- The cycles that go on from `path`, which is kept in reverse, to `w`, where `visit` lists those
    that go beyond `w`. -/
def branch (start : Nat) (path : List Nat) (visit : Nat → List (List Nat)) (w : Nat) :
    List (List Nat) :=
  if w = start then [(w :: path).reverse] else if w ∈ path then [] else visit w

/-- The cycles through `start` that go on from `path` to `v`, with at most `fuel` more nodes. -/
def allCircuits (next : Nat → List Nat) (start : Nat) : Nat → List Nat → Nat → List (List Nat)
  | 0, _, _ => []
  | fuel + 1, path, v =>
    (next v).flatMap (branch start (v :: path) (allCircuits next start fuel (v :: path)))

/-- The nodes `rest` lead from `v` back to `start`, none of them twice and none on the path. -/
structure Closes (next : Nat → List Nat) (start : Nat) (path : List Nat) (v : Nat)
    (rest : List Nat) : Prop where
  chain : (v :: rest ++ [start]).IsChain fun x y => y ∈ next x
  nodup : rest.Nodup
  fresh : ∀ x ∈ rest, x ≠ start ∧ x ∉ v :: path

theorem closes_nil_iff {path : List Nat} {v : Nat} :
    Closes next start path v [] ↔ start ∈ next v := by
  constructor
  · intro h
    simpa using h.chain
  · intro h
    exact ⟨by simpa using h, List.nodup_nil, by simp⟩

theorem closes_cons_iff {path rest : List Nat} {v w : Nat} :
    Closes next start path v (w :: rest) ↔
      w ∈ next v ∧ w ≠ start ∧ w ∉ v :: path ∧ Closes next start (v :: path) w rest := by
  constructor
  · rintro ⟨hchain, hnodup, hfresh⟩
    obtain ⟨hw, hrest⟩ := List.nodup_cons.1 hnodup
    obtain ⟨hstart, hpath⟩ := hfresh w (List.mem_cons_self ..)
    rw [List.cons_append, List.cons_append, List.isChain_cons_cons] at hchain
    refine ⟨hchain.1, hstart, hpath, hchain.2, hrest, fun x hx => ?_⟩
    obtain ⟨hxs, hxp⟩ := hfresh x (List.mem_cons_of_mem _ hx)
    refine ⟨hxs, fun h => ?_⟩
    rcases List.mem_cons.1 h with rfl | h
    · exact hw hx
    · exact hxp h
  · rintro ⟨hw, hstart, hpath, hchain, hnodup, hfresh⟩
    refine ⟨?_, List.nodup_cons.2 ⟨fun h => ?_, hnodup⟩, fun x hx => ?_⟩
    · rw [List.cons_append, List.cons_append, List.isChain_cons_cons]
      exact ⟨hw, hchain⟩
    · exact (hfresh w h).2 (List.mem_cons_self ..)
    · rcases List.mem_cons.1 hx with rfl | hx
      · exact ⟨hstart, hpath⟩
      · exact ⟨(hfresh x hx).1, fun h => (hfresh x hx).2 (List.mem_cons_of_mem _ h)⟩

/-- **What the search without blocked nodes lists.** -/
theorem mem_allCircuits {fuel : Nat} {path c : List Nat} {v : Nat} :
    c ∈ allCircuits next start fuel path v ↔
      ∃ rest, rest.length < fuel ∧ Closes next start path v rest ∧
        c = path.reverse ++ v :: rest ++ [start] := by
  induction fuel generalizing path v with
  | zero => simp [allCircuits]
  | succ fuel ih =>
    simp only [allCircuits, List.mem_flatMap, branch]
    constructor
    · rintro ⟨w, hw, hc⟩
      split_ifs at hc with hws hwp
      · subst hws
        exact ⟨[], by simp, closes_nil_iff.2 hw, by simpa using hc⟩
      · simp at hc
      · obtain ⟨rest, hlen, hrest, rfl⟩ := ih.1 hc
        exact ⟨w :: rest, by simpa using hlen, closes_cons_iff.2 ⟨hw, hws, hwp, hrest⟩, by simp⟩
    · rintro ⟨rest, hlen, hrest, rfl⟩
      cases rest with
      | nil => exact ⟨start, closes_nil_iff.1 hrest, by simp⟩
      | cons w rest =>
        obtain ⟨hw, hws, hwp, hrest⟩ := closes_cons_iff.1 hrest
        refine ⟨w, hw, ?_⟩
        rw [if_neg hws, if_neg hwp]
        exact ih.2 ⟨rest, by simpa using hlen, hrest, by simp⟩

theorem nodup_allCircuits (hnext : ∀ x, (next x).Nodup) (fuel : Nat) (path : List Nat) (v : Nat) :
    (allCircuits next start fuel path v).Nodup := by
  induction fuel generalizing path v with
  | zero => exact List.nodup_nil
  | succ fuel ih =>
    -- the cycles of a branch are told apart by the node after the path
    have hnode : ∀ w, ∀ d ∈ branch start (v :: path) (allCircuits next start fuel (v :: path)) w,
        d[path.length + 1]? = some w := by
      intro w d hd
      unfold branch at hd
      split_ifs at hd
      · obtain rfl := List.mem_singleton.1 hd
        simp
      · simp at hd
      · obtain ⟨rest, -, -, rfl⟩ := mem_allCircuits.1 hd
        simp
    refine List.nodup_flatMap.2 ⟨fun w _ => ?_, (hnext v).imp fun hne d hd hd' => hne ?_⟩
    · unfold branch
      split_ifs
      · exact List.nodup_singleton _
      · exact List.nodup_nil
      · exact ih ..
    · exact Option.some.inj ((hnode _ d hd).symm.trans (hnode _ d hd'))

/-! ## Chains that meet the path -/

/-- A chain of successors from a node meets the path first in `z`. -/
inductive Meets (next : Nat → List Nat) (path : List Nat) (z : Nat) : Nat → Prop where
  | here : z ∈ path → Meets next path z z
  | step {x y : Nat} : x ∉ path → y ∈ next x → Meets next path z y → Meets next path z x

namespace Meets

variable {path : List Nat} {v x z : Nat}

theorem mem (h : Meets next path z x) : z ∈ path := by
  induction h with
  | here hz => exact hz
  | step _ _ _ ih => exact ih

theorem eq_of_mem (h : Meets next path z x) (hx : x ∈ path) : x = z := by
  cases h with
  | here => rfl
  | step hx' => exact absurd hx hx'

/-- A chain that meets a longer path not in its last node meets the path. -/
theorem of_cons (h : Meets next (v :: path) z x) (hz : z ≠ v) : Meets next path z x := by
  induction h with
  | here hmem => exact .here ((List.mem_cons.1 hmem).resolve_left hz)
  | step hx hy _ ih => exact .step (fun h => hx (List.mem_cons_of_mem _ h)) hy ih

/-- A chain that meets the path meets a longer one in the same node or in its last one. -/
theorem cons_or (v : Nat) (h : Meets next path z x) :
    Meets next (v :: path) z x ∨ Meets next (v :: path) v x := by
  induction h with
  | here hmem => exact .inl (.here (List.mem_cons_of_mem _ hmem))
  | @step x y hx hy _ ih =>
    by_cases hxv : x = v
    · subst hxv
      exact .inr (.here (List.mem_cons_self ..))
    · have hx' : x ∉ v :: path := by simpa [hxv] using hx
      exact ih.imp (.step hx' hy) (.step hx' hy)

end Meets

/-! ## Unblocking -/

namespace CircuitSearch

variable {s : CircuitSearch} {path : List Nat} {v : Nat}

@[simp] theorem mem_blocked_release {u x : Nat} :
    x ∈ (s.release u).blocked ↔ x ∈ s.blocked ∧ x ≠ u := by
  simp [release]

@[simp] theorem mem_waiting_release {u : Nat} {p : Nat × Nat} :
    p ∈ (s.release u).waiting ↔ p ∈ s.waiting ∧ p.1 ≠ u := by
  simp [release]

theorem mem_waiters {u w : Nat} : w ∈ s.waiters u ↔ (u, w) ∈ s.waiting := by
  simp [waiters]

@[simp] theorem mem_waiting_await {nodes : List Nat} {p : Nat × Nat} :
    p ∈ (s.await v nodes).waiting ↔ (p.1 ∈ nodes ∧ p.2 = v) ∨ p ∈ s.waiting := by
  obtain ⟨u, w⟩ := p
  unfold await
  induction nodes with
  | nil => simp
  | cons x nodes ih =>
    simp only [List.foldr_cons, List.mem_insert_iff, ih, List.mem_cons, Prod.mk.injEq]
    tauto

/-- Nodes are waited for while they are blocked. -/
def AwaitsBlocked (s : CircuitSearch) : Prop := ∀ p ∈ s.waiting, p.1 ∈ s.blocked

theorem AwaitsBlocked.release (hs : s.AwaitsBlocked) (u : Nat) : (s.release u).AwaitsBlocked := by
  intro p hp
  rw [mem_waiting_release] at hp
  exact mem_blocked_release.2 ⟨hs p hp.1, hp.2⟩

theorem cycles_unblockAll (s : CircuitSearch) (todo : List Nat) :
    (s.unblockAll todo).cycles = s.cycles := by
  fun_induction unblockAll s todo with
  | case1 => rfl
  | case2 s u todo hu ih => exact ih
  | case3 s u todo hu ih => exact ih

theorem blocked_unblockAll_subset (s : CircuitSearch) (todo : List Nat) :
    (s.unblockAll todo).blocked ⊆ s.blocked := by
  fun_induction unblockAll s todo with
  | case1 s => exact List.Subset.refl _
  | case2 s u todo hu ih => exact fun x hx => (mem_blocked_release.1 (ih hx)).1
  | case3 s u todo hu ih => exact ih

/-- Those wait that waited for a node that is still blocked. -/
theorem mem_waiting_unblockAll (hs : s.AwaitsBlocked) (todo : List Nat) {p : Nat × Nat} :
    p ∈ (s.unblockAll todo).waiting ↔ p ∈ s.waiting ∧ p.1 ∈ (s.unblockAll todo).blocked := by
  fun_induction unblockAll s todo with
  | case1 s => exact ⟨fun hp => ⟨hp, hs p hp⟩, fun hp => hp.1⟩
  | case2 s u todo hu ih =>
    rw [ih (hs.release u), mem_waiting_release]
    constructor
    · rintro ⟨⟨hp, -⟩, hblocked⟩
      exact ⟨hp, hblocked⟩
    · rintro ⟨hp, hblocked⟩
      exact ⟨⟨hp, (mem_blocked_release.1 (blocked_unblockAll_subset _ _ hblocked)).2⟩, hblocked⟩
  | case3 s u todo hu ih => exact ih hs

theorem not_mem_blocked_unblockAll {todo : List Nat} {u : Nat} (hu : u ∈ todo) :
    u ∉ (s.unblockAll todo).blocked := by
  fun_induction unblockAll s todo with
  | case1 s => simp at hu
  | case2 s t todo ht ih =>
    rcases List.mem_cons.1 hu with rfl | hu
    · exact fun h => (mem_blocked_release.1 (blocked_unblockAll_subset _ _ h)).2 rfl
    · exact ih (List.mem_append_right _ hu)
  | case3 s t todo ht ih =>
    rcases List.mem_cons.1 hu with rfl | hu
    · exact fun h => ht (blocked_unblockAll_subset _ _ h)
    · exact ih hu

/-- A node is unblocked with each of those that it waits for. -/
theorem blocked_of_waiting (hs : s.AwaitsBlocked) (todo : List Nat) {u w : Nat}
    (hp : (u, w) ∈ s.waiting) (hw : w ∈ (s.unblockAll todo).blocked) :
    u ∈ (s.unblockAll todo).blocked := by
  fun_induction unblockAll s todo with
  | case1 s => exact hs _ hp
  | case2 s t todo ht ih =>
    by_cases hut : u = t
    · subst hut
      have hmem : w ∈ s.waiters u ++ todo := List.mem_append_left _ (mem_waiters.2 hp)
      exact absurd hw (not_mem_blocked_unblockAll hmem)
    · exact ih (hs.release t) (mem_waiting_release.2 ⟨hp, hut⟩) hw
  | case3 s t todo ht ih => exact ih hs hp hw

/-- Only nodes are unblocked of which something holds that waiting passes on. -/
theorem mem_blocked_unblockAll {motive : Nat → Prop} {todo : List Nat}
    (htodo : ∀ u ∈ todo, motive u) (hpass : ∀ p ∈ s.waiting, motive p.1 → motive p.2) {x : Nat}
    (hx : x ∈ s.blocked) (hnot : ¬ motive x) : x ∈ (s.unblockAll todo).blocked := by
  fun_induction unblockAll s todo with
  | case1 s => exact hx
  | case2 s u todo hu ih =>
    have hmu : motive u := htodo u (List.mem_cons_self ..)
    refine ih (fun w hw => ?_) (fun p hp => hpass p (mem_waiting_release.1 hp).1)
      (mem_blocked_release.2 ⟨hx, fun h => hnot (h ▸ hmu)⟩)
    rcases List.mem_append.1 hw with hw | hw
    · exact hpass (u, w) (mem_waiters.1 hw) hmu
    · exact htodo w (List.mem_cons_of_mem _ hw)
  | case3 s u todo hu ih => exact ih (fun w hw => htodo w (List.mem_cons_of_mem _ hw)) hpass hx

theorem unblock_eq (hv : v ∈ s.blocked) : s.unblock v = s.unblockAll [v] := by
  rw [unblockAll, if_pos hv, List.append_nil]
  rfl

/-! ## What holds of a search -/

/-- The state `s` of a search with the nodes of `path`, which is kept in reverse, on its path. -/
structure Consistent (next : Nat → List Nat) (start : Nat) (path : List Nat) (s : CircuitSearch) :
    Prop where
  /-- The nodes of the path are blocked. -/
  path_blocked : ∀ x ∈ path, x ∈ s.blocked
  /-- The other blocked nodes are dead: they lead to blocked nodes only, and wait for them. -/
  dead : ∀ x ∈ s.blocked, x ∉ path → ∀ y ∈ next x, y ≠ start ∧ y ∈ s.blocked ∧ (y, x) ∈ s.waiting
  /-- A node waits for its successors. -/
  waiting_next : ∀ p ∈ s.waiting, p.1 ∈ next p.2
  awaitsBlocked : s.AwaitsBlocked
  /-- What a node of the path still waits for leads only to what is below it on the path. -/
  below : ∀ p ∈ s.waiting, ∀ above below, path = above ++ p.2 :: below →
    ∀ z, Meets next path z p.1 → z ∈ below

theorem consistent_fresh (next : Nat → List Nat) (start : Nat) :
    Consistent next start [] fresh := by
  constructor <;> simp [fresh, AwaitsBlocked]

namespace Consistent

theorem record (hs : s.Consistent next start path) (c : List Nat) :
    (s.record c).Consistent next start path :=
  ⟨hs.path_blocked, hs.dead, hs.waiting_next, hs.awaitsBlocked, hs.below⟩

/-- A chain from a blocked node meets the path in a blocked node. -/
theorem blocked_of_meets (hs : s.Consistent next start path) {x z : Nat}
    (h : Meets next (v :: path) z x) (hx : x ∈ s.blocked) : z ∈ s.blocked := by
  induction h with
  | here => exact hx
  | step hx' hy _ ih =>
    exact ih (hs.dead _ hx (fun h => hx' (List.mem_cons_of_mem _ h)) _ hy).2.1

/-- **The path may go on to a node that is not blocked.** -/
theorem block (hs : s.Consistent next start path) (hv : v ∉ s.blocked) :
    (s.block v).Consistent next start (v :: path) where
  path_blocked x hx := by
    rcases List.mem_cons.1 hx with rfl | hx
    · exact List.mem_cons_self ..
    · exact List.mem_cons_of_mem _ (hs.path_blocked x hx)
  dead x hx hxp y hy := by
    rw [List.mem_cons, not_or] at hxp
    have hx := (List.mem_cons.1 hx).resolve_left hxp.1
    obtain ⟨hstart, hblocked, hwait⟩ := hs.dead x hx hxp.2 y hy
    exact ⟨hstart, List.mem_cons_of_mem _ hblocked, hwait⟩
  waiting_next := hs.waiting_next
  awaitsBlocked p hp := List.mem_cons_of_mem _ (hs.awaitsBlocked p hp)
  below p hp above below hpath z hz := by
    have hzv : z ≠ v := by
      rintro rfl
      exact hv (hs.blocked_of_meets hz (hs.awaitsBlocked p hp))
    have hz := hz.of_cons hzv
    cases above with
    | nil =>
      obtain ⟨-, rfl⟩ := List.cons.inj hpath
      exact hz.mem
    | cons a above =>
      obtain ⟨-, rfl⟩ := List.cons.inj hpath
      exact hs.below p hp above below rfl z hz

/-- What a node of the path waits for does not lead to the last node of the path. -/
theorem not_meets_last (hs : s.Consistent next start (v :: path)) (hv : v ∉ path) {p : Nat × Nat}
    (hp : p ∈ s.waiting) (hmem : p.2 ∈ v :: path) : ¬ Meets next (v :: path) v p.1 := by
  intro h
  obtain ⟨above, below, hpath⟩ := List.append_of_mem hmem
  have hbelow := hs.below p hp above below hpath v h
  cases above with
  | nil => exact hv ((List.cons.inj hpath).2 ▸ hbelow)
  | cons a above =>
    rw [(List.cons.inj hpath).2] at hv
    exact hv (List.mem_append_right _ (List.mem_cons_of_mem _ hbelow))

/-- What is below a node of the path does not change when the path loses its last node. -/
theorem below_of_cons (hs : s.Consistent next start (v :: path)) (hv : v ∉ path) {p : Nat × Nat}
    (hp : p ∈ s.waiting) {above below : List Nat} (hpath : path = above ++ p.2 :: below) {z : Nat}
    (hz : Meets next path z p.1) : z ∈ below := by
  have hmem : p.2 ∈ v :: path := by simp [hpath]
  refine hs.below p hp (v :: above) below (by rw [hpath]; rfl) z ?_
  exact (hz.cons_or v).resolve_right (hs.not_meets_last hv hp hmem)

/-- **The path may leave a node from which no cycle was found.** It stays blocked. -/
theorem await (hs : s.Consistent next start (v :: path)) (hv : v ∉ path)
    (hdead : ∀ w ∈ next v, w ≠ start ∧ w ∈ s.blocked) :
    (s.await v (next v)).Consistent next start path where
  path_blocked x hx := hs.path_blocked x (List.mem_cons_of_mem _ hx)
  dead x hx hxp y hy := by
    by_cases hxv : x = v
    · subst hxv
      exact ⟨(hdead y hy).1, (hdead y hy).2, mem_waiting_await.2 (.inl ⟨hy, rfl⟩)⟩
    · obtain ⟨hstart, hblocked, hwait⟩ := hs.dead x hx (by simp [hxv, hxp]) y hy
      exact ⟨hstart, hblocked, mem_waiting_await.2 (.inr hwait)⟩
  waiting_next p hp := by
    rcases mem_waiting_await.1 hp with ⟨hw, hpv⟩ | hp
    · exact hpv ▸ hw
    · exact hs.waiting_next p hp
  awaitsBlocked p hp := by
    rcases mem_waiting_await.1 hp with ⟨hw, -⟩ | hp
    · exact (hdead p.1 hw).2
    · exact hs.awaitsBlocked p hp
  below p hp above below hpath z hz := by
    rcases mem_waiting_await.1 hp with ⟨-, hpv⟩ | hp
    · exact absurd (by simp [hpath, hpv]) hv
    · exact hs.below_of_cons hv hp hpath hz

/-- **The path may leave a node from which a cycle was found.** It is unblocked, with the nodes that
    wait for it; none of them is on the path. -/
theorem unblock (hs : s.Consistent next start (v :: path)) (hv : v ∉ path) :
    (s.unblock v).Consistent next start path := by
  rw [unblock_eq (hs.path_blocked v (List.mem_cons_self ..))]
  have hnotv : v ∉ (s.unblockAll [v]).blocked := not_mem_blocked_unblockAll (List.mem_singleton_self v)
  -- a node that is unblocked has a chain to `v` that does not meet the path before
  have hpass : ∀ p ∈ s.waiting, Meets next (v :: path) v p.1 → Meets next (v :: path) v p.2 := by
    intro p hp h
    by_cases hmem : p.2 ∈ v :: path
    · exact absurd h (hs.not_meets_last hv hp hmem)
    · exact .step hmem (hs.waiting_next p hp) h
  have hlast : ∀ u ∈ [v], Meets next (v :: path) v u := by
    intro u hu
    obtain rfl := List.mem_singleton.1 hu
    exact .here (List.mem_cons_self ..)
  refine ⟨fun x hx => ?_, fun x hx hxp y hy => ?_, fun p hp => ?_, fun p hp => ?_,
    fun p hp above below hpath z hz => ?_⟩
  · have hmem : x ∈ v :: path := List.mem_cons_of_mem _ hx
    refine mem_blocked_unblockAll hlast hpass (hs.path_blocked x hmem) fun h => ?_
    exact hv (h.eq_of_mem hmem ▸ hx)
  · have hxv : x ≠ v := fun h => hnotv (h ▸ hx)
    obtain ⟨hstart, -, hwait⟩ :=
      hs.dead x (blocked_unblockAll_subset s _ hx) (by simp [hxv, hxp]) y hy
    have hblocked := blocked_of_waiting hs.awaitsBlocked [v] hwait hx
    exact ⟨hstart, hblocked, (mem_waiting_unblockAll hs.awaitsBlocked [v]).2 ⟨hwait, hblocked⟩⟩
  · exact hs.waiting_next p ((mem_waiting_unblockAll hs.awaitsBlocked [v]).1 hp).1
  · exact ((mem_waiting_unblockAll hs.awaitsBlocked [v]).1 hp).2
  · have hp := ((mem_waiting_unblockAll hs.awaitsBlocked [v]).1 hp).1
    exact hs.below_of_cons hv hp hpath hz

/-- **From a dead node no cycle can be closed.** -/
theorem allCircuits_of_dead (hs : s.Consistent next start path) (fuel : Nat) {path' : List Nat}
    (hpath : path ⊆ path') {x : Nat} (hx : x ∈ s.blocked) (hxp : x ∉ path) :
    allCircuits next start fuel path' x = [] := by
  induction fuel generalizing path' x with
  | zero => rfl
  | succ fuel ih =>
    refine List.flatMap_eq_nil_iff.2 fun y hy => ?_
    obtain ⟨hstart, hblocked, -⟩ := hs.dead x hx hxp y hy
    unfold branch
    rw [if_neg hstart]
    split_ifs with hyp
    · rfl
    · have hsub : path ⊆ x :: path' := fun z hz => List.mem_cons_of_mem _ (hpath hz)
      exact ih hsub hblocked fun h => hyp (hsub h)

end Consistent

end CircuitSearch

/-! ## The search with blocked nodes -/

open CircuitSearch

/-- A search with the path `path` that has found the cycles `found` goes from `s` to `s'`. -/
structure Searched (next : Nat → List Nat) (start : Nat) (path : List Nat) (s s' : CircuitSearch)
    (found : List (List Nat)) : Prop where
  cycles_eq : s'.cycles = found.reverse ++ s.cycles
  consistent : s'.Consistent next start path
  /-- Nothing is unblocked unless a cycle is found. -/
  blocked : found = [] → s.blocked ⊆ s'.blocked

variable {path : List Nat} {v : Nat} {s : CircuitSearch}

/-- `circuit` finds what the search without blocked nodes lists, and blocks the node it starts from
    if that is nothing. -/
def Finds (next : Nat → List Nat) (start fuel : Nat) (path : List Nat) (v : Nat)
    (s : CircuitSearch) : Prop :=
  let found := allCircuits next start fuel path v
  ∃ s', circuit next start fuel path v s = some (!found.isEmpty, s') ∧
    Searched next start path s s' found ∧ (found = [] → v ∈ s'.blocked)

/-- One successor. -/
theorem trySuccessor_spec {fuel w : Nat} (hs : s.Consistent next start path) (found : Bool)
    (hfinds : w ∉ s.blocked → Finds next start fuel path w s) :
    let cycles := branch start path (allCircuits next start fuel path) w
    ∃ s', trySuccessor start path (circuit next start fuel path) (found, s) w =
        some (found || !cycles.isEmpty, s') ∧
      Searched next start path s s' cycles ∧ (cycles = [] → w ≠ start ∧ w ∈ s'.blocked) := by
  intro cycles
  unfold trySuccessor
  by_cases hws : w = start
  · have hcycles : cycles = [(w :: path).reverse] := if_pos hws
    refine ⟨s.record (w :: path).reverse, ?_, ⟨?_, hs.record _, ?_⟩, ?_⟩
    · simp [hws, hcycles]
    · rw [hcycles]
      rfl
    · exact fun _ => List.Subset.refl _
    · simp [hcycles]
  · rw [if_neg hws]
    by_cases hwb : w ∈ s.blocked
    · have hcycles : cycles = [] := by
        refine (if_neg hws).trans ?_
        split_ifs with hwp
        · rfl
        · exact hs.allCircuits_of_dead fuel (List.Subset.refl _) hwb hwp
      refine ⟨s, ?_, ⟨?_, hs, fun _ => List.Subset.refl _⟩, fun _ => ⟨hws, hwb⟩⟩
      · simp [hwb, hcycles]
      · simp [hcycles]
    · have hcycles : cycles = allCircuits next start fuel path w :=
        (if_neg hws).trans (if_neg fun h => hwb (hs.path_blocked w h))
      obtain ⟨s', heq, hsearched, hblocked⟩ := hfinds hwb
      refine ⟨s', ?_, hcycles ▸ hsearched, fun h => ⟨hws, hblocked (hcycles ▸ h)⟩⟩
      simp [hwb, heq, hcycles]

/-- All successors, one after the other. -/
theorem foldlM_trySuccessor {fuel : Nat} (hs : s.Consistent next start path) (ws : List Nat)
    (found : Bool)
    (hfinds : ∀ w ∈ ws, ∀ s : CircuitSearch, s.Consistent next start path → w ∉ s.blocked →
      Finds next start fuel path w s) :
    let cycles := ws.flatMap (branch start path (allCircuits next start fuel path))
    ∃ s', ws.foldlM (trySuccessor start path (circuit next start fuel path)) (found, s) =
        some (found || !cycles.isEmpty, s') ∧
      Searched next start path s s' cycles ∧
      (cycles = [] → ∀ w ∈ ws, w ≠ start ∧ w ∈ s'.blocked) := by
  induction ws generalizing s found with
  | nil => exact ⟨s, by simp, ⟨rfl, hs, fun _ => List.Subset.refl _⟩, by simp⟩
  | cons w ws ih =>
    obtain ⟨s₁, heq₁, hsearched₁, hdead₁⟩ := trySuccessor_spec hs found
      (hfinds w (List.mem_cons_self ..) s hs)
    obtain ⟨s₂, heq₂, hsearched₂, hdead₂⟩ := ih hsearched₁.consistent _
      fun u hu => hfinds u (List.mem_cons_of_mem _ hu)
    refine ⟨s₂, ?_, ⟨?_, hsearched₂.consistent, fun hnil => ?_⟩, fun hnil => ?_⟩
    · rw [List.foldlM_cons, heq₁]
      refine heq₂.trans ?_
      rw [List.flatMap_cons]
      cases branch start path (allCircuits next start fuel path) w <;> simp
    · rw [hsearched₂.cycles_eq, hsearched₁.cycles_eq]
      simp
    · rw [List.flatMap_cons, List.append_eq_nil_iff] at hnil
      exact fun x hx => hsearched₂.blocked hnil.2 (hsearched₁.blocked hnil.1 hx)
    · rw [List.flatMap_cons, List.append_eq_nil_iff] at hnil
      intro u hu
      rcases List.mem_cons.1 hu with rfl | hu
      · exact ⟨(hdead₁ hnil.1).1, hsearched₂.blocked hnil.2 (hdead₁ hnil.1).2⟩
      · exact hdead₂ hnil.2 u hu

/-- **Blocking nodes loses no cycle.** In a graph on `nodes`, with fuel for all of them, the search
    finds the cycles that the search without blocked nodes lists, in the same order. -/
theorem circuit_spec (fuel : Nat) {nodes : List Nat} (hnext : ∀ x ∈ nodes, ∀ y ∈ next x, y ∈ nodes)
    (hs : s.Consistent next start path) (hv : v ∉ s.blocked) (hpath : path.Nodup)
    (hnodes : v :: path ⊆ nodes) (hfuel : nodes.length ≤ fuel + path.length) :
    Finds next start fuel path v s := by
  have hvp : v ∉ path := fun h => hv (hs.path_blocked v h)
  have hnodup : (v :: path).Nodup := List.nodup_cons.2 ⟨hvp, hpath⟩
  have hlength : path.length + 1 ≤ nodes.length := (hnodup.subperm hnodes).length_le
  induction fuel generalizing path v s with
  | zero => omega
  | succ fuel ih =>
    -- the successors are searched with `v` on the path
    have hfinds : ∀ w ∈ next v, ∀ s : CircuitSearch, s.Consistent next start (v :: path) →
        w ∉ s.blocked → Finds next start fuel (v :: path) w s := by
      intro w hw s hs hwb
      have hwp : w ∉ v :: path := fun h => hwb (hs.path_blocked w h)
      have hsub : w :: v :: path ⊆ nodes := List.cons_subset.2
        ⟨hnext v (hnodes (List.mem_cons_self ..)) w hw, hnodes⟩
      have hnodup' : (w :: v :: path).Nodup := List.nodup_cons.2 ⟨hwp, hnodup⟩
      exact ih hs hwb hnodup hsub (by rw [List.length_cons]; omega) hwp hnodup'
        (hnodup'.subperm hsub).length_le
    obtain ⟨s', heq, hsearched, hdead⟩ :=
      foldlM_trySuccessor (hs.block hv) (next v) false hfinds
    have hcircuit : circuit next start (fuel + 1) path v s =
        some (if !(allCircuits next start (fuel + 1) path v).isEmpty then (true, s'.unblock v)
          else (false, s'.await v (next v))) := by
      unfold circuit
      rw [heq]
      rfl
    have hvblocked : v ∈ s'.blocked := hsearched.consistent.path_blocked v (List.mem_cons_self ..)
    unfold Finds
    by_cases hfound : allCircuits next start (fuel + 1) path v = []
    · refine ⟨s'.await v (next v), by simp [hcircuit, hfound], ⟨hsearched.cycles_eq, ?_, ?_⟩, ?_⟩
      · exact hsearched.consistent.await hvp (hdead hfound)
      · exact fun _ x hx => hsearched.blocked hfound (List.mem_cons_of_mem _ hx)
      · exact fun _ => hvblocked
    · refine ⟨s'.unblock v, by simp [hcircuit, hfound], ⟨?_, ?_, ?_⟩, ?_⟩
      · rw [unblock_eq hvblocked, cycles_unblockAll]
        exact hsearched.cycles_eq
      · exact hsearched.consistent.unblock hvp
      · exact fun h => absurd h hfound
      · exact fun h => absurd h hfound

theorem lt_of_isChain {size x : Nat} {c : List Nat} (hnext : ∀ x < size, ∀ y ∈ next x, y < size)
    (hchain : (x :: c).IsChain fun x y => y ∈ next x) (hx : x < size) : ∀ y ∈ x :: c, y < size := by
  induction c generalizing x with
  | nil => simpa using hx
  | cons y c ih =>
    obtain ⟨hy, hchain⟩ := List.isChain_cons_cons.1 hchain
    intro z hz
    rcases List.mem_cons.1 hz with rfl | hz
    · exact hx
    · exact ih hchain (hnext x hx y hy) z hz

/-- **The search lists each elementary cycle through a node once.** -/
theorem circuitsThrough_spec {size : Nat} (hnext : ∀ x < size, ∀ y ∈ next x, y < size)
    (hnodup : ∀ x, (next x).Nodup) (hstart : start < size) :
    ∃ cycles, circuitsThrough next size start = some cycles ∧ cycles.Nodup ∧
      ∀ c, c ∈ cycles ↔ ∃ rest, c = start :: rest ++ [start] ∧ (start :: rest).Nodup ∧
        c.IsChain fun x y => y ∈ next x := by
  have hrange : ∀ x ∈ List.range size, ∀ y ∈ next x, y ∈ List.range size := by
    simpa using hnext
  obtain ⟨s, heq, hsearched, -⟩ := circuit_spec size hrange (consistent_fresh next start)
    (v := start) (by simp [fresh]) List.nodup_nil (by simpa using hstart) (by simp)
  refine ⟨allCircuits next start size [] start, ?_, nodup_allCircuits hnodup .., fun c => ?_⟩
  · unfold circuitsThrough
    rw [heq]
    simp [hsearched.cycles_eq, fresh]
  · rw [mem_allCircuits]
    constructor
    · rintro ⟨rest, -, hrest, rfl⟩
      refine ⟨rest, rfl, List.nodup_cons.2 ⟨fun h => (hrest.fresh start h).1 rfl, hrest.nodup⟩, ?_⟩
      exact hrest.chain
    · rintro ⟨rest, rfl, hrest, hchain⟩
      have hsub : start :: rest ⊆ List.range size := fun x hx =>
        List.mem_range.2 (lt_of_isChain hnext hchain hstart x (List.mem_append_left _ hx))
      have hlength := (hrest.subperm hsub).length_le
      obtain ⟨hnot, hrest⟩ := List.nodup_cons.1 hrest
      rw [List.length_cons, List.length_range] at hlength
      refine ⟨rest, hlength, ⟨hchain, hrest, fun x hx => ?_⟩, rfl⟩
      have hxs : x ≠ start := fun h => hnot (h ▸ hx)
      exact ⟨hxs, by simpa using hxs⟩

end Overlap.Graph
