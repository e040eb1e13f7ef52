/-
  The memory nodes that the arguments of a call site stand for.

  The analysis of aliases looks at one node of several that are the same: at
  those that are not the same as one it kept before.

  * `representatives` are the elements of a list that are kept in this way.
    They are pairwise unrelated, and each element is related to one of them;
    for a transitive relation they are related to whatever an element is related
    to (`exists_representative_iff`);
  * `argumentNodes_eq`: the nodes of a call site are representatives of the nodes
    of its arguments (`Context.pointees`);
  * `mem_sharedNodes_iff`: two call sites share the nodes of both that are the
    same;
  * `sharedNodes_eq_map`: nodes that are the same only if they are equal are
    shared once each, under the names of the first arguments that point to them
    (`Context.argumentsAt`).
-/
import Mathlib.Data.List.Dedup
import Mathlib.Data.List.Induction
import Overlap.Dependence.Analyzer

namespace Overlap

open Ssa Dependence

/-! ## Representatives -/

section
variable {α κ β : Type} {r : α → α → Bool} {xs : List α} {x y : α}

/-- The elements of a list to which no element kept before is related. -/
def representatives (r : α → α → Bool) (xs : List α) : List α :=
  (xs.reverse.pwFilter fun x y => ¬ r y x).reverse

theorem representatives_nil (r : α → α → Bool) : representatives r [] = [] := rfl

theorem representatives_concat (r : α → α → Bool) (xs : List α) (x : α) :
    representatives r (xs ++ [x]) =
      if (representatives r xs).any (r · x) then representatives r xs
      else representatives r xs ++ [x] := by
  unfold representatives
  rw [List.reverse_append, List.reverse_singleton, List.singleton_append]
  split_ifs with h
  · rw [List.pwFilter_cons_of_neg]
    simpa using h
  · rw [List.pwFilter_cons_of_pos, List.reverse_cons]
    simpa using h

theorem representatives_sublist (r : α → α → Bool) (xs : List α) :
    (representatives r xs).Sublist xs := by
  have := (List.pwFilter_sublist (R := fun x y => ¬ r y x) xs.reverse).reverse
  rwa [List.reverse_reverse] at this

theorem representatives_pairwise (r : α → α → Bool) (xs : List α) :
    (representatives r xs).Pairwise fun x y => ¬ r x y :=
  List.pairwise_reverse.2 (List.pairwise_pwFilter _)

/-- Each element is related to a representative. -/
theorem exists_representative (hxx : r x x) (hx : x ∈ xs) :
    ∃ y ∈ representatives r xs, r y x := by
  induction xs using List.reverseRecOn with
  | nil => simp at hx
  | append_singleton xs z ih =>
    rw [representatives_concat]
    rcases List.mem_append.1 hx with hx | hx
    · obtain ⟨y, hy, hyx⟩ := ih hx
      refine ⟨y, ?_, hyx⟩
      split_ifs
      · exact hy
      · exact List.mem_append_left _ hy
    · obtain rfl := List.mem_singleton.1 hx
      split_ifs with h
      · obtain ⟨y, hy, hyx⟩ := List.any_eq_true.1 h
        exact ⟨y, hy, hyx⟩
      · exact ⟨x, List.mem_append_right _ (List.mem_singleton_self x), hxx⟩

/-- Representatives of a transitive relation are related to all that their list is related to. -/
theorem exists_representative_iff (htrans : ∀ x y z, r x y → r y z → r x z) :
    (∃ y ∈ representatives r xs, r y x) ↔ ∃ y ∈ xs, r y x := by
  have h := List.forall_mem_pwFilter (R := fun x y => ¬ r y x)
    (fun {x y z} hzx => by
      by_contra hcon
      push Not at hcon
      exact hzx (htrans z y x hcon.2 hcon.1)) x xs.reverse
  simp only [List.mem_reverse] at h
  rw [← not_iff_not]
  push Not
  simpa only [representatives, List.mem_reverse, Bool.not_eq_true] using h

/-- A representative of an equivalence is the first element related to it. -/
theorem find?_of_mem_representatives (hrefl : ∀ x, r x x)
    (htrans : ∀ x y z, r x y → r y z → r x z) (hx : x ∈ representatives r xs) :
    xs.find? (r · x) = some x := by
  induction xs using List.reverseRecOn with
  | nil => simp [representatives_nil] at hx
  | append_singleton xs z ih =>
    rw [List.find?_append]
    rw [representatives_concat] at hx
    split_ifs at hx with h
    · rw [ih hx, Option.some_or]
    · rcases List.mem_append.1 hx with hx | hx
      · rw [ih hx, Option.some_or]
      · obtain rfl := List.mem_singleton.1 hx
        -- an element before that is related to `x` would have a representative that is, too
        have hnone : xs.find? (r · x) = none := by
          refine List.find?_eq_none.2 fun y hy hyx => h (List.any_eq_true.2 ?_)
          exact (exists_representative_iff htrans).2 ⟨y, hy, hyx⟩
        rw [hnone, Option.none_or, List.find?_singleton, if_pos (hrefl x)]

end

/-! ## Nodes of a call site -/

namespace Context

variable {τ : Type} {C : Context τ} {A : Memory.PointerAnalysis} {a b site : Loc} {n : A.Node}
  {name : String}

/-- The nodes of the pointer-like arguments of a call site, with the names of the arguments. -/
def pointees (C : Context τ) (A : Memory.PointerAnalysis) (site : Loc) : List (A.Node × String) :=
  (C.program.args site).filterMap fun x =>
    if C.program.canPoint x then (A.node? x).map fun n => (n, C.program.displayName x) else none

/-- The pointer-like arguments of a call site that point to `n`, in order. -/
def argumentsAt (C : Context τ) (A : Memory.PointerAnalysis) (site : Loc) (n : A.Node) :
    List Value :=
  (C.program.args site).filter fun x => C.program.canPoint x && (A.node? x).any (A.same · n)

/-- The name that a call site has for `n`: that of the first argument pointing to it. -/
def nameAt (C : Context τ) (A : Memory.PointerAnalysis) (site : Loc) (n : A.Node) : String :=
  ((C.argumentsAt A site n).head?.map C.program.displayName).getD ""

theorem argumentsAt_ne_nil_iff :
    C.argumentsAt A site n ≠ [] ↔ ∃ x ∈ C.program.args site,
      C.program.canPoint x && (A.node? x).any (A.same · n) := by
  rw [argumentsAt, Ne, List.filter_eq_nil_iff]
  push Not
  rfl

theorem mem_pointees_iff :
    (n, name) ∈ C.pointees A site ↔ ∃ x ∈ C.program.args site, C.program.canPoint x ∧
      A.node? x = some n ∧ C.program.displayName x = name := by
  unfold pointees
  simp only [List.mem_filterMap]
  refine exists_congr fun x => and_congr_right fun _ => ?_
  split_ifs with hx <;> simp [hx]

/-- **The nodes of a call site are representatives** of those of its arguments. -/
theorem argumentNodes_eq (C : Context τ) (A : Memory.PointerAnalysis) (site : Loc) :
    C.argumentNodes A site = representatives (fun p q => A.same p.1 q.1) (C.pointees A site) := by
  unfold argumentNodes pointees
  induction C.program.args site using List.reverseRecOn with
  | nil => rfl
  | append_singleton args x ih =>
    rw [List.foldl_append, List.filterMap_append, ih, List.foldl_cons, List.foldl_nil]
    cases hn : A.node? x with
    | none => simp [hn]
    | some n =>
      by_cases hx : C.program.canPoint x
      · simp only [List.filterMap_cons, List.filterMap_nil, hn, hx, if_true, Option.map_some,
          Bool.true_and, representatives_concat]
        split_ifs <;> simp_all
      · simp [hx]

theorem mem_sharedNodes_iff {p : (A.Node × String) × (A.Node × String)} :
    p ∈ C.sharedNodes A a b ↔
      p.1 ∈ C.argumentNodes A a ∧ p.2 ∈ C.argumentNodes A b ∧ A.same p.1.1 p.2.1 := by
  obtain ⟨na, nb⟩ := p
  unfold sharedNodes
  simp only [List.mem_flatMap, List.mem_map, List.mem_filter, Prod.mk.injEq]
  constructor
  · rintro ⟨na', hna, nb', ⟨hnb, hsame⟩, rfl, rfl⟩
    exact ⟨hna, hnb, hsame⟩
  · rintro ⟨hna, hnb, hsame⟩
    exact ⟨na, hna, nb, ⟨hnb, hsame⟩, rfl, rfl⟩

/-- The first node of a call site that is the same as `n` comes from its first argument pointing
    to `n`. -/
theorem find?_pointees (C : Context τ) (A : Memory.PointerAnalysis) (site : Loc) (n : A.Node) :
    ((C.pointees A site).find? fun p => A.same p.1 n).map (·.2) =
      (C.argumentsAt A site n).head?.map C.program.displayName := by
  unfold pointees argumentsAt
  rw [List.head?_filter, List.find?_filterMap]
  have hpoints : (fun x => Option.any (fun p : A.Node × String => A.same p.1 n)
      (if C.program.canPoint x then (A.node? x).map fun n => (n, C.program.displayName x)
        else none)) = fun x => C.program.canPoint x && (A.node? x).any (A.same · n) := by
    funext x
    cases A.node? x <;> split_ifs with hx <;> simp [hx]
  rw [hpoints]
  cases hfind : (C.program.args site).find?
      fun x => C.program.canPoint x && (A.node? x).any (A.same · n) with
  | none => rfl
  | some x =>
    have hx := List.find?_some hfind
    rw [Bool.and_eq_true, Option.any_eq_true] at hx
    obtain ⟨hpoint, m, hm, -⟩ := hx
    simp [hpoint, hm]

/-! ## Nodes that are the same only if they are equal -/

section
variable (hA : ∀ m n, A.same m n ↔ m = n)
include hA

/-- Each node that arguments point to is kept once, under the name of the first such argument. -/
theorem mem_argumentNodes_iff :
    (n, name) ∈ C.argumentNodes A site ↔
      C.argumentsAt A site n ≠ [] ∧ name = C.nameAt A site n := by
  have hrefl : ∀ p : A.Node × String, A.same p.1 p.1 := fun p => (hA _ _).2 rfl
  have htrans : ∀ p q l : A.Node × String, A.same p.1 q.1 → A.same q.1 l.1 → A.same p.1 l.1 :=
    fun p q l hpq hql => (hA _ _).2 (((hA _ _).1 hpq).trans ((hA _ _).1 hql))
  have hfirst : ∀ name, (n, name) ∈ C.argumentNodes A site →
      C.argumentsAt A site n ≠ [] ∧ name = C.nameAt A site n := by
    intro name h
    rw [argumentNodes_eq] at h
    have hfind := find?_of_mem_representatives hrefl htrans h
    have hhead := find?_pointees C A site n
    rw [hfind, Option.map_some] at hhead
    constructor
    · intro hnil
      simp [hnil] at hhead
    · rw [nameAt, ← hhead, Option.getD_some]
  constructor
  · exact hfirst name
  · rintro ⟨hne, rfl⟩
    obtain ⟨x, hx⟩ := List.exists_mem_of_ne_nil _ hne
    obtain ⟨hargs, hx⟩ := List.mem_filter.1 hx
    rw [Bool.and_eq_true, Option.any_eq_true] at hx
    obtain ⟨hpoint, m, hm, hsame⟩ := hx
    obtain rfl := (hA _ _).1 hsame
    have hpointee : (m, C.program.displayName x) ∈ C.pointees A site :=
      mem_pointees_iff.2 ⟨x, hargs, hpoint, hm, rfl⟩
    obtain ⟨⟨k, name⟩, hk, hsame⟩ :=
      exists_representative (r := fun p q => A.same p.1 q.1) (hrefl _) hpointee
    obtain rfl : k = m := (hA _ _).1 hsame
    rw [← argumentNodes_eq] at hk
    rwa [← (hfirst name hk).2]

/-- **Two call sites share each node once.** -/
theorem sharedNodes_eq_map (C : Context τ) (a b : Loc) :
    ∃ nodes : List A.Node, nodes.Nodup ∧
      (∀ n, n ∈ nodes ↔ C.argumentsAt A a n ≠ [] ∧ C.argumentsAt A b n ≠ []) ∧
      C.sharedNodes A a b = nodes.map fun n => ((n, C.nameAt A a n), (n, C.nameAt A b n)) := by
  have hmem : ∀ p ∈ C.sharedNodes A a b,
      ((p.1.1, C.nameAt A a p.1.1), (p.1.1, C.nameAt A b p.1.1)) = p := by
    rintro ⟨⟨n, nameA⟩, ⟨m, nameB⟩⟩ hp
    obtain ⟨ha, hb, hsame⟩ := mem_sharedNodes_iff.1 hp
    obtain rfl : n = m := (hA _ _).1 hsame
    rw [((mem_argumentNodes_iff hA).1 ha).2, ((mem_argumentNodes_iff hA).1 hb).2]
  have hpairwise : ∀ site, (C.argumentNodes A site).Pairwise fun p q => p.1 ≠ q.1 := by
    intro site
    rw [argumentNodes_eq]
    exact (representatives_pairwise _ _).imp fun hpq heq => hpq ((hA _ _).2 heq)
  refine ⟨(C.sharedNodes A a b).map fun p => p.1.1, ?_, fun n => ?_, ?_⟩
  · refine List.pairwise_map.2 (List.pairwise_flatMap.2 ⟨fun na _ => ?_, ?_⟩)
    · -- nodes of `b` that are the same as one of `a` are equal, so there is at most one of them
      refine List.pairwise_map.2 (((hpairwise b).filter _).imp_of_mem ?_)
      intro p q hp hq hpq
      have hp := (hA _ _).1 (List.mem_filter.1 hp).2
      have hq := (hA _ _).1 (List.mem_filter.1 hq).2
      exact absurd (hp.symm.trans hq) hpq
    · refine (hpairwise a).imp fun {na na'} hne p hp q hq => ?_
      obtain ⟨nb, -, rfl⟩ := List.mem_map.1 hp
      obtain ⟨nb', -, rfl⟩ := List.mem_map.1 hq
      exact hne
  · rw [List.mem_map]
    constructor
    · rintro ⟨⟨⟨n, nameA⟩, ⟨m, nameB⟩⟩, hp, rfl⟩
      obtain ⟨ha, hb, hsame⟩ := mem_sharedNodes_iff.1 hp
      obtain rfl : n = m := (hA _ _).1 hsame
      exact ⟨((mem_argumentNodes_iff hA).1 ha).1, ((mem_argumentNodes_iff hA).1 hb).1⟩
    · rintro ⟨ha, hb⟩
      refine ⟨((n, C.nameAt A a n), (n, C.nameAt A b n)), mem_sharedNodes_iff.2 ⟨?_, ?_, ?_⟩, rfl⟩
      · exact (mem_argumentNodes_iff hA).2 ⟨ha, rfl⟩
      · exact (mem_argumentNodes_iff hA).2 ⟨hb, rfl⟩
      · exact (hA _ _).2 rfl
  · rw [List.map_map]
    exact (List.map_id _).symm.trans (List.map_congr_left fun p hp => (hmem p hp).symm)

end

end Context

end Overlap
