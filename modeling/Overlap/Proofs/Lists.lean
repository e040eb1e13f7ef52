/-
  Lists that are put together from parts, and folds that do not fail.

  * `filterMap_getElem?_range`: a list is read back from its positions;
  * `filter_flatMap_of_nodup` and `flatMap_filter_perm`: the parts of a list by
    key;
  * `filter_mergeSort` and `mergeSort_zipIdx`: sorting by a key and by position;
  * `eraseDups_concat`, `nodup_eraseDups`, `filter_eraseDups` and
    `eraseDups_map`: the first occurrences in a list;
  * `mapM_ok` and `foldlM_ok`: what does not fail at any element does not fail.
-/
import Mathlib.Data.List.Induction
import Mathlib.Data.List.Nodup
import Mathlib.Data.List.Perm.Basic

namespace Overlap

variable {α β κ σ ε : Type}

theorem filterMap_getElem?_range (xs : List α) :
    (List.range xs.length).filterMap (xs[·]?) = xs := by
  have htake : ∀ n, (List.range n).filterMap (xs[·]?) = xs.take n := by
    intro n
    induction n with
    | zero => rfl
    | succ n ih =>
      rw [List.range_succ, List.filterMap_append, ih, List.take_add_one]
      cases hn : xs[n]? <;> simp [hn]
  rw [htake, List.take_length]

/-- The part of one item among the parts of all items, which are told apart by a key. -/
theorem filter_flatMap_of_nodup [DecidableEq κ] {part : β → List α} {key : α → κ} {label : β → κ}
    {b : β} {bs : List β} (hkey : ∀ c ∈ bs, ∀ x ∈ part c, key x = label c)
    (hnodup : (bs.map label).Nodup) (hb : b ∈ bs) :
    (bs.flatMap part).filter (fun x => key x = label b) = part b := by
  induction bs with
  | nil => simp at hb
  | cons c bs ih =>
    obtain ⟨hc, hnodup⟩ := List.nodup_cons.1 hnodup
    have hkeyc : ∀ x ∈ part c, key x = label c := hkey c (List.mem_cons_self ..)
    have hkeys : ∀ d ∈ bs, ∀ x ∈ part d, key x = label d := fun d hd =>
      hkey d (List.mem_cons_of_mem _ hd)
    rw [List.flatMap_cons, List.filter_append]
    rcases List.mem_cons.1 hb with rfl | hb
    · have hfirst : (part b).filter (fun x => key x = label b) = part b :=
        List.filter_eq_self.2 fun x hx => decide_eq_true (hkeyc x hx)
      have hrest : (bs.flatMap part).filter (fun x => key x = label b) = [] := by
        refine List.filter_eq_nil_iff.2 fun x hx => ?_
        obtain ⟨d, hd, hx⟩ := List.mem_flatMap.1 hx
        rw [hkeys d hd x hx, decide_eq_true_eq]
        exact fun h => hc (h ▸ List.mem_map_of_mem hd)
      rw [hfirst, hrest, List.append_nil]
    · have hfirst : (part c).filter (fun x => key x = label b) = [] := by
        refine List.filter_eq_nil_iff.2 fun x hx => ?_
        rw [hkeyc x hx, decide_eq_true_eq]
        exact fun h => hc (h ▸ List.mem_map_of_mem hb)
      rw [hfirst, List.nil_append, ih hkeys hnodup hb]

/-- The elements with one key among the elements of all keys. -/
theorem filter_flatMap_of_key [DecidableEq κ] {part : κ → List α} {key : α → κ} {k : κ}
    {ks : List κ} (hkey : ∀ j ∈ ks, ∀ x ∈ part j, key x = j) (hnodup : ks.Nodup) (hk : k ∈ ks) :
    (ks.flatMap part).filter (fun x => key x = k) = part k :=
  filter_flatMap_of_nodup hkey (by rwa [List.map_id']) hk

/-- A list is made of its parts by key. -/
theorem flatMap_filter_perm [DecidableEq κ] {key : α → κ} {ks : List κ} {xs : List α}
    (hnodup : ks.Nodup) (hmem : ∀ x ∈ xs, key x ∈ ks) :
    (ks.flatMap fun k => xs.filter fun x => key x = k).Perm xs := by
  induction ks generalizing xs with
  | nil =>
    have : xs = [] := List.eq_nil_iff_forall_not_mem.2 fun x hx => by simpa using hmem x hx
    simp [this]
  | cons k ks ih =>
    obtain ⟨hk, hnodup⟩ := List.nodup_cons.1 hnodup
    have hrest : ∀ x ∈ xs.filter (fun x => !decide (key x = k)), key x ∈ ks := by
      intro x hx
      obtain ⟨hx, hne⟩ := List.mem_filter.1 hx
      exact (List.mem_cons.1 (hmem x hx)).resolve_left (by simpa using hne)
    have hpart : ∀ j ∈ ks, (xs.filter fun x => !decide (key x = k)).filter (fun x => key x = j) =
        xs.filter fun x => key x = j := by
      intro j hj
      have hjk : j ≠ k := by
        rintro rfl
        exact hk hj
      rw [List.filter_filter]
      refine List.filter_congr fun x _ => ?_
      by_cases hx : key x = j
      · simp [hx, hjk]
      · simp [hx]
    rw [List.flatMap_cons, ← List.flatMap_congr hpart]
    exact ((ih hnodup hrest).append_left _).trans (List.filter_append_perm _ xs)

/-! ## Sorting -/

/-- Sorting leaves elements as they are that are in order among themselves. -/
theorem filter_mergeSort {key : α → Int} {p : α → Bool} {xs : List α}
    (h : (xs.filter p).Pairwise fun a b => key a ≤ key b) :
    (xs.mergeSort fun a b => key a ≤ key b).filter p = xs.filter p := by
  have hsub : (xs.filter p).Sublist (xs.mergeSort fun a b => key a ≤ key b) := by
    refine List.sublist_mergeSort ?_ ?_ (h.imp fun hab => decide_eq_true hab) List.filter_sublist
    · exact fun a b c hab hbc => by simp only [decide_eq_true_eq] at *; omega
    · exact fun a b => by simp only [Bool.or_eq_true, decide_eq_true_eq]; omega
  have hsub := hsub.filter p
  simp only [List.filter_filter, Bool.and_self] at hsub
  exact (hsub.eq_of_length ((List.mergeSort_perm xs _).filter p).length_eq.symm).symm

theorem zipIdx_pairwise (xs : List α) : xs.zipIdx.Pairwise fun p q => p.2 < q.2 := by
  refine (List.pairwise_map (f := Prod.snd)).1 ?_
  rw [List.zipIdx_map_snd]
  exact List.pairwise_lt_range'

/-- The elements of a list from the last position to the first. -/
theorem mergeSort_zipIdx (xs : List α) :
    (xs.zipIdx.mergeSort fun p q => q.2 ≤ p.2) = xs.zipIdx.reverse := by
  have hsorted : (xs.zipIdx.mergeSort fun p q => q.2 ≤ p.2).Pairwise fun p q => q.2 ≤ p.2 := by
    refine (List.pairwise_mergeSort ?_ ?_ _).imp fun h => of_decide_eq_true h
    · exact fun p q r hpq hqr => by simp only [decide_eq_true_eq] at *; omega
    · exact fun p q => by simp only [Bool.or_eq_true, decide_eq_true_eq]; omega
  have hreverse : xs.zipIdx.reverse.Pairwise fun p q => q.2 ≤ p.2 :=
    List.pairwise_reverse.2 ((zipIdx_pairwise xs).imp Nat.le_of_lt)
  refine List.Perm.eq_of_pairwise ?_ hsorted hreverse
    ((List.mergeSort_perm _ _).trans (List.reverse_perm _).symm)
  rintro ⟨x, i⟩ ⟨y, j⟩ hx hy hij hji
  obtain rfl : i = j := Nat.le_antisymm hji hij
  have hx := List.mk_mem_zipIdx_iff_getElem?.1 (List.mem_mergeSort.1 hx)
  have hy := List.mk_mem_zipIdx_iff_getElem?.1 (List.mem_reverse.1 hy)
  rw [Option.some.inj (hx.symm.trans hy)]

/-! ## First occurrences -/

theorem eraseDups_concat [BEq α] [LawfulBEq α] (xs : List α) (x : α) :
    (xs ++ [x]).eraseDups = if x ∈ xs then xs.eraseDups else xs.eraseDups ++ [x] := by
  rw [List.eraseDups_append]
  split_ifs with hx
  · simp [List.removeAll, hx]
  · simp [List.removeAll, hx, List.eraseDups_cons]

theorem nodup_eraseDups [BEq α] [LawfulBEq α] (xs : List α) : xs.eraseDups.Nodup := by
  induction xs using List.reverseRecOn with
  | nil => exact List.nodup_nil
  | append_singleton xs x ih =>
    rw [eraseDups_concat]
    split_ifs with hx
    · exact ih
    · exact List.concat_eq_append ▸ ih.concat (by simpa using hx)

theorem filter_eraseDups [BEq α] [LawfulBEq α] (p : α → Bool) (xs : List α) :
    xs.eraseDups.filter p = (xs.filter p).eraseDups := by
  induction xs using List.reverseRecOn with
  | nil => rfl
  | append_singleton xs x ih =>
    rw [eraseDups_concat, List.filter_append]
    by_cases hp : p x
    · have hmem : x ∈ xs.filter p ↔ x ∈ xs := by simp [hp]
      rw [List.filter_cons_of_pos hp, List.filter_nil, eraseDups_concat, ← ih]
      simp only [hmem]
      split_ifs
      · rfl
      · simp [hp]
    · rw [List.filter_cons_of_neg hp, List.filter_nil, List.append_nil, ← ih]
      split_ifs
      · rfl
      · simp [hp]

theorem eraseDups_map [BEq α] [LawfulBEq α] [BEq β] [LawfulBEq β] {f : α → β}
    (hf : Function.Injective f) (xs : List α) : (xs.map f).eraseDups = xs.eraseDups.map f := by
  induction xs using List.reverseRecOn with
  | nil => rfl
  | append_singleton xs x ih =>
    rw [List.map_append, List.map_singleton, eraseDups_concat, eraseDups_concat, ih]
    simp only [List.mem_map_of_injective hf]
    split_ifs
    · rfl
    · simp

/-! ## Folds that may fail -/

theorem foldlM_flatMap {part : β → List α} {step : σ → α → Except ε σ} {xs : List β} {s : σ} :
    (xs.flatMap part).foldlM step s = xs.foldlM (fun s x => (part x).foldlM step s) s := by
  induction xs generalizing s with
  | nil => rfl
  | cons x xs ih =>
    rw [List.flatMap_cons, List.foldlM_append, List.foldlM_cons]
    exact bind_congr fun s' => ih

theorem mapM_ok {f : α → Except ε β} {g : α → β} {xs : List α} (h : ∀ x ∈ xs, f x = .ok (g x)) :
    xs.mapM f = .ok (xs.map g) := by
  induction xs with
  | nil => rfl
  | cons x xs ih =>
    obtain ⟨hx, hxs⟩ := List.forall_mem_cons.1 h
    rw [List.mapM_cons, hx, ih hxs]
    rfl

/-- A fold whose steps do not fail, and keep what holds of the state, does not fail and keeps
    it. -/
theorem foldlM_ok {motive : σ → Prop} {step : σ → α → Except ε σ} {xs : List α} {s : σ}
    (hstep : ∀ s, motive s → ∀ x ∈ xs, ∃ s', step s x = .ok s' ∧ motive s') (hs : motive s) :
    ∃ s', xs.foldlM step s = .ok s' ∧ motive s' := by
  induction xs generalizing s with
  | nil => exact ⟨s, rfl, hs⟩
  | cons x xs ih =>
    obtain ⟨s₁, h₁, hs₁⟩ := hstep s hs x (List.mem_cons_self ..)
    obtain ⟨s', h', hs'⟩ := ih (fun s hs y hy => hstep s hs y (List.mem_cons_of_mem _ hy)) hs₁
    refine ⟨s', ?_, hs'⟩
    rw [List.foldlM_cons, h₁]
    exact h'

end Overlap
