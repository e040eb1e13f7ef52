/-
  Sorting by a decreasing key.

  * `sortDescending_perm`: sorting keeps all elements;
  * `Ordered`: comparisons order the numbers, undefined ones apart;
  * `descending_sortDescending`: the result is sorted, and elements that the
    key does not tell apart keep their order.
-/
import Mathlib.Data.List.Induction
import Mathlib.Data.List.Perm.Basic
import Overlap.Quantity

namespace Overlap.Quantity

variable {α β : Type} {precedes : α → α → Bool} {x : α} {xs ys : List α}

theorem insertBack_perm (precedes : α → α → Bool) (x : α) (ys : List α) :
    (insertBack precedes x ys).Perm (x :: ys) := by
  induction ys with
  | nil => exact .refl _
  | cons y ys ih =>
    unfold insertBack
    split_ifs
    · exact (ih.cons y).trans (.swap x y ys)
    · exact .refl _

theorem insertionSort_perm (precedes : α → α → Bool) (xs : List α) :
    (insertionSort precedes xs).Perm xs := by
  unfold insertionSort
  suffices ∀ sorted, (xs.foldl (fun sorted x => insertBack precedes x sorted) sorted).Perm
      (xs ++ sorted) by
    simpa using (List.reverse_perm _).trans (this [])
  induction xs with
  | nil => exact fun sorted => .refl _
  | cons x xs ih =>
    exact fun sorted => (ih _).trans (((insertBack_perm precedes x sorted).append_left xs).trans
      List.perm_middle)

theorem sortDescending_perm {τ : Type} [Quantity τ] (key : α → τ) (xs : List α) :
    (sortDescending key xs).Perm xs := by
  have := (insertionSort_perm (fun a b => lt b.2 a.2) (xs.map fun x => (x, key x))).map (·.1)
  simpa [sortDescending, Function.comp_def] using this

/-! ## Insertion sort -/

theorem insertionSort_concat (precedes : α → α → Bool) (xs : List α) (x : α) :
    insertionSort precedes (xs ++ [x]) =
      (insertBack precedes x (insertionSort precedes xs).reverse).reverse := by
  simp [insertionSort]

theorem insertBack_map (f : β → α) (x : β) (ys : List β) :
    insertBack precedes (f x) (ys.map f) =
      (insertBack (fun a b => precedes (f a) (f b)) x ys).map f := by
  induction ys with
  | nil => rfl
  | cons y ys ih =>
    rw [List.map_cons, insertBack, insertBack]
    split_ifs
    · rw [ih, List.map_cons]
    · rfl

theorem insertionSort_map (f : β → α) (xs : List β) :
    insertionSort precedes (xs.map f) =
      (insertionSort (fun a b => precedes (f a) (f b)) xs).map f := by
  induction xs using List.reverseRecOn with
  | nil => rfl
  | append_singleton xs x ih =>
    rw [List.map_append, List.map_singleton, insertionSort_concat, insertionSort_concat, ih,
      ← List.map_reverse, insertBack_map, List.map_reverse]

/-- An element is put behind those that it does not precede. -/
theorem pairwise_insertBack (hasymm : ∀ y ∈ ys, precedes x y → precedes y x = false)
    (htrans : ∀ y ∈ ys, ∀ z ∈ ys, precedes x y = false → precedes y z = false →
      precedes x z = false)
    (hys : ys.Pairwise fun b a => precedes b a = false) :
    (insertBack precedes x ys).Pairwise fun b a => precedes b a = false := by
  induction ys with
  | nil => exact List.pairwise_singleton _ _
  | cons y ys ih =>
    obtain ⟨hy, hys⟩ := List.pairwise_cons.1 hys
    unfold insertBack
    split_ifs with hxy
    · refine List.pairwise_cons.2 ⟨fun z hz => ?_, ih ?_ ?_ hys⟩
      · rcases List.mem_cons.1 ((insertBack_perm precedes x ys).mem_iff.1 hz) with rfl | hz
        · exact hasymm y (List.mem_cons_self ..) hxy
        · exact hy z hz
      · exact fun z hz => hasymm z (List.mem_cons_of_mem _ hz)
      · exact fun z hz w hw => htrans z (List.mem_cons_of_mem _ hz) w (List.mem_cons_of_mem _ hw)
    · have hxy : precedes x y = false := by simpa using hxy
      refine List.pairwise_cons.2 ⟨fun z hz => ?_, List.pairwise_cons.2 ⟨hy, hys⟩⟩
      rcases List.mem_cons.1 hz with rfl | hz
      · exact hxy
      · exact htrans y (List.mem_cons_self ..) z (List.mem_cons_of_mem _ hz) hxy (hy z hz)

theorem pairwise_insertionSort
    (hasymm : ∀ x ∈ xs, ∀ y ∈ xs, precedes x y → precedes y x = false)
    (htrans : ∀ x ∈ xs, ∀ y ∈ xs, ∀ z ∈ xs, precedes x y = false → precedes y z = false →
      precedes x z = false) :
    (insertionSort precedes xs).Pairwise fun a b => precedes b a = false := by
  induction xs using List.reverseRecOn with
  | nil => exact List.Pairwise.nil
  | append_singleton xs x ih =>
    have hmem : ∀ y ∈ (insertionSort precedes xs).reverse, y ∈ xs ++ [x] := fun y hy =>
      List.mem_append_left _ ((insertionSort_perm precedes xs).mem_iff.1 (List.mem_reverse.1 hy))
    have hx : x ∈ xs ++ [x] := by simp
    rw [insertionSort_concat, List.pairwise_reverse]
    refine pairwise_insertBack (fun y hy => hasymm x hx y (hmem y hy))
      (fun y hy z hz => htrans x hx y (hmem y hy) z (hmem z hz))
      (List.pairwise_reverse.2 (ih ?_ ?_))
    · exact fun y hy z hz => hasymm y (List.mem_append_left _ hy) z (List.mem_append_left _ hz)
    · exact fun y hy z hz w hw => htrans y (List.mem_append_left _ hy) z (List.mem_append_left _ hz)
        w (List.mem_append_left _ hw)

/-- Elements that `x` does not precede stay behind it. -/
theorem filter_insertBack {p : α → Bool} (hp : ∀ y ∈ ys, p x → p y → precedes x y = false) :
    (insertBack precedes x ys).filter p = (x :: ys).filter p := by
  induction ys with
  | nil => rfl
  | cons y ys ih =>
    have ih := ih fun z hz => hp z (List.mem_cons_of_mem _ hz)
    unfold insertBack
    split_ifs with hxy
    · -- `x` passes `y`, so only one of them is kept
      rw [List.filter_cons, ih]
      by_cases hx : p x
      · have hy : ¬ p y := fun hy => by simp [hp y (List.mem_cons_self ..) hx hy] at hxy
        simp [hx, hy]
      · simp [List.filter_cons, hx]
    · rfl

theorem filter_insertionSort {p : α → Bool}
    (hp : ∀ x ∈ xs, ∀ y ∈ xs, p x → p y → precedes x y = false) :
    (insertionSort precedes xs).filter p = xs.filter p := by
  induction xs using List.reverseRecOn with
  | nil => rfl
  | append_singleton xs x ih =>
    have ih := ih fun y hy z hz => hp y (List.mem_append_left _ hy) z (List.mem_append_left _ hz)
    rw [insertionSort_concat, List.filter_reverse, filter_insertBack]
    · rw [List.filter_cons, List.filter_reverse, ih, List.filter_append]
      split_ifs with hx <;> simp [hx]
    · intro y hy
      refine hp x (by simp) y (List.mem_append_left _ ?_)
      exact (insertionSort_perm precedes xs).mem_iff.1 (List.mem_reverse.1 hy)

/-! ## Decreasing keys -/

section
variable {τ : Type} [Quantity τ]

/-- Comparisons order the numbers that are not undefined. -/
class Ordered (τ : Type) [Quantity τ] : Prop where
  lt_asymm : ∀ x y : τ, lt x y → lt y x = false
  not_lt_trans : ∀ x y z : τ, isDefined x → isDefined y → isDefined z →
    lt x y = false → lt y z = false → lt x z = false

/-- `ys` are the elements of `xs` by decreasing key; those that the key does not tell apart are in
    the order of `xs`. -/
structure Descending (key : α → τ) (xs ys : List α) : Prop where
  perm : ys.Perm xs
  sorted : ys.Pairwise fun a b => lt (key a) (key b) = false
  stable : ∀ p : α → Bool, (∀ a ∈ xs, ∀ b ∈ xs, p a → p b → lt (key a) (key b) = false) →
    ys.filter p = xs.filter p

theorem sortDescending_eq (key : α → τ) (xs : List α) :
    sortDescending key xs = insertionSort (fun a b => lt (key b) (key a)) xs := by
  unfold sortDescending
  rw [insertionSort_map, List.map_map]
  exact List.map_id _

/-- **Sorting is stable and sorts**, if no key is undefined. -/
theorem descending_sortDescending [Ordered τ] {key : α → τ} {xs : List α}
    (hkey : ∀ x ∈ xs, isDefined (key x)) : Descending key xs (sortDescending key xs) where
  perm := sortDescending_perm key xs
  sorted := by
    rw [sortDescending_eq]
    refine pairwise_insertionSort (fun x _ y _ => Ordered.lt_asymm _ _) ?_
    intro x hx y hy z hz hxy hyz
    exact Ordered.not_lt_trans _ _ _ (hkey z hz) (hkey y hy) (hkey x hx) hyz hxy
  stable p hp := by
    rw [sortDescending_eq]
    exact filter_insertionSort fun x hx y hy hpx hpy => hp y hy x hx hpy hpx

end

end Overlap.Quantity
