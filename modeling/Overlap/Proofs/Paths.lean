/-
  Paths between the blocks of a function, and the order of instructions that
  they imply.

  * `hasPathTo_iff`: the search from a point finds another one if and only if
    there is a path of at least one step; what it has seen is closed under
    successors, but for what is in its queue (`Searching`), and its fuel covers
    the queue and what has not been seen;
  * `Connected.path_of_dominates`: control passes from a block to the blocks it
    dominates;
  * `before_respects_control`: of two instructions exactly one is
    first, and dominance and one-way paths decide which.
-/
import Overlap.Proofs.Dominance
import Overlap.Proofs.Lists
import Overlap.Proofs.Program

namespace Overlap.Graph

/-! ## The search for a path -/

section
variable {α : Type} [DecidableEq α] {next : α → List α} {points seen queue : List α}
  {x y target : α}

/-- A search that has not found `target`: what it has seen is in the queue, or has only successors
    that were seen and are not `target`. -/
structure Searching (next : α → List α) (target : α) (seen queue : List α) : Prop where
  queue_subset : queue ⊆ seen
  explored : ∀ y ∈ seen, y ∈ queue ∨ target ∉ next y ∧ next y ⊆ seen

/-- The points that a search puts into its queue: the new successors of a point, each once. -/
def newPoints (next : α → List α) (seen : List α) (x : α) : List α :=
  ((next x).filter (· ∉ seen)).eraseDups

theorem mem_newPoints_iff : y ∈ newPoints next seen x ↔ y ∈ next x ∧ y ∉ seen := by
  simp [newPoints]

theorem search_cons {fuel : Nat} :
    search next target (fuel + 1) seen (x :: queue) = true ↔ target ∈ next x ∨
      search next target fuel (seen ++ newPoints next seen x) (queue ++ newPoints next seen x) := by
  rw [search]
  split_ifs with h
  · simp [h]
  · simp [h, newPoints]

/-- Taking a point from the queue that `target` does not follow. -/
theorem Searching.step (h : Searching next target seen (x :: queue)) (hx : target ∉ next x) :
    Searching next target (seen ++ newPoints next seen x) (queue ++ newPoints next seen x) where
  queue_subset :=
    List.append_subset.2 ⟨fun _ hy => List.mem_append_left _ (h.queue_subset (.tail _ hy)),
      List.subset_append_right ..⟩
  explored y hy := by
    rcases List.mem_append.1 hy with hy | hy
    · rcases h.explored y hy with hy | ⟨hnot, hsub⟩
      · rcases List.mem_cons.1 hy with rfl | hy
        · -- its successors have been seen before, or have just been put into the queue
          refine .inr ⟨hx, fun z hz => List.mem_append.2 ?_⟩
          by_cases hseen : z ∈ seen
          · exact .inl hseen
          · exact .inr (mem_newPoints_iff.2 ⟨hz, hseen⟩)
        · exact .inl (List.mem_append_left _ hy)
      · exact .inr ⟨hnot, List.subset_append_of_subset_left _ hsub⟩
    · exact .inl (List.mem_append_right _ hy)

omit [DecidableEq α] in
/-- Without a queue, nothing that was seen leads to `target`. -/
theorem Searching.not_path (h : Searching next target seen []) (hy : y ∈ seen) :
    ¬ Path next y target := by
  rintro ⟨z, hz, hreach⟩
  have hexplored : ∀ y ∈ seen, target ∉ next y ∧ next y ⊆ seen := fun y hy =>
    (h.explored y hy).resolve_left List.not_mem_nil
  induction hreach generalizing y with
  | refl z => exact (hexplored y hy).1 hz
  | step hw _ ih => exact ih h ((hexplored y hy).2 hz) hw hexplored

theorem unseen_append_newPoints (seen : List α) (hnext : next x ⊆ points) :
    (newPoints next seen x).length + unseen points (seen ++ newPoints next seen x) ≤
      unseen points seen := by
  have hnodup : (newPoints next seen x).Nodup := nodup_eraseDups _
  have hsub : newPoints next seen x ⊆
      (points.filter (· ∉ seen)).filter (· ∈ newPoints next seen x) := by
    intro y hy
    obtain ⟨hyx, hseen⟩ := mem_newPoints_iff.1 hy
    simp [hnext hyx, hseen, hy]
  have hrest : unseen points (seen ++ newPoints next seen x) =
      ((points.filter (· ∉ seen)).filter (· ∉ newPoints next seen x)).length := by
    unfold unseen
    rw [List.filter_filter]
    congr 2
    funext y
    by_cases hy : y ∈ seen <;> simp [hy]
  calc (newPoints next seen x).length + unseen points (seen ++ newPoints next seen x)
      ≤ ((points.filter (· ∉ seen)).filter (· ∈ newPoints next seen x)).length +
          ((points.filter (· ∉ seen)).filter (· ∉ newPoints next seen x)).length := by
        rw [hrest]
        exact Nat.add_le_add_right (hnodup.subperm hsub).length_le _
    _ = unseen points seen := by
        rw [← List.length_append]
        simpa [unseen] using (List.filter_append_perm (· ∈ newPoints next seen x)
          (points.filter (· ∉ seen))).length_eq

/-- What a search finds follows a point of its queue. -/
theorem path_of_search {fuel : Nat} (h : search next target fuel seen queue = true) :
    ∃ x ∈ queue, Path next x target := by
  induction fuel generalizing seen queue with
  | zero => simp [search] at h
  | succ fuel ih =>
    cases queue with
    | nil => simp [search] at h
    | cons x queue =>
      rcases search_cons.1 h with h | h
      · exact ⟨x, List.mem_cons_self .., .of_mem h⟩
      · obtain ⟨y, hy, hpath⟩ := ih h
        rcases List.mem_append.1 hy with hy | hy
        · exact ⟨y, List.mem_cons_of_mem _ hy, hpath⟩
        · have hxy : Reaches next x y := .of_mem (mem_newPoints_iff.1 hy).1
          exact ⟨x, List.mem_cons_self .., hxy.trans_path hpath⟩

/-- A search with fuel for its queue and for what it has not seen finds every point that a path
    leads to. -/
theorem search_of_path (hnext : ∀ x ∈ points, next x ⊆ points) {fuel : Nat}
    (h : Searching next target seen queue) (hseen : seen ⊆ points)
    (hfuel : queue.length + unseen points seen ≤ fuel) (hy : y ∈ seen)
    (hpath : Path next y target) : search next target fuel seen queue = true := by
  -- each round takes one point from the queue, and what it puts there is no longer unseen
  induction fuel generalizing seen queue with
  | zero =>
    obtain rfl : queue = [] := List.length_eq_zero_iff.1 (by omega)
    exact absurd hpath (h.not_path hy)
  | succ fuel ih =>
    cases queue with
    | nil => exact absurd hpath (h.not_path hy)
    | cons x queue =>
      refine search_cons.2 (Classical.or_iff_not_imp_left.2 fun hx => ?_)
      have hxnext : next x ⊆ points := hnext x (hseen (h.queue_subset (List.mem_cons_self ..)))
      refine ih (h.step hx) (List.append_subset.2 ⟨hseen, ?_⟩) ?_ (List.mem_append_left _ hy)
      · exact fun z hz => hxnext (mem_newPoints_iff.1 hz).1
      · have := unseen_append_newPoints seen hxnext
        rw [List.length_cons] at hfuel
        rw [List.length_append]
        omega

/-- **The search finds a path of at least one step if there is one**, in a graph of at most `size`
    points besides the first one. -/
theorem hasPathTo_iff (hnext : ∀ x ∈ points, next x ⊆ points) {size : Nat}
    (hsize : points.length ≤ size + 1) (hx : x ∈ points) :
    hasPathTo next size x y ↔ Path next x y := by
  constructor
  · intro h
    obtain ⟨z, hz, hpath⟩ := path_of_search h
    rwa [List.mem_singleton.1 hz] at hpath
  · have hunseen : unseen points [x] < points.length :=
      List.length_filter_lt_length_iff_exists.2 ⟨x, hx, by simp⟩
    refine search_of_path hnext ⟨List.Subset.refl _, fun z hz => .inl hz⟩ (by simpa using hx) ?_
      (List.mem_singleton_self x)
    rw [List.length_singleton]
    omega

end

end Overlap.Graph

namespace Overlap.Ssa.Program

open Graph

variable {P : Program} {f : Nat}

/-! ## Paths and dominance between blocks -/

section
variable {a b r : Nat}

/-- On the way to `a` control passes `b`, or it comes to `a` without. -/
theorem reaches_avoiding_or_reaches (hab : a ≠ b) (h : Reaches (P.succs f) r a) :
    r ≠ b ∧ Reaches (P.succsAvoiding f b) r a ∨ Reaches (P.succs f) b a := by
  induction h with
  | refl r => exact .inl ⟨hab, .refl r⟩
  | @step r c a hc hreach ih =>
    by_cases hrb : r = b
    · exact .inr (hrb ▸ .step hc hreach)
    rcases ih hab with ⟨hcb, h⟩ | h
    · exact .inl ⟨hrb, .step (mem_succsAvoiding_iff.2 ⟨hc, hcb⟩) h⟩
    · exact .inr h

namespace Connected

variable (hf : P.Connected f)
include hf

theorem hasPath_iff (ha : a < (P.blocks f).size) : P.hasPath f a b ↔ Path (P.succs f) a b := by
  have hclosed : ∀ x ∈ P.blockIds f, P.succs f x ⊆ P.blockIds f := fun x hx y hy =>
    List.mem_range.2 (hf.succs_lt x (List.mem_range.1 hx) y hy)
  refine hasPathTo_iff hclosed ?_ (List.mem_range.2 ha)
  rw [blockIds, List.length_range]
  omega

theorem rootOf_reaches (hb : b < (P.blocks f).size) : Reaches (P.succs f) (P.rootOf f b) b := by
  by_cases h : Reaches (P.succs f) 0 b
  · rwa [hf.rootOf_eq_zero hb h]
  · obtain ⟨r, -, hroot, hreach⟩ := hf.rootOf_eq_recover hb h
    rwa [hroot]

/-- **Control passes from a block to the blocks it dominates.** -/
theorem path_of_dominates (hb : b < (P.blocks f).size) (hab : a ≠ b) (hdom : P.dominates f a b) :
    Path (P.succs f) a b := by
  have hnot := ((hf.dominates_iff hb).1 hdom).resolve_left hab
  have hreach := (reaches_avoiding_or_reaches hab.symm (hf.rootOf_reaches hb)).resolve_left hnot
  exact hreach.path_of_ne hab

end Connected

end

/-! ## The order of instructions -/

variable {a b : Loc}

theorem before_of_locDominates (hab : a ≠ b) (hdom : P.locDominates a b) : P.before a b := by
  unfold locDominates at hdom
  unfold before
  rw [if_neg hab] at hdom ⊢
  split_ifs at hdom ⊢
  · exact hdom
  · rfl

/-- An instruction is before the others that control passes to from its block but not back. -/
theorem Connected.before_of_path (hf : P.Connected a.func) (hfunc : a.func = b.func)
    (ha : (P.instr? a).isSome) (hb : (P.instr? b).isSome)
    (hforth : Path (P.succs a.func) a.block b.block)
    (hback : ¬ Path (P.succs a.func) b.block a.block) : P.before a b := by
  have hblock : a.block ≠ b.block := fun h => hback (h ▸ hforth)
  have hab : a ≠ b := fun h => hblock (congrArg Loc.block h)
  have hlt := block_lt_of_instr ha
  have hlt' : b.block < (P.blocks a.func).size := hfunc ▸ block_lt_of_instr hb
  -- the block of `b` does not dominate that of `a`, since control does not pass from it to that one
  have hdom : ¬ P.dominates a.func b.block a.block := fun hdom =>
    hback (hf.path_of_dominates hlt hblock.symm hdom)
  have hpath : P.hasPath a.func a.block b.block = true := (hf.hasPath_iff hlt).2 hforth
  have hpath' : P.hasPath a.func b.block a.block = false :=
    Bool.eq_false_iff.2 (mt (hf.hasPath_iff hlt').1 hback)
  unfold before
  rw [if_neg hab, if_neg hblock, if_neg hdom]
  split_ifs
  · rfl
  · simp [hpath, hpath']

/-- **Program order respects control flow.** In a function all of whose blocks control can enter, of
    any two different instructions exactly one is before the other. It is that one which dominates
    the other if one does, and that one from whose block control can pass to the block of the other
    but not back. -/
theorem before_respects_control (P : Program) (f : Nat) (hf : P.Connected f) {a b : Loc}
    (ha : a ∈ P.locs f) (hb : b ∈ P.locs f) (hab : a ≠ b) :
    (P.before a b ↔ ¬ P.before b a) ∧
      (P.locDominates a b → P.before a b) ∧
      (Path (P.succs f) a.block b.block → ¬ Path (P.succs f) b.block a.block → P.before a b) := by
  obtain ⟨rfl, hinstr⟩ := mem_locs_iff.1 ha
  obtain ⟨hfunc, hinstr'⟩ := mem_locs_iff.1 hb
  refine ⟨?_, before_of_locDominates hab, hf.before_of_path hfunc.symm hinstr hinstr'⟩
  rw [hf.before_swap hfunc.symm hinstr hinstr' hab]
  simp

/-- A loop that control enters at two of its blocks, and a block for recovery. -/
def twoEntryLoop : Program :=
  let jump : Instr := ⟨.jump, none, none⟩
  let branch : Instr := ⟨.branch (.const 0), none, none⟩
  let ret : Instr := ⟨.ret [], none, none⟩
  smallProgram #[] #[
    { straightLine "main" #[] #[] with
      body := some ⟨#[⟨#[branch], [1, 2], "entry"⟩, ⟨#[jump], [2], "left"⟩,
        ⟨#[branch], [1, 3], "right"⟩, ⟨#[ret], [], "done"⟩, ⟨#[ret], [], "recover"⟩], some 4⟩ }]

theorem connected_twoEntryLoop : twoEntryLoop.Connected 0 where
  succs_lt := by decide
  recover_lt r hr := by
    obtain rfl : 4 = r := Option.some.inj hr
    decide
  entered b hb := by
    have hright : Reaches (twoEntryLoop.succs 0) 0 2 := .of_mem (by decide)
    match b, hb with
    | 0, _ => exact .inl (.refl 0)
    | 1, _ => exact .inl (.of_mem (by decide))
    | 2, _ => exact .inl hright
    | 3, _ => exact .inl (hright.tail (by decide))
    | 4, _ => exact .inr ⟨4, rfl, .refl 4⟩
    | b + 5, hb =>
      have hb : b + 5 < 5 := hb
      omega

/-- In the loop one of the two blocks is first, and both are before the end, to which control
    passes from them. -/
theorem before_respects_control_twoEntryLoop :
    twoEntryLoop.Connected 0 ∧ (⟨0, 1, 0⟩ : Loc) ∈ twoEntryLoop.locs 0 ∧
      (⟨0, 2, 0⟩ : Loc) ∈ twoEntryLoop.locs 0 ∧ (⟨0, 3, 0⟩ : Loc) ∈ twoEntryLoop.locs 0 ∧
      (twoEntryLoop.before ⟨0, 1, 0⟩ ⟨0, 2, 0⟩ ↔ ¬ twoEntryLoop.before ⟨0, 2, 0⟩ ⟨0, 1, 0⟩) ∧
      twoEntryLoop.before ⟨0, 1, 0⟩ ⟨0, 3, 0⟩ := by
  have hleft : (⟨0, 1, 0⟩ : Loc) ∈ twoEntryLoop.locs 0 := by decide
  have hright : (⟨0, 2, 0⟩ : Loc) ∈ twoEntryLoop.locs 0 := by decide
  have hdone : (⟨0, 3, 0⟩ : Loc) ∈ twoEntryLoop.locs 0 := by decide
  have hforth : Path (twoEntryLoop.succs 0) 1 3 :=
    ⟨2, by decide, .of_mem (by decide)⟩
  have hback : ¬ Path (twoEntryLoop.succs 0) 3 1 := by
    rintro ⟨b, hb, -⟩
    exact absurd hb List.not_mem_nil
  exact ⟨connected_twoEntryLoop, hleft, hright, hdone,
    (before_respects_control _ 0 connected_twoEntryLoop hleft hright (by decide)).1,
    (before_respects_control _ 0 connected_twoEntryLoop hleft hdone (by decide)).2.2 hforth hback⟩

end Overlap.Ssa.Program
