/-
  Dominance between the blocks of a function, and what it means for the order of
  its instructions.

  * `Connected`: control can pass from the entry or the recovery block to every
    block of a function;
  * `dominates_iff`: a block dominates another one if control cannot enter that
    one without having passed the block;
  * `dominates_antisymm`: two blocks dominate each other only if they are the
    same, since the first of them on the way to one of them is not dominated by
    the other;
  * `Connected.before_swap`: so of two different instructions exactly one comes
    first.
-/
import Overlap.Proofs.Components
import Overlap.Proofs.ProgramOrder

namespace Overlap.Ssa

open Graph

namespace Program

variable {P : Program} {f a b : Nat}

/-- The block at which a recovered panic continues. -/
def recoverBlock? (P : Program) (f : Nat) : Option Nat :=
  ((P.function? f).bind (·.body)).bind (·.recover)

/-- Control can pass to every block of `f`, from its entry or its recovery block, and it stays in
    `f`. -/
structure Connected (P : Program) (f : Nat) : Prop where
  succs_lt : ∀ b < (P.blocks f).size, ∀ c ∈ P.succs f b, c < (P.blocks f).size
  recover_lt : ∀ r ∈ P.recoverBlock? f, r < (P.blocks f).size
  entered : ∀ b < (P.blocks f).size, Reaches (P.succs f) 0 b ∨
    ∃ r ∈ P.recoverBlock? f, Reaches (P.succs f) r b

/-- The successors of a block other than `avoid`. -/
def succsAvoiding (P : Program) (f avoid b : Nat) : List Nat :=
  (P.succs f b).filter (· != avoid)

theorem mem_succsAvoiding_iff {c : Nat} : c ∈ P.succsAvoiding f a b ↔ c ∈ P.succs f b ∧ c ≠ a := by
  simp [succsAvoiding]

theorem reaches_of_avoiding {c : Nat} (h : Reaches (P.succsAvoiding f a) b c) :
    Reaches (P.succs f) b c := by
  induction h with
  | refl => exact .refl _
  | step hc _ ih => exact .step (mem_succsAvoiding_iff.1 hc).1 ih

/-- On the way to `a`, control comes to `a` without having passed `b`, or to `b` without having
    passed `a`. -/
theorem reaches_avoiding_or {r : Nat} (hab : a ≠ b) (h : Reaches (P.succs f) r a) :
    r ≠ b ∧ Reaches (P.succsAvoiding f b) r a ∨ r ≠ a ∧ Reaches (P.succsAvoiding f a) r b := by
  induction h with
  | refl r => exact .inl ⟨hab, .refl r⟩
  | @step r c a hc _ ih =>
    by_cases hrb : r = b
    · subst hrb
      exact .inr ⟨hab.symm, .refl r⟩
    by_cases hra : r = a
    · subst hra
      exact .inl ⟨hab, .refl r⟩
    rcases ih hab with ⟨hcb, hreach⟩ | ⟨hca, hreach⟩
    · exact .inl ⟨hrb, .step (mem_succsAvoiding_iff.2 ⟨hc, hcb⟩) hreach⟩
    · exact .inr ⟨hra, .step (mem_succsAvoiding_iff.2 ⟨hc, hca⟩) hreach⟩

namespace Connected

variable (hf : P.Connected f)
include hf

theorem mem_closure_succs_iff (hb : b < (P.blocks f).size) :
    b ∈ Graph.closure (P.blockIds f) (P.succs f) [0] ↔ Reaches (P.succs f) 0 b := by
  rw [Graph.mem_closure_iff]
  · simp
  · exact fun x hx y hy => List.mem_range.2 (hf.succs_lt x (List.mem_range.1 hx) y hy)
  · simpa [blockIds] using Nat.lt_of_le_of_lt (Nat.zero_le b) hb

theorem rootOf_eq_zero (hb : b < (P.blocks f).size) (h : Reaches (P.succs f) 0 b) :
    P.rootOf f b = 0 := by
  unfold rootOf
  rw [if_pos ((hf.mem_closure_succs_iff hb).2 h)]

theorem rootOf_eq_recover (hb : b < (P.blocks f).size) (h : ¬ Reaches (P.succs f) 0 b) :
    ∃ r ∈ P.recoverBlock? f, P.rootOf f b = r ∧ Reaches (P.succs f) r b := by
  obtain ⟨r, hr, hreach⟩ := (hf.entered b hb).resolve_left h
  refine ⟨r, hr, ?_, hreach⟩
  unfold rootOf
  rw [if_neg (mt (hf.mem_closure_succs_iff hb).1 h)]
  have hr : P.recoverBlock? f = some r := hr
  rw [recoverBlock?] at hr
  rw [hr]
  rfl

theorem rootOf_lt (hb : b < (P.blocks f).size) : P.rootOf f b < (P.blocks f).size := by
  by_cases h : Reaches (P.succs f) 0 b
  · rw [hf.rootOf_eq_zero hb h]
    omega
  · obtain ⟨r, hr, hroot, -⟩ := hf.rootOf_eq_recover hb h
    rw [hroot]
    exact hf.recover_lt r hr

/-- **A block dominates another one** if it is the same, or if control cannot come to the other one
    without passing it. -/
theorem dominates_iff (hb : b < (P.blocks f).size) :
    P.dominates f a b ↔ a = b ∨
      ¬ (P.rootOf f b ≠ a ∧ Reaches (P.succsAvoiding f a) (P.rootOf f b) b) := by
  have hmem : b ∈ P.reachableAvoiding f (P.rootOf f b) a ↔
      P.rootOf f b ≠ a ∧ Reaches (P.succsAvoiding f a) (P.rootOf f b) b := by
    unfold reachableAvoiding
    rw [Graph.mem_closure_iff]
    · by_cases hroot : P.rootOf f b = a
      · simp [hroot]
      · simp [hroot]
        rfl
    · intro x hx y hy
      exact List.mem_range.2 (hf.succs_lt x (List.mem_range.1 hx) y (List.mem_filter.1 hy).1)
    · split_ifs
      · simp
      · simpa [blockIds] using hf.rootOf_lt hb
  rw [← hmem]
  simp [dominates]

/-- Of two blocks that control enters at the same place, one does not dominate the other. -/
theorem not_dominates_of_rootOf_eq (ha : a < (P.blocks f).size) (hb : b < (P.blocks f).size)
    (hab : a ≠ b) (hroot : P.rootOf f a = P.rootOf f b)
    (hreach : Reaches (P.succs f) (P.rootOf f a) a) (hdom : P.dominates f a b) :
    ¬ P.dominates f b a := by
  intro hdom'
  have hnot := ((hf.dominates_iff hb).1 hdom).resolve_left hab
  have hnot' := ((hf.dominates_iff ha).1 hdom').resolve_left hab.symm
  rcases reaches_avoiding_or hab hreach with h | h
  · exact hnot' h
  · exact hnot (hroot ▸ h)

/-- A block that control enters only by recovery dominates no other one. -/
theorem not_dominates_of_recovered (ha : a < (P.blocks f).size)
    (ha0 : Reaches (P.succs f) 0 a) (hb0 : ¬ Reaches (P.succs f) 0 b) : ¬ P.dominates f b a := by
  have hab : a ≠ b := by
    rintro rfl
    exact hb0 ha0
  intro hdom
  have hnot := ((hf.dominates_iff ha).1 hdom).resolve_left hab.symm
  rw [hf.rootOf_eq_zero ha ha0] at hnot
  rcases reaches_avoiding_or hab ha0 with h | ⟨-, h⟩
  · exact hnot h
  · exact hb0 (reaches_of_avoiding h)

/-- **Dominance is antisymmetric.** -/
theorem dominates_antisymm (ha : a < (P.blocks f).size) (hb : b < (P.blocks f).size)
    (hdom : P.dominates f a b) (hdom' : P.dominates f b a) : a = b := by
  by_contra hab
  by_cases ha0 : Reaches (P.succs f) 0 a
  · by_cases hb0 : Reaches (P.succs f) 0 b
    · have hroot : P.rootOf f a = 0 := hf.rootOf_eq_zero ha ha0
      refine hf.not_dominates_of_rootOf_eq ha hb hab ?_ (hroot ▸ ha0) hdom hdom'
      rw [hroot, hf.rootOf_eq_zero hb hb0]
    · exact hf.not_dominates_of_recovered ha ha0 hb0 hdom'
  · by_cases hb0 : Reaches (P.succs f) 0 b
    · exact hf.not_dominates_of_recovered hb hb0 ha0 hdom
    · obtain ⟨r, hr, hroot, hreach⟩ := hf.rootOf_eq_recover ha ha0
      obtain ⟨r', hr', hroot', -⟩ := hf.rootOf_eq_recover hb hb0
      obtain rfl : r = r' := Option.mem_unique hr hr'
      exact hf.not_dominates_of_rootOf_eq ha hb hab (hroot.trans hroot'.symm) (hroot ▸ hreach)
        hdom hdom'

end Connected

/-! ## Program order -/

section
variable {a b : Loc}

theorem block_lt_of_instr (h : (P.instr? a).isSome) : a.block < (P.blocks a.func).size := by
  by_contra hlt
  simp [instr?, Array.getElem?_eq_none (Nat.le_of_not_lt hlt)] at h

/-- **Of two different instructions of a function exactly one is before the other.** -/
theorem Connected.before_swap (hf : P.Connected a.func) (hfunc : a.func = b.func)
    (ha : (P.instr? a).isSome) (hb : (P.instr? b).isSome) (hab : a ≠ b) :
    P.before b a = !P.before a b := by
  refine Program.before_swap hfunc hab fun hblock ⟨hdom, hdom'⟩ => hblock ?_
  exact hf.dominates_antisymm (block_lt_of_instr ha) (hfunc ▸ block_lt_of_instr hb) hdom hdom'

end

end Program

end Overlap.Ssa
