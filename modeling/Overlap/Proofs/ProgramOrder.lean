/-
  The program order of the instructions of a function.

  * `before_swap`: of two different instructions of a function exactly one is
    before the other, unless their blocks dominate each other;
  * `before_of_not_before`: so at least one is before the other.
-/
import Overlap.Ssa.Flow

namespace Overlap.Ssa

/-- Of two different positions, exactly one precedes the other. -/
theorem Position.before_swap {p q : Position} (hne : p ≠ q) : q.before p = !p.before q := by
  obtain ⟨pf, pl, pc⟩ := p
  obtain ⟨qf, ql, qc⟩ := q
  simp only [ne_eq, Position.mk.injEq] at hne
  rw [Bool.eq_iff_iff, Bool.not_eq_true', Bool.eq_false_iff]
  simp only [before, ne_eq, Bool.or_eq_true, Bool.and_eq_true, decide_eq_true_eq, beq_iff_eq]
  omega

namespace Program

variable {P : Program} {a b : Loc}

/-- The source position of an instruction. -/
def position? (P : Program) (l : Loc) : Option Position := (P.instr? l).bind (·.pos)

theorem positionOrder?_eq (P : Program) (a b : Loc) :
    P.positionOrder? a b = (P.position? a).bind fun pa => (P.position? b).bind fun pb =>
      if pa = pb then none else some (pa.before pb) := by
  unfold positionOrder? position?
  cases P.instr? a <;> cases P.instr? b <;> simp

theorem positionOrder?_swap (P : Program) (a b : Loc) :
    P.positionOrder? b a = (P.positionOrder? a b).map (!·) := by
  rw [positionOrder?_eq, positionOrder?_eq]
  cases P.position? a with
  | none => cases P.position? b <;> rfl
  | some pa =>
    cases P.position? b with
    | none => rfl
    | some pb =>
      by_cases hp : pa = pb
      · simp [hp]
      · simp [hp, Ne.symm hp, Position.before_swap hp]

/-- Where dominance and paths leave the order open, the positions and the numbers of the blocks
    put one instruction first. -/
theorem positionOrder?_getD_swap (hblock : a.block ≠ b.block) :
    (P.positionOrder? b a).getD (b.block < a.block) =
      !(P.positionOrder? a b).getD (a.block < b.block) := by
  rw [positionOrder?_swap]
  cases P.positionOrder? a b with
  | none =>
    rw [Option.map_none, Option.getD_none, Option.getD_none, ← decide_not, decide_eq_decide]
    omega
  | some first => rfl

/-- **Of two different instructions of a function exactly one is before the other**, unless their
    blocks dominate each other. -/
theorem before_swap (hfunc : a.func = b.func) (hab : a ≠ b)
    (hdom : a.block ≠ b.block →
      ¬ (P.dominates a.func a.block b.block ∧ P.dominates a.func b.block a.block)) :
    P.before b a = !P.before a b := by
  unfold before
  rw [if_neg hab, if_neg (Ne.symm hab)]
  by_cases hblock : a.block = b.block
  · have hindex : a.index ≠ b.index := by
      intro hindex
      apply hab
      cases a
      cases b
      simp_all
    rw [if_pos hblock, if_pos hblock.symm, ← decide_not, decide_eq_decide]
    omega
  · rw [if_neg hblock, if_neg (Ne.symm hblock), ← hfunc]
    -- dominance decides first, then paths, then positions; each is looked at from both sides
    cases hforth : P.dominates a.func a.block b.block with
    | true =>
      have hback : ¬ P.dominates a.func b.block a.block := fun hback => hdom hblock ⟨hforth, hback⟩
      simp [hback]
    | false =>
      cases hback : P.dominates a.func b.block a.block with
      | true => simp
      | false =>
        simp only [Bool.false_eq_true, if_false]
        cases P.hasPath a.func a.block b.block <;> cases P.hasPath a.func b.block a.block
        · exact positionOrder?_getD_swap hblock
        · rfl
        · rfl
        · exact positionOrder?_getD_swap hblock

/-- **Of two different instructions of a function, one is before the other.** -/
theorem before_of_not_before (hfunc : a.func = b.func) (hab : a ≠ b)
    (h : P.before a b = false) : P.before b a = true := by
  rw [before_swap hfunc hab, h]
  · rfl
  · -- a block that dominates another one comes first
    rintro hblock ⟨hdom, -⟩
    simp [before, hab, hblock, hdom] at h

end Program

end Overlap.Ssa
