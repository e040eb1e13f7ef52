/-
  How far program order is an order.

  Control flow decides the order of two instructions by their place in a block,
  by dominance or by a path in only one direction (`controlBefore`).  What it
  decides is transitive.  The order of all other instructions is that of the
  text: their source positions, or the numbers of their blocks (`textBefore`).
  The two need not agree: what a loop runs after each round stands before its
  body in the text.

  * `dominates_trans` and `controlBefore_trans`: dominance and the order that
    control flow decides are transitive;
  * `before_eq`: control flow decides program order, and the text what is left;
  * `two_le_open_of_cycle`: so a cycle of dependences that all follow program
    order has at least two steps that only the text decides;
  * `before_trans_of_control`: when program order is transitive;
  * `before_cyclic_postStatement`: a loop where it is not.
-/
import Mathlib.Data.List.Permutation
import Overlap.Dependence.Analyzer
import Overlap.Proofs.Paths

namespace Overlap.Ssa

open Graph

theorem Position.before_trans {p q r : Position} (hpq : p.before q) (hqr : q.before r) :
    p.before r := by
  obtain ⟨pf, pl, pc⟩ := p
  obtain ⟨qf, ql, qc⟩ := q
  obtain ⟨rf, rl, rc⟩ := r
  simp only [before, Bool.or_eq_true, Bool.and_eq_true, decide_eq_true_eq, beq_iff_eq] at *
  omega

namespace Program

variable {P : Program} {f : Nat}

/-! ## Dominance -/

section
variable {a b c r : Nat}

/-- On the way to `c` avoiding `a`, control comes to `c` without having passed `b`, or it passes
    `b`. -/
theorem reaches_avoiding_or_through (hcb : c ≠ b) (h : Reaches (P.succsAvoiding f a) r c) :
    r ≠ b ∧ Reaches (P.succsAvoiding f b) r c ∨ Reaches (P.succsAvoiding f a) r b := by
  induction h with
  | refl c => exact .inl ⟨hcb, .refl c⟩
  | @step r d c hd _ ih =>
    by_cases hrb : r = b
    · exact .inr (hrb ▸ .refl r)
    rcases ih hcb with ⟨hdb, h⟩ | h
    · exact .inl ⟨hrb, .step (mem_succsAvoiding_iff.2 ⟨(mem_succsAvoiding_iff.1 hd).1, hdb⟩) h⟩
    · exact .inr (.step hd h)

namespace Connected

variable (hf : P.Connected f)
include hf

/-- Control enters a block where it enters the blocks that dominate it. -/
theorem rootOf_eq_of_dominates (hb : b < (P.blocks f).size) (hc : c < (P.blocks f).size)
    (hbc : b ≠ c) (hdom : P.dominates f b c) : P.rootOf f b = P.rootOf f c := by
  have hpath := hf.path_of_dominates hc hbc hdom
  have hnot := ((hf.dominates_iff hc).1 hdom).resolve_left hbc
  by_cases hc0 : Reaches (P.succs f) 0 c
  · have hroot := hf.rootOf_eq_zero hc hc0
    rw [hroot] at hnot ⊢
    refine hf.rootOf_eq_zero hb ?_
    rcases reaches_avoiding_or hbc.symm hc0 with h | ⟨-, h⟩
    · exact absurd h hnot
    · exact reaches_of_avoiding h
  · have hb0 : ¬ Reaches (P.succs f) 0 b := fun hb0 => hc0 (hb0.trans hpath.reaches)
    obtain ⟨r, hr, hroot, -⟩ := hf.rootOf_eq_recover hb hb0
    obtain ⟨r', hr', hroot', -⟩ := hf.rootOf_eq_recover hc hc0
    rw [hroot, hroot', Option.mem_unique hr hr']

/-- **Dominance is transitive.** -/
theorem dominates_trans (hb : b < (P.blocks f).size) (hc : c < (P.blocks f).size)
    (hab : P.dominates f a b) (hbc : P.dominates f b c) : P.dominates f a c := by
  by_cases hbc' : b = c
  · exact hbc' ▸ hab
  by_cases hab' : a = b
  · exact hab' ▸ hbc
  refine (hf.dominates_iff hc).2 (.inr fun ⟨hroot, hreach⟩ => ?_)
  have hnot := ((hf.dominates_iff hb).1 hab).resolve_left hab'
  have hnot' := ((hf.dominates_iff hc).1 hbc).resolve_left hbc'
  rw [hf.rootOf_eq_of_dominates hb hc hbc' hbc] at hnot
  -- control passes `b` on the way to `c`, and comes there without having passed `a`
  exact hnot ⟨hroot, (reaches_avoiding_or_through (Ne.symm hbc') hreach).resolve_left hnot'⟩

end Connected

end

/-! ## The order that control flow decides -/

/-- Whether control flow puts the instruction at `a` before the one at `b`, both in the same
    function: by their order in a block, by dominance, or by a path in only one direction. -/
def controlBefore (P : Program) (a b : Loc) : Bool :=
  if a.block = b.block then a.index < b.index
  else P.dominates a.func a.block b.block ||
    (P.hasPath a.func a.block b.block && !P.hasPath a.func b.block a.block)

/-- Whether `a` is before `b` in the text: by their source positions, or by the numbers of their
    blocks if the positions do not decide. -/
def textBefore (P : Program) (a b : Loc) : Bool :=
  (P.positionOrder? a b).getD (a.block < b.block)

section
variable {a b c : Loc}

theorem block_lt_of_mem_locs (h : a ∈ P.locs f) : a.block < (P.blocks f).size := by
  obtain ⟨rfl, hinstr⟩ := mem_locs_iff.1 h
  exact block_lt_of_instr hinstr

theorem controlBefore_self (a : Loc) : P.controlBefore a a = false := by simp [controlBefore]

theorem controlBefore_of_block_eq (h : a.block = b.block) :
    P.controlBefore a b ↔ a.index < b.index := by
  simp [controlBefore, h]

namespace Connected

variable (hf : P.Connected f)
include hf

theorem controlBefore_iff (ha : a ∈ P.locs f) (hb : b ∈ P.locs f) (hblock : a.block ≠ b.block) :
    P.controlBefore a b ↔ P.dominates f a.block b.block ∨
      Path (P.succs f) a.block b.block ∧ ¬ Path (P.succs f) b.block a.block := by
  rw [← hf.hasPath_iff (block_lt_of_mem_locs ha), ← hf.hasPath_iff (block_lt_of_mem_locs hb)]
  simp [controlBefore, hblock, (mem_locs_iff.1 ha).1]

theorem path_of_controlBefore (ha : a ∈ P.locs f) (hb : b ∈ P.locs f) (hblock : a.block ≠ b.block)
    (h : P.controlBefore a b) : Path (P.succs f) a.block b.block := by
  rcases (hf.controlBefore_iff ha hb hblock).1 h with hdom | ⟨hpath, -⟩
  · exact hf.path_of_dominates (block_lt_of_mem_locs hb) hblock hdom
  · exact hpath

/-- Control flow does not put two instructions before each other. -/
theorem controlBefore_asymm (ha : a ∈ P.locs f) (hb : b ∈ P.locs f) (h : P.controlBefore a b) :
    ¬ P.controlBefore b a := by
  intro h'
  by_cases hblock : a.block = b.block
  · rw [controlBefore_of_block_eq hblock] at h
    rw [controlBefore_of_block_eq hblock.symm] at h'
    omega
  have hpath := hf.path_of_controlBefore ha hb hblock h
  have hpath' := hf.path_of_controlBefore hb ha (Ne.symm hblock) h'
  rcases (hf.controlBefore_iff ha hb hblock).1 h with hdom | ⟨-, hnot⟩
  · rcases (hf.controlBefore_iff hb ha (Ne.symm hblock)).1 h' with hdom' | ⟨-, hnot⟩
    · exact hblock (hf.dominates_antisymm (block_lt_of_mem_locs ha) (block_lt_of_mem_locs hb)
        hdom hdom')
    · exact hnot hpath
  · exact hnot hpath'

/-- **What control flow decides is transitive.** -/
theorem controlBefore_trans (ha : a ∈ P.locs f) (hb : b ∈ P.locs f) (hc : c ∈ P.locs f)
    (hab : P.controlBefore a b) (hbc : P.controlBefore b c) : P.controlBefore a c := by
  by_cases hab' : a.block = b.block
  · by_cases hbc' : b.block = c.block
    · rw [controlBefore_of_block_eq hab'] at hab
      rw [controlBefore_of_block_eq hbc'] at hbc
      rw [controlBefore_of_block_eq (hab'.trans hbc')]
      exact Nat.lt_trans hab hbc
    · -- the block of `a` is that of `b`
      rw [hf.controlBefore_iff hb hc hbc', ← hab'] at hbc
      exact (hf.controlBefore_iff ha hc (hab' ▸ hbc')).2 hbc
  by_cases hbc' : b.block = c.block
  · rw [hf.controlBefore_iff ha hb hab', hbc'] at hab
    exact (hf.controlBefore_iff ha hc (hbc' ▸ hab')).2 hab
  have hpath := hf.path_of_controlBefore ha hb hab' hab
  have hpath' := hf.path_of_controlBefore hb hc hbc' hbc
  have hac : a.block ≠ c.block := by
    intro hac
    refine hf.controlBefore_asymm hb hc hbc ?_
    rw [hf.controlBefore_iff ha hb hab', hac] at hab
    exact (hf.controlBefore_iff hc hb (Ne.symm hbc')).2 hab
  refine (hf.controlBefore_iff ha hc hac).2 ?_
  -- two dominances make one, and a way back from `c` to `a` would be one for both steps
  rcases (hf.controlBefore_iff ha hb hab').1 hab with hdom | ⟨-, hnot⟩
  · rcases (hf.controlBefore_iff hb hc hbc').1 hbc with hdom' | ⟨-, hnot⟩
    · exact .inl (hf.dominates_trans (block_lt_of_mem_locs hb) (block_lt_of_mem_locs hc) hdom hdom')
    · exact .inr ⟨hpath.trans_reaches hpath'.reaches, fun hback =>
        hnot (hback.trans_reaches hpath.reaches)⟩
  · exact .inr ⟨hpath.trans_reaches hpath'.reaches, fun hback =>
      hnot (hpath'.trans_reaches hback.reaches)⟩

/-- **Program order** is what control flow decides, and the order of the text where it decides
    neither way. -/
theorem before_eq (ha : a ∈ P.locs f) (hb : b ∈ P.locs f) :
    P.before a b = (P.controlBefore a b || !P.controlBefore b a && P.textBefore a b) := by
  by_cases hab : a = b
  · subst hab
    have htext : P.textBefore a a = false := by
      unfold textBefore
      rw [positionOrder?_eq]
      cases P.position? a <;> simp
    simp [before, controlBefore_self, htext]
  obtain rfl : a.func = f := (mem_locs_iff.1 ha).1
  have hfunc : b.func = a.func := (mem_locs_iff.1 hb).1
  by_cases hblock : a.block = b.block
  · have hindex : a.index ≠ b.index := by
      intro hindex
      apply hab
      cases a
      cases b
      simp_all
    unfold before controlBefore
    rw [if_neg hab, if_pos hblock, if_pos hblock, if_pos hblock.symm]
    by_cases hlt : a.index < b.index
    · simp [hlt]
    · have hlt' : b.index < a.index := by omega
      simp [hlt, hlt']
  · unfold before
    rw [if_neg hab, if_neg hblock]
    by_cases hdom : P.dominates a.func a.block b.block
    · simp [controlBefore, hblock, hdom]
    by_cases hdom' : P.dominates a.func b.block a.block
    · -- control passes from the block of `b` to that of `a`, so there is no path in only one
      -- direction from `a` to `b`
      have hpath : P.hasPath a.func b.block a.block :=
        (hf.hasPath_iff (block_lt_of_mem_locs hb)).2
          (hf.path_of_dominates (block_lt_of_mem_locs ha) (Ne.symm hblock) hdom')
      simp [controlBefore, hblock, Ne.symm hblock, hfunc, hdom, hdom', hpath]
    · cases hforth : P.hasPath a.func a.block b.block <;>
        cases hback : P.hasPath a.func b.block a.block <;>
        simp [controlBefore, textBefore, hblock, Ne.symm hblock, hfunc, hdom, hdom', hforth, hback]

theorem before_of_controlBefore (ha : a ∈ P.locs f) (hb : b ∈ P.locs f)
    (h : P.controlBefore a b) : P.before a b := by
  rw [hf.before_eq ha hb, h]
  rfl

/-- Two instructions are not before each other. -/
theorem before_asymm (ha : a ∈ P.locs f) (hb : b ∈ P.locs f) (h : P.before a b) :
    ¬ P.before b a := by
  by_cases hab : a = b
  · simp [hab, before] at h
  obtain ⟨rfl, hinstr⟩ := mem_locs_iff.1 ha
  obtain ⟨hfunc, hinstr'⟩ := mem_locs_iff.1 hb
  rw [hf.before_swap hfunc.symm hinstr hinstr' hab, h]
  simp

end Connected

end

/-! ## Cycles of dependences -/

/-- A walk along dependences from a place to another one. -/
inductive Walk : Loc → List Dependence.Edge → Loc → Prop where
  | nil (a : Loc) : Walk a [] a
  | cons (e : Dependence.Edge) {es : List Dependence.Edge} {b : Loc} :
      Walk e.target es b → Walk e.source (e :: es) b

/-- A dependence between two instructions of `f` that follows program order. -/
def Directed (P : Program) (f : Nat) (e : Dependence.Edge) : Prop :=
  e.source ∈ P.locs f ∧ e.target ∈ P.locs f ∧ P.before e.source e.target

/-- The number of dependences whose direction only the text decides. -/
def openSteps (P : Program) (es : List Dependence.Edge) : Nat :=
  es.countP fun e => !P.controlBefore e.source e.target

/-- `a` is `b`, or control flow puts it before `b`. -/
def ControlLe (P : Program) (a b : Loc) : Prop := a = b ∨ P.controlBefore a b

section
variable {a b c : Loc} {es : List Dependence.Edge}

namespace Connected

variable (hf : P.Connected f)
include hf

theorem controlLe_trans (ha : a ∈ P.locs f) (hb : b ∈ P.locs f) (hc : c ∈ P.locs f)
    (hab : P.ControlLe a b) (hbc : P.ControlLe b c) : P.ControlLe a c := by
  rcases hab with rfl | hab
  · exact hbc
  rcases hbc with rfl | hbc
  · exact .inr hab
  · exact .inr (hf.controlBefore_trans ha hb hc hab hbc)

/-- A walk of which control flow decides all steps leads from an instruction to a later one. -/
theorem controlLe_of_walk (hwalk : Walk a es b) (hes : ∀ e ∈ es, P.Directed f e)
    (hb : b ∈ P.locs f) (hopen : P.openSteps es = 0) :
    P.ControlLe a b ∧ (es ≠ [] → P.controlBefore a b) := by
  induction hwalk with
  | nil a => exact ⟨.inl rfl, fun h => absurd rfl h⟩
  | @cons e es b hwalk ih =>
    obtain ⟨hsource, htarget, -⟩ := hes e (List.mem_cons_self ..)
    have hdecided : P.controlBefore e.source e.target := by
      have := List.countP_eq_zero.1 hopen e (List.mem_cons_self ..)
      simpa using this
    have hrest := ih (fun d hd => hes d (List.mem_cons_of_mem _ hd)) hb
      (List.countP_eq_zero.2 fun d hd => List.countP_eq_zero.1 hopen d (List.mem_cons_of_mem _ hd))
    have hlater : P.controlBefore e.source b := by
      rcases hrest.1 with heq | h
      · exact heq ▸ hdecided
      · exact hf.controlBefore_trans hsource htarget hb hdecided h
    exact ⟨.inr hlater, fun _ => hlater⟩

/-- A walk with one step that only the text decides: what is before it and what is after it are
    each one step of control flow. -/
theorem exists_open_of_walk (hwalk : Walk a es b) (hes : ∀ e ∈ es, P.Directed f e)
    (hb : b ∈ P.locs f) (hopen : P.openSteps es = 1) :
    ∃ e ∈ es, P.ControlLe a e.source ∧ P.ControlLe e.target b := by
  induction hwalk with
  | nil a => cases hopen
  | @cons e es b hwalk ih =>
    obtain ⟨hsource, htarget, -⟩ := hes e (List.mem_cons_self ..)
    have hes' : ∀ d ∈ es, P.Directed f d := fun d hd => hes d (List.mem_cons_of_mem _ hd)
    unfold openSteps at hopen
    rw [List.countP_cons] at hopen
    by_cases hdecided : P.controlBefore e.source e.target
    · obtain ⟨d, hd, hbefore, hafter⟩ := ih hes' hb (by simpa [openSteps, hdecided] using hopen)
      refine ⟨d, List.mem_cons_of_mem _ hd, ?_, hafter⟩
      exact hf.controlLe_trans hsource htarget (hes' d hd).1 (.inr hdecided) hbefore
    · refine ⟨e, List.mem_cons_self .., .inl rfl, ?_⟩
      exact (hf.controlLe_of_walk hwalk hes' hb (by simpa [openSteps, hdecided] using hopen)).1

/-- **A cycle of dependences has two open steps.** If all dependences of a cycle follow program
    order, then at least two of them are between instructions whose order only the text decides. -/
theorem two_le_open_of_cycle (hwalk : Walk a es a) (hne : es ≠ [])
    (hes : ∀ e ∈ es, P.Directed f e) : 2 ≤ P.openSteps es := by
  have ha : a ∈ P.locs f := by
    cases hwalk with
    | nil => exact absurd rfl hne
    | cons => exact (hes _ (List.mem_cons_self ..)).1
  by_contra hlt
  obtain hopen | hopen : P.openSteps es = 0 ∨ P.openSteps es = 1 := by omega
  · have hself := (hf.controlLe_of_walk hwalk hes ha hopen).2 hne
    simp [controlBefore_self] at hself
  · obtain ⟨e, he, hbefore, hafter⟩ := hf.exists_open_of_walk hwalk hes ha hopen
    obtain ⟨hsource, htarget, hdirected⟩ := hes e he
    -- control flow leads from the end of the open step back to its start
    rcases hf.controlLe_trans htarget ha hsource hafter hbefore with heq | hback
    · simp [heq, before] at hdirected
    · exact hf.before_asymm hsource htarget hdirected
        (hf.before_of_controlBefore htarget hsource hback)

end Connected

end

/-! ## Texts that follow control flow -/

/-- The text follows control flow at the places of `s`: their positions are known and differ between
    blocks, and control flow never puts one before another that comes first in the text. -/
structure TextFollows (P : Program) (s : List Loc) : Prop where
  known : ∀ a ∈ s, (P.position? a).isSome
  distinct : ∀ a ∈ s, ∀ b ∈ s, a.block ≠ b.block → P.position? a ≠ P.position? b
  follows : ∀ a ∈ s, ∀ b ∈ s, P.controlBefore a b → P.textBefore a b

namespace TextFollows

variable {s : List Loc} {a b c : Loc} (hs : P.TextFollows s)
include hs

theorem textBefore_iff (ha : a ∈ s) (hb : b ∈ s) :
    P.textBefore a b ↔ ∃ p ∈ P.position? a, ∃ q ∈ P.position? b, p.before q := by
  obtain ⟨p, hp⟩ := Option.isSome_iff_exists.1 (hs.known a ha)
  obtain ⟨q, hq⟩ := Option.isSome_iff_exists.1 (hs.known b hb)
  have horder : P.positionOrder? a b = if p = q then none else some (p.before q) := by
    rw [positionOrder?_eq, hp, hq]
    rfl
  unfold textBefore
  rw [horder, hp, hq]
  by_cases hpq : p = q
  · -- then both are in the same block, and neither is first
    have hblock : a.block = b.block := by
      by_contra hblock
      exact hs.distinct a ha b hb hblock (by rw [hp, hq, hpq])
    simp [hpq, hblock, Position.before]
  · simp [hpq]

theorem textBefore_trans (ha : a ∈ s) (hb : b ∈ s) (hc : c ∈ s) (hab : P.textBefore a b)
    (hbc : P.textBefore b c) : P.textBefore a c := by
  obtain ⟨p, hp, q, hq, hpq⟩ := (hs.textBefore_iff ha hb).1 hab
  obtain ⟨q', hq', r, hr, hqr⟩ := (hs.textBefore_iff hb hc).1 hbc
  obtain rfl : q = q' := Option.mem_unique hq hq'
  exact (hs.textBefore_iff ha hc).2 ⟨p, hp, r, hr, Position.before_trans hpq hqr⟩

theorem not_textBefore_self (ha : a ∈ s) : ¬ P.textBefore a a := by
  intro h
  obtain ⟨p, hp, q, hq, hpq⟩ := (hs.textBefore_iff ha ha).1 h
  obtain rfl : p = q := Option.mem_unique hp hq
  simp [Position.before] at hpq

/-- Where the text follows control flow, program order is that of the text. -/
theorem before_iff (hf : P.Connected f) (hsub : s ⊆ P.locs f) (ha : a ∈ s) (hb : b ∈ s) :
    P.before a b ↔ P.textBefore a b := by
  rw [hf.before_eq (hsub ha) (hsub hb)]
  simp only [Bool.or_eq_true, Bool.and_eq_true, Bool.not_eq_true']
  constructor
  · rintro (h | ⟨-, h⟩)
    · exact hs.follows a ha b hb h
    · exact h
  · intro h
    refine .inr ⟨Bool.eq_false_iff.2 fun hback => ?_, h⟩
    exact hs.not_textBefore_self ha (hs.textBefore_trans ha hb ha h (hs.follows b hb a ha hback))

end TextFollows

/-! ## Main statements -/

/-- Whether control flow decides the order of two instructions. -/
def decided (P : Program) (a b : Loc) : Bool := P.controlBefore a b || P.controlBefore b a

/-- Three instructions are in order if control flow decides the order of all but one pair of
    them. -/
theorem Connected.before_trans (hf : P.Connected f) {a b c : Loc} (ha : a ∈ P.locs f)
    (hb : b ∈ P.locs f) (hc : c ∈ P.locs f) (hab : P.before a b) (hbc : P.before b c)
    (hopen : [(a, b), (b, c), (c, a)].countP (fun p => !P.decided p.1 p.2) ≤ 1) :
    P.before a c := by
  by_contra hac
  have hne : a ≠ c := by
    rintro rfl
    exact hf.before_asymm ha hb hab hbc
  have hca : P.before c a := by
    have hfunc : a.func = c.func := (mem_locs_iff.1 ha).1.trans (mem_locs_iff.1 hc).1.symm
    exact before_of_not_before hfunc hne (by simpa using hac)
  -- the three would be a cycle
  let step (a b : Loc) : Dependence.Edge := ⟨.flow, a, b, "", ""⟩
  have hwalk : Walk a [step a b, step b c, step c a] a :=
    .cons (step a b) (.cons (step b c) (.cons (step c a) (.nil a)))
  have hdirected : ∀ e ∈ [step a b, step b c, step c a], P.Directed f e := by
    simp only [List.forall_mem_cons, List.not_mem_nil, false_implies, implies_true, and_true]
    exact ⟨⟨ha, hb, hab⟩, ⟨hb, hc, hbc⟩, ⟨hc, ha, hca⟩⟩
  have htwo := hf.two_le_open_of_cycle hwalk (by simp) hdirected
  have hdecided : ∀ {x y}, x ∈ P.locs f → y ∈ P.locs f → P.before x y →
      P.decided x y = P.controlBefore x y := by
    intro x y hx hy hxy
    have hback : P.controlBefore y x = false := Bool.eq_false_iff.2 fun h =>
      hf.before_asymm hx hy hxy (hf.before_of_controlBefore hy hx h)
    simp [decided, hback]
  have hsteps : P.openSteps [step a b, step b c, step c a] =
      [(a, b), (b, c), (c, a)].countP (fun p => !P.decided p.1 p.2) := by
    simp only [openSteps, step, List.countP_cons, List.countP_nil, hdecided ha hb hab,
      hdecided hb hc hbc, hdecided hc ha hca]
  omega

/-- **When program order is transitive.** In a function all of whose blocks control can enter, of two
    different instructions exactly one is before the other, and what control flow decides is a
    strict order that program order contains. If `a` is before `b` and
    `b` before `c`, then `a` is before `c` if control flow decides the order of two of the three
    pairs, and also if the text follows control flow at the three places. So dependences that
    follow program order form a cycle only with at least two steps between instructions whose order
    only the text decides. -/
theorem before_trans_of_control (P : Program) (f : Nat) (hf : P.Connected f) {a b c : Loc}
    (ha : a ∈ P.locs f) (hb : b ∈ P.locs f) (hc : c ∈ P.locs f) :
    (a ≠ b → (P.before a b ↔ ¬ P.before b a)) ∧
      (P.controlBefore a b → P.before a b ∧ ¬ P.controlBefore b a) ∧
      (P.controlBefore a b → P.controlBefore b c → P.controlBefore a c) ∧
      (P.before a b → P.before b c →
        [(a, b), (b, c), (c, a)].countP (fun p => !P.decided p.1 p.2) ≤ 1 → P.before a c) ∧
      (P.before a b → P.before b c → P.TextFollows [a, b, c] → P.before a c) ∧
      ∀ es, Walk a es a → es ≠ [] → (∀ e ∈ es, P.Directed f e) → 2 ≤ P.openSteps es := by
  obtain ⟨hfa, hia⟩ := mem_locs_iff.1 ha
  obtain ⟨hfb, hib⟩ := mem_locs_iff.1 hb
  refine ⟨fun hne => ?_, fun h => ?_, hf.controlBefore_trans ha hb hc, hf.before_trans ha hb hc,
    fun hab hbc hs => ?_, fun es hwalk hne hes => hf.two_le_open_of_cycle hwalk hne hes⟩
  · have hswap := Connected.before_swap (hfa.symm ▸ hf) (hfa.trans hfb.symm) hia hib hne
    simp [hswap]
  · exact ⟨hf.before_of_controlBefore ha hb h, hf.controlBefore_asymm ha hb h⟩
  · have hsub : [a, b, c] ⊆ P.locs f := by simp [ha, hb, hc]
    have hiff : ∀ {x y}, x ∈ [a, b, c] → y ∈ [a, b, c] → (P.before x y ↔ P.textBefore x y) :=
      fun hx hy => hs.before_iff hf hsub hx hy
    have ha' : a ∈ [a, b, c] := by simp
    have hb' : b ∈ [a, b, c] := by simp
    have hc' : c ∈ [a, b, c] := by simp
    rw [hiff ha' hb'] at hab
    rw [hiff hb' hc'] at hbc
    exact (hiff ha' hc').2 (hs.textBefore_trans ha' hb' hc' hab hbc)

/-! ## A loop with a post statement -/

/-- A loop that calls `next` after each round; its body calls `skip` in some rounds, and then `work`.
    In the text `next` stands before the body. -/
def postStatement : Program :=
  let access (read write : Nat) : Array Instr :=
    #[⟨.unary .load (.global read) false, some ⟨0, .basic "int"⟩, none⟩,
      ⟨.store (.global write) (.result ⟨read + 1, 0, 0⟩), none, none⟩, ⟨.ret [], none, none⟩]
  let jump : Instr := ⟨.jump, none, none⟩
  let flag (register g block : Nat) : Array Instr :=
    #[⟨.unary .load (.global g) false, some ⟨register, .basic "bool"⟩, none⟩,
      ⟨.branch (.result ⟨0, block, 0⟩), none, none⟩]
  let callAt (register f : Nat) (line column : Int) : Instr :=
    { callTo register f [] with pos := some ⟨0, line, column⟩ }
  smallProgram #[⟨"first", some 0, .pointer (.basic "int")⟩, ⟨"second", some 0, .pointer (.basic "int")⟩,
      ⟨"third", some 0, .pointer (.basic "int")⟩, ⟨"run", some 0, .pointer (.basic "bool")⟩,
      ⟨"odd", some 0, .pointer (.basic "bool")⟩] #[
    { straightLine "main" #[] #[] with
      body := some ⟨#[⟨#[jump], [3], "entry"⟩, ⟨flag 0 4 1, [5, 6], "for.body"⟩,
        ⟨#[⟨.ret [], none, none⟩], [], "for.done"⟩, ⟨flag 1 3 3, [1, 2], "for.loop"⟩,
        ⟨#[callAt 2 1 8 17, jump], [3], "for.post"⟩, ⟨#[callAt 3 2 10 8, jump], [6], "if.then"⟩,
        ⟨#[callAt 4 3 12 7, jump], [4], "if.done"⟩], none⟩ },
    straightLine "next" #[] (access 0 1), straightLine "skip" #[] (access 1 2),
    straightLine "work" #[] (access 2 0)]

theorem connected_postStatement : postStatement.Connected 0 where
  succs_lt := by decide
  recover_lt r hr := by cases hr
  entered b hb := by
    -- the condition leads to the end and to the body, whose second part ends each round
    have hcond : Reaches (postStatement.succs 0) 0 3 := .of_mem (by decide)
    have hbody : Reaches (postStatement.succs 0) 0 1 := hcond.tail (by decide)
    have hdone : Reaches (postStatement.succs 0) 0 6 := hbody.tail (by decide)
    match b, hb with
    | 0, _ => exact .inl (.refl 0)
    | 1, _ => exact .inl hbody
    | 2, _ => exact .inl (hcond.tail (by decide))
    | 3, _ => exact .inl hcond
    | 4, _ => exact .inl (hdone.tail (by decide))
    | 5, _ => exact .inl (hbody.tail (by decide))
    | 6, _ => exact .inl hdone
    | b + 7, hb =>
      have hb : b + 7 < 7 := hb
      omega

/-- The condition of the loop dominates the calls of `next` and `skip`, and comes before `skip` since
    it does before `next`; so `skip` does not come before it. The cycle of the three calls has two
    steps that only the text decides. -/
theorem before_trans_of_control_postStatement :
    let cond : Loc := ⟨0, 3, 1⟩
    let next : Loc := ⟨0, 4, 0⟩
    let skip : Loc := ⟨0, 5, 0⟩
    let work : Loc := ⟨0, 6, 0⟩
    let step (a b : Loc) : Dependence.Edge := ⟨.flow, a, b, "", ""⟩
    postStatement.Connected 0 ∧ cond ∈ postStatement.locs 0 ∧ next ∈ postStatement.locs 0 ∧
      skip ∈ postStatement.locs 0 ∧ work ∈ postStatement.locs 0 ∧ postStatement.before cond skip ∧
      ¬ postStatement.before skip cond ∧
      2 ≤ postStatement.openSteps [step work next, step next skip, step skip work] := by
  intro cond next skip work step
  have hcond : cond ∈ postStatement.locs 0 := by decide
  have hnext : next ∈ postStatement.locs 0 := by decide
  have hskip : skip ∈ postStatement.locs 0 := by decide
  have hwork : work ∈ postStatement.locs 0 := by decide
  have hnextskip : postStatement.before next skip = true := by cbv
  have hcondskip : postStatement.before cond skip := by
    have htrans := (before_trans_of_control _ 0 connected_postStatement hcond hnext hskip).2.2.2.1
    exact htrans (by cbv) hnextskip (by cbv)
  refine ⟨connected_postStatement, hcond, hnext, hskip, hwork, hcondskip, ?_, ?_⟩
  · have hone := (before_trans_of_control _ 0 connected_postStatement hcond hskip hwork).1
    exact (hone (by decide)).1 hcondskip
  · have hcycle :=
      (before_trans_of_control _ 0 connected_postStatement hwork hnext hskip).2.2.2.2.2
    refine hcycle _ (.cons (step work next) (.cons (step next skip) (.cons (step skip work)
      (.nil work)))) (by simp) ?_
    simp only [List.forall_mem_cons, List.not_mem_nil, false_implies, implies_true, and_true]
    exact ⟨⟨hwork, hnext, by cbv⟩, ⟨hnext, hskip, hnextskip⟩, ⟨hskip, hwork, by cbv⟩⟩

/-- **Program order can be cyclic.** The call of `work` dominates that of `next`, which stands before
    the call of `skip` in the text, as that does before the call of `work`. So `work` is before
    `next` and `next` before `skip`, but `work` is not before `skip`; and if each of them reads
    what the one before it writes, their dependences form a cycle. -/
theorem before_cyclic_postStatement :
    let next : Loc := ⟨0, 4, 0⟩
    let skip : Loc := ⟨0, 5, 0⟩
    let work : Loc := ⟨0, 6, 0⟩
    let flow (a b : Loc) (g : String) : Dependence.Edge := ⟨.flow, a, b, g, g⟩
    postStatement.Connected 0 ∧ postStatement.callSites 0 = [next, skip, work] ∧
      postStatement.before work next ∧ postStatement.before next skip ∧
      ¬ postStatement.before work skip ∧
      conflict? postStatement next work .readOnly .writeOnly "first" "first" =
        some (flow work next "first") ∧
      conflict? postStatement next skip .writeOnly .readOnly "second" "second" =
        some (flow next skip "second") ∧
      conflict? postStatement skip work .writeOnly .readOnly "third" "third" =
        some (flow skip work "third") ∧
      Walk work [flow work next "first", flow next skip "second", flow skip work "third"] work := by
  intro next skip work flow
  have hworknext : postStatement.before work next = true := by cbv
  have hnextskip : postStatement.before next skip = true := by cbv
  have hworkskip : postStatement.before work skip = false := by cbv
  have hnextwork : postStatement.before next work = false := by cbv
  have hskipwork : postStatement.before skip work = true := by cbv
  refine ⟨connected_postStatement, by decide, hworknext, hnextskip, by simp [hworkskip],
    ?_, ?_, ?_, ?_⟩
  · simp [conflict?, flow, hnextwork, Effect.readOnly, Effect.writeOnly]
  · simp [conflict?, flow, hnextskip, Effect.readOnly, Effect.writeOnly]
  · simp [conflict?, flow, hskipwork, Effect.readOnly, Effect.writeOnly]
  · exact .cons (flow work next "first") (.cons (flow next skip "second")
      (.cons (flow skip work "third") (.nil work)))

end Program

end Overlap.Ssa
