/-
  Chains of definitions and uses.

  * `OnChain`: the instructions on the chains from a definition, with whether a
    branch has been passed, as the least set with its uses that is closed under
    the three ways in which a chain goes on;
  * `Search.Adds`: a search comes from another one by meeting some items, and
    each function of the search is described by what it adds;
  * `Search.Invariant`: what a search has met is on chains, and it is closed but
    for what is on the stack.  One step keeps this (`Invariant.step`), so a
    search that ends without the target has met all chains;
  * `reaches_iff_reached`: a definition reaches the target if and only if the
    target is on a chain after a branch or in a block that a branch on a chain
    leads to, whatever the schedule.
-/
import Overlap.DefUse
import Overlap.Proofs.Program
import Overlap.Proofs.Reach

namespace Overlap

open Ssa Graph

/-- Whether control leaves a block at an instruction for another block. -/
def Ssa.Op.leaves : Op → Bool
  | .jump | .branch _ => true
  | _ => false

/-- Control passes on from a block only through a jump or a branch at its end. -/
def Ssa.Program.JumpsAtEnds (P : Program) : Prop :=
  ∀ fn ∈ P.functions, ∀ block ∈ fn.blocks, block.succs ≠ [] →
    block.instrs.back?.any (·.op.leaves)

instance (P : Program) : Decidable P.JumpsAtEnds :=
  inferInstanceAs (Decidable (∀ fn ∈ P.functions, ∀ block ∈ fn.blocks, block.succs ≠ [] →
    block.instrs.back?.any (·.op.leaves)))

namespace DefUse

/-! ## Chains -/

section
variable (P : Program) (target : Loc)

/-- The instruction at `u` has `v` as an operand, and it is where the uses of `v` are known: for a
    global this is the function of the target, and constants and builtins have no known uses. -/
def IsUse (v : Value) (u : Loc) : Prop :=
  (∃ op, P.op? u = some op ∧ v ∈ op.operands) ∧ match v with
    | .result l => u.func = l.func
    | .param f _ | .freeVar f _ => u.func = f
    | .global _ => u.func = target.func
    | .function f => (P.function? f).any (·.parent.isSome)
    | .builtin _ | .const _ => False

/-- The value that a store or a phi carries on: its address, or itself. -/
def Carries (l : Loc) (v : Value) : Prop :=
  match P.op? l with
  | some (.store addr _) => v = addr
  | some (.phi ..) => v = .result l
  | _ => False

/-- The instructions on the chains from a definition, with whether a branch has been passed. -/
inductive OnChain (definition : Value) (viaBranch : Bool) : Loc → Bool → Prop where
  | use {u : Loc} : IsUse P target definition u → OnChain definition viaBranch u viaBranch
  | store {l u : Loc} {flag : Bool} {addr val : Value} :
      OnChain definition viaBranch l flag → P.op? l = some (.store addr val) →
      IsUse P target addr u → OnChain definition viaBranch u flag
  | branch {l k u : Loc} {flag : Bool} {cond v : Value} {b : Nat} :
      OnChain definition viaBranch l flag → P.op? l = some (.branch cond) →
      Path (P.succs l.func) l.block b → k ∈ P.blockLocs l.func b → Carries P k v →
      IsUse P target v u → OnChain definition viaBranch u true
  | value {l u : Loc} {flag : Bool} :
      OnChain definition viaBranch l flag → l ≠ target → P.isValue l →
      (∀ addr val, P.op? l ≠ some (.store addr val)) → (∀ cond, P.op? l ≠ some (.branch cond)) →
      IsUse P target (.result l) u → OnChain definition viaBranch u flag

/-- A branch on a chain leads to the block `b` of `f`. -/
def LedTo (definition : Value) (viaBranch : Bool) (f b : Nat) : Prop :=
  ∃ l flag cond, OnChain P target definition viaBranch l flag ∧ P.op? l = some (.branch cond) ∧
    l.func = f ∧ Path (P.succs f) l.block b

/-- The target is on a chain after a branch, or in a block that a branch on a chain leads to. -/
def Reached (definition : Value) (viaBranch : Bool) : Prop :=
  OnChain P target definition viaBranch target true ∨
    LedTo P target definition viaBranch target.func target.block

/-- Control may leave a block at `l`. -/
def Leaves (l : Loc) : Prop := (P.op? l).any (·.leaves)

/-- An item of the uses of what is carried on in the block `b` of `f`. -/
def CarriedBy (f b : Nat) (i : Item) : Prop :=
  i.2 = true ∧ ∃ l ∈ P.blockLocs f b, ∃ v, Carries P l v ∧ IsUse P target v i.1

end

variable {σ : Schedule} {P : Program} {target : Loc}

theorem mem_uses_iff {v : Value} {u : Loc} : u ∈ uses P target v ↔ IsUse P target v u := by
  have hoccurrences : ∀ {f}, u ∈ P.occurrences f v ↔
      (∃ op, P.op? u = some op ∧ v ∈ op.operands) ∧ u.func = f := by
    intro f
    rw [Program.mem_occurrences_iff, and_comm]
    refine and_congr_right ?_
    rintro ⟨op, hop, -⟩
    refine ⟨fun h => (Program.mem_locs_iff.1 h).1, ?_⟩
    rintro rfl
    exact Program.mem_locs_of_op hop
  cases v with
  | result l => exact hoccurrences
  | param f i => exact hoccurrences
  | freeVar f i => exact hoccurrences
  | global g =>
    simp only [uses, Program.operandUses, IsUse, List.mem_filter, Program.mem_locs_iff]
    cases hi : P.instr? u with
    | none => simp [Program.op?, hi]
    | some i => simp [Program.op?, hi, and_comm]
  | function f =>
    simp only [uses, Program.referrers, IsUse]
    split
    · rename_i hclosure
      simp only [List.mem_flatMap, List.mem_range, hoccurrences, hclosure, and_true]
      constructor
      · rintro ⟨g, -, h, -⟩
        exact h
      · rintro ⟨op, hop, hv⟩
        obtain ⟨fn, hfn⟩ := Program.exists_function_of_op hop
        exact ⟨u.func, (Array.getElem?_eq_some_iff.1 hfn).1, ⟨op, hop, hv⟩, rfl⟩
    · rename_i hclosure
      simp [hclosure]
  | builtin name => simp [uses, Program.referrers, IsUse]
  | const c => simp [uses, Program.referrers, IsUse]

/-- A block with successors has an instruction through which control leaves it. -/
theorem exists_leaves (hP : P.JumpsAtEnds) {f b b' : Nat} (hb : b' ∈ P.succs f b) :
    ∃ l ∈ P.blockLocs f b, Leaves P l := by
  unfold Program.succs at hb
  cases hblock : (P.blocks f)[b]? with
  | none => simp [hblock] at hb
  | some block =>
    have hsuccs : block.succs ≠ [] := by
      intro h
      simp [hblock, h] at hb
    have hlast : block.instrs.back?.any (·.op.leaves) := by
      cases hf : P.function? f with
      | none => simp [Program.blocks, hf] at hblock
      | some fn =>
        have hmem : block ∈ fn.blocks := by
          simp only [Program.blocks, hf, Option.map_some, Option.getD_some] at hblock
          exact Array.mem_of_getElem? hblock
        exact hP fn (Array.mem_of_getElem? hf) block hmem hsuccs
    rw [Array.back?_eq_getElem?] at hlast
    have hinstr : P.instr? ⟨f, b, block.instrs.size - 1⟩ =
        block.instrs[block.instrs.size - 1]? := by
      simp [Program.instr?, hblock]
    have hleaves : Leaves P ⟨f, b, block.instrs.size - 1⟩ := by
      rw [Leaves, Program.op?, hinstr, Option.any_map]
      exact hlast
    refine ⟨_, Program.mem_blockLocs_iff.2 ⟨rfl, rfl, ?_⟩, hleaves⟩
    rw [hinstr]
    exact Option.isSome_of_any hlast

namespace Search

/-! ## What a search meets -/

/-- The search `s'` comes from `s` by meeting the items with the property `new`. -/
structure Adds (s s' : Search) (new : Item → Prop) : Prop where
  mem_visited_iff : ∀ i, i ∈ s'.visited ↔ i ∈ s.visited ∨ new i
  mem_stack_iff : ∀ i, i ∈ s'.stack ↔ i ∈ s.stack ∨ new i ∧ i ∉ s.visited

variable {s s' s'' : Search} {p q : Item → Prop}

theorem Adds.none (s : Search) : Adds s s fun _ => False := ⟨by simp, by simp⟩

theorem Adds.trans (h : Adds s s' p) (h' : Adds s' s'' q) : Adds s s'' fun i => p i ∨ q i := by
  constructor
  · intro i
    rw [h'.mem_visited_iff, h.mem_visited_iff, or_assoc]
  · intro i
    rw [h'.mem_stack_iff, h.mem_stack_iff, h.mem_visited_iff]
    tauto

theorem Adds.congr (h : Adds s s' p) (hpq : ∀ i, p i ↔ q i) : Adds s s' q := by
  obtain rfl : p = q := funext fun i => propext (hpq i)
  exact h

theorem push_adds (s : Search) (item : Item) : Adds s (s.push item) (· = item) := by
  unfold push
  split_ifs with hitem
  · constructor
    · intro i
      refine ⟨.inl, ?_⟩
      rintro (hi | rfl)
      · exact hi
      · exact hitem
    · intro i
      refine ⟨.inl, ?_⟩
      rintro (hi | ⟨rfl, hi⟩)
      · exact hi
      · exact absurd hitem hi
  · constructor
    · intro i
      rw [List.mem_cons, or_comm]
    · intro i
      rw [List.mem_cons]
      constructor
      · rintro (rfl | hi)
        · exact .inr ⟨rfl, hitem⟩
        · exact .inl hi
      · rintro (hi | ⟨rfl, -⟩)
        · exact .inr hi
        · exact .inl rfl

variable (σ P target) in
theorem pushUses_adds (viaBranch : Bool) (s : Search) (v : Value) :
    Adds s (s.pushUses σ P target viaBranch v)
      fun i => i.2 = viaBranch ∧ IsUse P target v i.1 := by
  have hfold : ∀ us : List Loc, ∀ s : Search,
      Adds s (us.foldl (fun s u => s.push (u, viaBranch)) s)
        fun i => i.2 = viaBranch ∧ i.1 ∈ us := by
    intro us
    induction us with
    | nil => exact fun s => (Adds.none s).congr (by simp)
    | cons u us ih =>
      intro s
      refine ((push_adds s (u, viaBranch)).trans (ih _)).congr fun i => ?_
      rw [Prod.ext_iff, List.mem_cons]
      tauto
  refine (hfold _ s).congr fun i => ?_
  rw [(σ.uses_perm _).mem_iff, mem_uses_iff]

/-! ## Walks through blocks -/

section
variable {f b : Nat} {l : Loc} {ls : List Loc} {queue queue' : List Nat}

theorem pass_eq_none_iff {state : List Nat × Search} :
    pass σ P target f b state l = none ↔ l = target := by
  unfold pass
  constructor
  · intro h
    split at h
    · assumption
    · split at h <;> cases h
  · intro h
    rw [if_pos h]

/-- What one instruction adds to the search and to the queue. -/
theorem pass_adds (h : pass σ P target f b (queue, s) l = some (queue', s')) :
    Adds s s' (fun i => i.2 = true ∧ ∃ v, Carries P l v ∧ IsUse P target v i.1) ∧
      ∀ b', b' ∈ queue' ↔ b' ∈ queue ∨ b' ∈ P.succs f b ∧ Leaves P l := by
  unfold pass at h
  split at h
  · cases h
  · split at h
    case h_1 addr val hop =>
      cases h
      exact ⟨(pushUses_adds σ P target true s addr).congr (by simp [Carries, hop]),
        by simp [Leaves, Op.leaves, hop]⟩
    case h_2 edges comment hop =>
      cases h
      exact ⟨(pushUses_adds σ P target true s _).congr (by simp [Carries, hop]),
        by simp [Leaves, Op.leaves, hop]⟩
    case h_3 cond hop =>
      cases h
      exact ⟨(Adds.none s).congr (by simp [Carries, hop]), by simp [Leaves, Op.leaves, hop]⟩
    case h_4 hop =>
      cases h
      exact ⟨(Adds.none s).congr (by simp [Carries, hop]), by simp [Leaves, Op.leaves, hop]⟩
    case h_5 hstore hphi hbranch hjump =>
      cases h
      refine ⟨(Adds.none s).congr fun i => ?_, fun b' => ?_⟩
      · unfold Carries
        split <;> simp_all
      · have hleaves : ¬ Leaves P l := by
          unfold Leaves
          cases hop : P.op? l with
          | none => simp
          | some op => cases op <;> simp_all [Op.leaves]
        simp [hleaves]

/-- What the instructions of a block add. -/
theorem foldlM_pass_adds
    (h : ls.foldlM (pass σ P target f b) (queue, s) = some (queue', s')) :
    target ∉ ls ∧
      Adds s s' (fun i => i.2 = true ∧ ∃ l ∈ ls, ∃ v, Carries P l v ∧ IsUse P target v i.1) ∧
      ∀ b', b' ∈ queue' ↔ b' ∈ queue ∨ b' ∈ P.succs f b ∧ ∃ l ∈ ls, Leaves P l := by
  induction ls generalizing queue s with
  | nil =>
    cases h
    exact ⟨List.not_mem_nil, (Adds.none _).congr (by simp), by simp⟩
  | cons l ls ih =>
    rw [List.foldlM_cons] at h
    obtain ⟨⟨queue₁, s₁⟩, hpass, h⟩ := Option.bind_eq_some_iff.1 h
    obtain ⟨hadds, hqueue⟩ := pass_adds hpass
    obtain ⟨hnot, hadds', hqueue'⟩ := ih h
    have hl : l ≠ target := by
      rintro rfl
      rw [pass_eq_none_iff.2 rfl] at hpass
      cases hpass
    refine ⟨?_, (hadds.trans hadds').congr fun i => ?_, fun b' => ?_⟩
    · rw [List.mem_cons, not_or]
      exact ⟨hl.symm, hnot⟩
    · simp only [List.mem_cons, exists_eq_or_imp]
      exact and_or_left.symm
    · simp only [hqueue', hqueue, List.mem_cons, exists_eq_or_imp]
      rw [or_assoc, ← and_or_left]

theorem foldlM_pass_eq_none {state : List Nat × Search}
    (h : ls.foldlM (pass σ P target f b) state = none) : target ∈ ls := by
  induction ls generalizing state with
  | nil => cases h
  | cons l ls ih =>
    rw [List.foldlM_cons] at h
    cases hpass : pass σ P target f b state l with
    | none => exact pass_eq_none_iff.1 hpass ▸ List.mem_cons_self ..
    | some state' =>
      rw [hpass] at h
      exact List.mem_cons_of_mem _ (ih h)

/-- A walk from `queue` through blocks of `f` leads from `s` to `s'`: it goes to what `queue` leads
    to, and it leaves nothing out of the blocks that it goes through. -/
structure Walks (P : Program) (target : Loc) (f : Nat) (queue : List Nat) (s s' : Search) :
    Prop where
  subset : s.blocks ⊆ s'.blocks
  queue_subset : ∀ b ∈ queue, (f, b) ∈ s'.blocks
  led : ∀ g b, (g, b) ∈ s'.blocks → (g, b) ∈ s.blocks ∨
    g = f ∧ ∃ a ∈ queue, Reaches (P.succs f) a b
  no_target : ∀ b, (f, b) ∈ s'.blocks → (f, b) ∉ s.blocks → target ∉ P.blockLocs f b
  succs : ∀ b, (f, b) ∈ s'.blocks → (f, b) ∉ s.blocks → ∀ b' ∈ P.succs f b, (f, b') ∈ s'.blocks
  adds : Adds s s' fun i => ∃ b, ((f, b) ∈ s'.blocks ∧ (f, b) ∉ s.blocks) ∧ CarriedBy P target f b i

theorem mem_queue_iff {rest : List Nat} (h : σ.blocks queue = b :: rest) {x : Nat} :
    x ∈ queue ↔ x = b ∨ x ∈ rest := by
  rw [← (σ.blocks_perm queue).mem_iff, h, List.mem_cons]

/-- **What a walk does.** -/
theorem walk_walks (hP : P.JumpsAtEnds) (h : s.walk σ P target f queue = some s') :
    Walks P target f queue s s' := by
  fun_induction walk σ P target f queue s with
  | case1 queue s hqueue =>
    cases h
    obtain rfl : queue = [] := (hqueue ▸ (σ.blocks_perm queue).symm).eq_nil
    exact ⟨fun _ h => h, by simp, fun g b h => .inl h, fun b h h' => absurd h h',
      fun b h h' => absurd h h', (Adds.none _).congr (by simp)⟩
  | case2 queue s b rest hqueue hb ih =>
    obtain ⟨hsubset, hrest, hled, hno, hsuccs, hadds⟩ := ih h
    refine ⟨hsubset, fun x hx => ?_, fun g x hx => ?_, hno, hsuccs, hadds⟩
    · rcases (mem_queue_iff hqueue).1 hx with rfl | hx
      · exact hsubset hb
      · exact hrest x hx
    · refine (hled g x hx).imp_right ?_
      rintro ⟨hg, a, ha, hreach⟩
      exact ⟨hg, a, (mem_queue_iff hqueue).2 (.inr ha), hreach⟩
  | case3 => cases h
  | case4 queue s b rest hqueue hb queue' s₁ hpass ih =>
    obtain ⟨hsubset, hrest, hled, hno, hsuccs, hadds⟩ := ih h
    obtain ⟨htarget, hadds₁, hqueue'⟩ := foldlM_pass_adds hpass
    have hblocks : s₁.blocks = (f, b) :: s.blocks := blocks_foldlM_pass hpass
    have hfb : (f, b) ∈ s'.blocks := hsubset (hblocks ▸ List.mem_cons_self ..)
    -- the blocks that this walk goes through are `b` and those of the rest of it
    have hnew : ∀ x, ((f, x) ∈ s'.blocks ∧ (f, x) ∉ s.blocks) ↔
        x = b ∨ (f, x) ∈ s'.blocks ∧ (f, x) ∉ s₁.blocks := by
      intro x
      rw [hblocks, List.mem_cons, not_or]
      by_cases hx : x = b
      · subst hx
        simp [hfb, hb]
      · simp [hx]
    have hsuccs' : ∀ x ∈ P.succs f b, x ∈ queue' := fun x hx =>
      (hqueue' x).2 (.inr ⟨hx, exists_leaves hP hx⟩)
    refine ⟨fun i hi => hsubset (hblocks ▸ List.mem_cons_of_mem _ hi), fun x hx => ?_,
      fun g x hx => ?_, fun x hx hx' => ?_, fun x hx hx' => ?_, ?_⟩
    · rcases (mem_queue_iff hqueue).1 hx with rfl | hx
      · exact hfb
      · exact hrest x ((hqueue' x).2 (.inl hx))
    · rcases hled g x hx with hx | ⟨rfl, a, ha, hreach⟩
      · rw [hblocks] at hx
        rcases List.mem_cons.1 hx with hx | hx
        · obtain ⟨rfl, rfl⟩ := Prod.mk.inj hx
          exact .inr ⟨rfl, x, (mem_queue_iff hqueue).2 (.inl rfl), .refl x⟩
        · exact .inl hx
      · rcases (hqueue' a).1 ha with ha | ⟨ha, -⟩
        · exact .inr ⟨rfl, a, (mem_queue_iff hqueue).2 (.inr ha), hreach⟩
        · exact .inr ⟨rfl, b, (mem_queue_iff hqueue).2 (.inl rfl), .step ha hreach⟩
    · rcases (hnew x).1 ⟨hx, hx'⟩ with rfl | ⟨hx, hx'⟩
      · exact htarget
      · exact hno x hx hx'
    · rcases (hnew x).1 ⟨hx, hx'⟩ with rfl | ⟨hx, hx'⟩
      · exact fun y hy => hrest y (hsuccs' y hy)
      · exact hsuccs x hx hx'
    · have hadds₁ : Adds s s₁ _ := ⟨hadds₁.mem_visited_iff, hadds₁.mem_stack_iff⟩
      refine (hadds₁.trans hadds).congr fun i => ?_
      simp only [hnew, or_and_right, exists_or, exists_eq_left]
      rfl

/-- A walk that reaches the target leads to its block. -/
theorem walk_eq_none (h : s.walk σ P target f queue = none) :
    f = target.func ∧ ∃ a ∈ queue, Reaches (P.succs f) a target.block := by
  fun_induction walk σ P target f queue s with
  | case1 => cases h
  | case2 queue s b rest hqueue hb ih =>
    obtain ⟨hf, a, ha, hreach⟩ := ih h
    exact ⟨hf, a, (mem_queue_iff hqueue).2 (.inr ha), hreach⟩
  | case3 queue s b rest hqueue hb hpass =>
    obtain ⟨hf, hblock, -⟩ := Program.mem_blockLocs_iff.1 (foldlM_pass_eq_none hpass)
    exact ⟨hf.symm, b, (mem_queue_iff hqueue).2 (.inl rfl), hblock ▸ .refl _⟩
  | case4 queue s b rest hqueue hb queue' s₁ hpass ih =>
    obtain ⟨hf, a, ha, hreach⟩ := ih h
    rcases ((foldlM_pass_adds hpass).2.2 a).1 ha with ha | ⟨ha, -⟩
    · exact ⟨hf, a, (mem_queue_iff hqueue).2 (.inr ha), hreach⟩
    · exact ⟨hf, b, (mem_queue_iff hqueue).2 (.inl rfl), .step ha hreach⟩

end

/-! ## The whole search -/

/-- What follows the item of `l` and `flag` has been met. -/
structure Passed (P : Program) (target : Loc) (s : Search) (l : Loc) (flag : Bool) : Prop where
  not_reached : ¬ (l = target ∧ flag = true)
  store : ∀ addr val, P.op? l = some (.store addr val) →
    ∀ u, IsUse P target addr u → (u, flag) ∈ s.visited
  branch : ∀ cond, P.op? l = some (.branch cond) →
    ∀ b ∈ P.succs l.func l.block, (l.func, b) ∈ s.blocks
  value : l ≠ target → P.isValue l → (∀ addr val, P.op? l ≠ some (.store addr val)) →
    (∀ cond, P.op? l ≠ some (.branch cond)) →
    ∀ u, IsUse P target (.result l) u → (u, flag) ∈ s.visited

/-- What follows the block `b` of `f` has been met, and the target is not in it. -/
structure Walked (P : Program) (target : Loc) (s : Search) (f b : Nat) : Prop where
  no_target : target ∉ P.blockLocs f b
  carried : ∀ i, CarriedBy P target f b i → i ∈ s.visited
  succs : ∀ b' ∈ P.succs f b, (f, b') ∈ s.blocks

/-- The state of a search for the target from a definition: all that has been met is on chains, and
    what follows it has been met, but for what is on the stack. -/
structure Invariant (P : Program) (target : Loc) (definition : Value) (viaBranch : Bool)
    (s : Search) : Prop where
  on_chain : ∀ i ∈ s.visited, OnChain P target definition viaBranch i.1 i.2
  led_to : ∀ f b, (f, b) ∈ s.blocks → LedTo P target definition viaBranch f b
  stack_subset : s.stack ⊆ s.visited
  starts : ∀ u, IsUse P target definition u → (u, viaBranch) ∈ s.visited
  passed : ∀ i ∈ s.visited, i ∈ s.stack ∨ Passed P target s i.1 i.2
  walked : ∀ f b, (f, b) ∈ s.blocks → Walked P target s f b

section
variable {definition : Value} {viaBranch : Bool} {l : Loc} {flag : Bool}

theorem Passed.mono (h : Passed P target s l flag) (hvisited : s.visited ⊆ s'.visited)
    (hblocks : s.blocks ⊆ s'.blocks) : Passed P target s' l flag where
  not_reached := h.not_reached
  store addr val hop u hu := hvisited (h.store addr val hop u hu)
  branch cond hop b hb := hblocks (h.branch cond hop b hb)
  value hl hvalue hstore hbranch u hu := hvisited (h.value hl hvalue hstore hbranch u hu)

theorem Walked.mono {f b : Nat} (h : Walked P target s f b) (hvisited : s.visited ⊆ s'.visited)
    (hblocks : s.blocks ⊆ s'.blocks) : Walked P target s' f b where
  no_target := h.no_target
  carried i hi := hvisited (h.carried i hi)
  succs b' hb' := hblocks (h.succs b' hb')

/-- The blocks that have been walked through are all that follow one of them. -/
theorem Invariant.mem_blocks_of_path (h : Invariant P target definition viaBranch s) {f a b : Nat}
    (ha : ∀ c ∈ P.succs f a, (f, c) ∈ s.blocks) (hab : Path (P.succs f) a b) :
    (f, b) ∈ s.blocks := by
  obtain ⟨c, hc, hcb⟩ := hab
  exact hcb.closed (motive := fun x => (f, x) ∈ s.blocks)
    (fun x hx y hy => (h.walked f x hx).succs y hy) (ha c hc)

/-- An empty stack leaves nothing out. -/
theorem Invariant.visited_of_onChain (h : Invariant P target definition viaBranch s)
    (hstack : s.stack = []) (hl : OnChain P target definition viaBranch l flag) :
    (l, flag) ∈ s.visited := by
  have hpassed : ∀ {l flag}, (l, flag) ∈ s.visited → Passed P target s l flag := fun hmem =>
    (h.passed _ hmem).resolve_left (by simp [hstack])
  induction hl with
  | use hu => exact h.starts _ hu
  | store _ hop hu ih => exact (hpassed ih).store _ _ hop _ hu
  | branch _ hop hpath hk hv hu ih =>
    have hb := h.mem_blocks_of_path ((hpassed ih).branch _ hop) hpath
    exact (h.walked _ _ hb).carried _ ⟨rfl, _, hk, _, hv, hu⟩
  | value _ hl hvalue hstore hbranch hu ih =>
    exact (hpassed ih).value hl hvalue hstore hbranch _ hu

/-- **A search that has nothing left to look at has not missed the target.** -/
theorem Invariant.not_reached (htarget : (P.call? target).isSome)
    (h : Invariant P target definition viaBranch s) (hstack : s.stack = []) :
    ¬ Reached P target definition viaBranch := by
  have hpassed : ∀ {l flag}, OnChain P target definition viaBranch l flag →
      Passed P target s l flag := fun hl =>
    (h.passed _ (h.visited_of_onChain hstack hl)).resolve_left (by simp [hstack])
  rintro (hreached | ⟨l, flag, cond, hl, hop, hfunc, hpath⟩)
  · exact (hpassed hreached).not_reached ⟨rfl, rfl⟩
  · rw [← hfunc] at hpath
    have hb := h.mem_blocks_of_path ((hpassed hl).branch cond hop) hpath
    exact (h.walked _ _ hb).no_target
      (Program.mem_blockLocs_iff.2 ⟨hfunc.symm, rfl, Program.isSome_instr?_of_call? htarget⟩)

/-- A step that reaches the target is right. -/
theorem reached_of_step (hl : OnChain P target definition viaBranch l flag)
    (h : s.step σ P target (l, flag) = none) : Reached P target definition viaBranch := by
  unfold step at h
  dsimp only at h
  split at h
  · rename_i heq
    subst heq
    split at h
    · rename_i hflag
      exact .inl (hflag ▸ hl)
    · cases h
  · split at h
    · cases h
    · rename_i cond hop
      obtain ⟨hfunc, a, ha, hreach⟩ := walk_eq_none h
      exact .inr ⟨l, flag, cond, hl, hop, hfunc, hfunc ▸ ⟨a, ha, hreach⟩⟩
    · cases h

/-- The invariant after an item has left the stack. -/
theorem Invariant.add (h : Invariant P target definition viaBranch s) {rest : List Item}
    (hstack : s.stack.Perm ((l, flag) :: rest)) (hadds : Adds { s with stack := rest } s' p)
    (hblocks : s.blocks ⊆ s'.blocks)
    (hnew : ∀ i, p i → OnChain P target definition viaBranch i.1 i.2)
    (hwalked : ∀ f b, (f, b) ∈ s'.blocks → (f, b) ∉ s.blocks →
      LedTo P target definition viaBranch f b ∧ Walked P target s' f b)
    (hpassed : Passed P target s' l flag) : Invariant P target definition viaBranch s' := by
  have hvisited : s.visited ⊆ s'.visited := fun i hi => (hadds.mem_visited_iff i).2 (.inl hi)
  have hrest : rest ⊆ s.stack := fun i hi => hstack.mem_iff.2 (List.mem_cons_of_mem _ hi)
  refine ⟨fun i hi => ?_, fun f b hb => ?_, fun i hi => ?_, fun u hu => hvisited (h.starts u hu),
    fun i hi => ?_, fun f b hb => ?_⟩
  · rcases (hadds.mem_visited_iff i).1 hi with hi | hi
    · exact h.on_chain i hi
    · exact hnew i hi
  · by_cases hold : (f, b) ∈ s.blocks
    · exact h.led_to f b hold
    · exact (hwalked f b hb hold).1
  · rcases (hadds.mem_stack_iff i).1 hi with hi | ⟨hi, -⟩
    · exact hvisited (h.stack_subset (hrest hi))
    · exact (hadds.mem_visited_iff i).2 (.inr hi)
  · by_cases hold : i ∈ s.visited
    · rcases h.passed i hold with hi | hi
      · rcases List.mem_cons.1 (hstack.mem_iff.1 hi) with rfl | hi
        · exact .inr hpassed
        · exact .inl ((hadds.mem_stack_iff i).2 (.inl hi))
      · exact .inr (hi.mono hvisited hblocks)
    · have hi := ((hadds.mem_visited_iff i).1 hi).resolve_left hold
      exact .inl ((hadds.mem_stack_iff i).2 (.inr ⟨hi, hold⟩))
  · by_cases hold : (f, b) ∈ s.blocks
    · exact (h.walked f b hold).mono hvisited hblocks
    · exact (hwalked f b hb hold).2

/-- The invariant after nothing has followed an item. -/
theorem Invariant.pop (h : Invariant P target definition viaBranch s) {rest : List Item}
    (hstack : s.stack.Perm ((l, flag) :: rest))
    (hpassed : Passed P target { s with stack := rest } l flag) :
    Invariant P target definition viaBranch { s with stack := rest } :=
  h.add hstack (Adds.none _) (fun _ hb => hb) (fun _ hi => hi.elim)
    (fun _ _ hb hb' => absurd hb hb') hpassed

/-- The invariant after the uses of a value have followed an item. -/
theorem Invariant.pushUses (h : Invariant P target definition viaBranch s) {rest : List Item}
    (hstack : s.stack.Perm ((l, flag) :: rest)) {v : Value}
    (hnew : ∀ u, IsUse P target v u → OnChain P target definition viaBranch u flag)
    (hpassed : ∀ s' : Search, (∀ u, IsUse P target v u → (u, flag) ∈ s'.visited) →
      Passed P target s' l flag) :
    Invariant P target definition viaBranch
      (Search.pushUses σ P target flag { s with stack := rest } v) := by
  have hadds := pushUses_adds σ P target flag { s with stack := rest } v
  have hblocks := blocks_pushUses σ P target flag { s with stack := rest } v
  refine h.add hstack hadds ?_ ?_ ?_ (hpassed _ ?_)
  · rw [hblocks]
    exact fun _ hb => hb
  · rintro ⟨u, _⟩ ⟨rfl, hu⟩
    exact hnew u hu
  · intro f b hb hb'
    rw [hblocks] at hb
    exact absurd hb hb'
  · exact fun u hu => (hadds.mem_visited_iff _).2 (.inr ⟨rfl, hu⟩)

/-- The invariant after a walk through the blocks that a branch leads to. -/
theorem Invariant.walk (hP : P.JumpsAtEnds) (h : Invariant P target definition viaBranch s)
    {rest : List Item} (hstack : s.stack.Perm ((l, flag) :: rest)) {cond : Value}
    (hop : P.op? l = some (.branch cond)) (hne : l ≠ target)
    (hwalk : Search.walk σ P target l.func (P.succs l.func l.block) { s with stack := rest } =
      some s') : Invariant P target definition viaBranch s' := by
  have hl := h.on_chain _ (h.stack_subset (hstack.mem_iff.2 (List.mem_cons_self ..)))
  have hwalks := walk_walks hP hwalk
  have hled : ∀ f b, (f, b) ∈ s'.blocks → (f, b) ∉ s.blocks →
      f = l.func ∧ Path (P.succs f) l.block b := by
    intro f b hb hb'
    obtain ⟨rfl, a, ha, hreach⟩ := (hwalks.led f b hb).resolve_left hb'
    exact ⟨rfl, a, ha, hreach⟩
  refine h.add hstack hwalks.adds hwalks.subset ?_ ?_
    ⟨fun h => hne h.1, by simp [hop], fun _ _ => hwalks.queue_subset, by simp [hop]⟩
  · rintro ⟨u, _⟩ ⟨b, ⟨hb, hb'⟩, rfl, k, hk, v, hv, hu⟩
    exact .branch hl hop (hled _ b hb hb').2 hk hv hu
  · intro f b hb hb'
    obtain ⟨rfl, hpath⟩ := hled f b hb hb'
    refine ⟨⟨l, flag, cond, hl, hop, rfl, hpath⟩, hwalks.no_target b hb hb', fun i hi => ?_,
      hwalks.succs b hb hb'⟩
    exact (hwalks.adds.mem_visited_iff i).2 (.inr ⟨b, ⟨hb, hb'⟩, hi⟩)

/-- **A step keeps the invariant.** -/
theorem Invariant.step (hP : P.JumpsAtEnds) (htarget : (P.call? target).isSome)
    (h : Invariant P target definition viaBranch s) {rest : List Item}
    (hstack : s.stack.Perm ((l, flag) :: rest))
    (hstep : Search.step σ P target { s with stack := rest } (l, flag) = some s') :
    Invariant P target definition viaBranch s' := by
  have hl := h.on_chain _ (h.stack_subset (hstack.mem_iff.2 (List.mem_cons_self ..)))
  unfold Search.step at hstep
  dsimp only at hstep
  by_cases heq : l = target
  · -- a chain that has not passed a branch ends at the target
    rw [if_pos heq] at hstep
    split_ifs at hstep with hflag
    cases hstep
    obtain ⟨c, hc⟩ := Option.isSome_iff_exists.1 htarget
    have hop : P.op? l = some (.call c) := heq ▸ Program.op?_of_call? hc
    exact h.pop hstack
      ⟨fun h => hflag h.2, by simp [hop], by simp [hop], fun hne => absurd heq hne⟩
  · rw [if_neg heq] at hstep
    split at hstep
    case h_1 addr val hop =>
      cases hstep
      refine h.pushUses hstack (fun u hu => .store hl hop hu) fun s' hvisited =>
        ⟨fun h => heq h.1, fun addr' val' hop' => ?_, by simp [hop], by simp [hop]⟩
      rw [hop] at hop'
      cases hop'
      exact hvisited
    case h_2 cond hop => exact h.walk hP hstack hop heq hstep
    case h_3 hstore hbranch =>
      have hpassed : ∀ s', (P.isValue l → ∀ u, IsUse P target (.result l) u →
          (u, flag) ∈ s'.visited) → Passed P target s' l flag := fun s' hvisited =>
        ⟨fun h => heq h.1, fun addr val hop => (hstore addr val hop).elim,
          fun cond hop => (hbranch cond hop).elim, fun _ hvalue _ _ => hvisited hvalue⟩
      cases hstep
      split_ifs with hvalue
      · exact h.pushUses hstack (fun u hu => .value hl heq hvalue hstore hbranch hu)
          fun s' hvisited => hpassed s' fun _ => hvisited
      · exact h.pop hstack (hpassed _ fun h => absurd h hvalue)

end

/-- **The run of a search** tells whether the target is reached. -/
theorem run_iff (hP : P.JumpsAtEnds) (htarget : (P.call? target).isSome) {definition : Value}
    {viaBranch : Bool} {s : Search} (h : Invariant P target definition viaBranch s) :
    s.run σ P target ↔ Reached P target definition viaBranch := by
  fun_induction run σ P target s with
  | case1 s hitems =>
    have hstack : s.stack = [] := (hitems ▸ (σ.items_perm s.stack).symm).eq_nil
    simp [h.not_reached htarget hstack]
  | case2 s item stack hitems hstep =>
    have hmem : item ∈ s.stack := (σ.items_perm s.stack).mem_iff.1 (hitems ▸ List.mem_cons_self ..)
    simp [reached_of_step (h.on_chain item (h.stack_subset hmem)) hstep]
  | case3 s item stack hitems s' hstep ih =>
    exact ih (h.step hP htarget (hitems ▸ (σ.items_perm s.stack).symm) hstep)

end Search

/-- A search starts with the uses of the definition. -/
theorem invariant_start (definition : Value) (viaBranch : Bool) :
    Search.Invariant P target definition viaBranch
      (Search.pushUses σ P target viaBranch ⟨[], [], []⟩ definition) := by
  have hadds := Search.pushUses_adds σ P target viaBranch ⟨[], [], []⟩ definition
  have hblocks := Search.blocks_pushUses σ P target viaBranch ⟨[], [], []⟩ definition
  refine ⟨?_, by simp [hblocks], fun i hi => ?_, fun u hu => ?_, fun i hi => .inl ?_,
    by simp [hblocks]⟩
  · rintro ⟨u, flag⟩ hi
    obtain ⟨rfl, hu⟩ := ((hadds.mem_visited_iff _).1 hi).resolve_left List.not_mem_nil
    exact .use hu
  · have hi := ((hadds.mem_stack_iff i).1 hi).resolve_left List.not_mem_nil
    exact (hadds.mem_visited_iff i).2 (.inr hi.1)
  · exact (hadds.mem_visited_iff _).2 (.inr ⟨rfl, hu⟩)
  · have hi := ((hadds.mem_visited_iff i).1 hi).resolve_left List.not_mem_nil
    exact (hadds.mem_stack_iff i).2 (.inr ⟨hi, List.not_mem_nil⟩)

theorem reachesBy_iff (hP : P.JumpsAtEnds) (htarget : (P.call? target).isSome) (σ : Schedule)
    (definition : Value) (viaBranch : Bool) :
    reachesBy σ P target definition viaBranch ↔ Reached P target definition viaBranch :=
  Search.run_iff hP htarget (invariant_start definition viaBranch)

/-- **Reachability along definitions and uses.** In a program whose blocks end in jumps or branches,
    a definition reaches a call if and only if the call is on a chain after a branch, or in a block
    that a branch on a chain leads to by at least one step. So the order in which the search takes
    uses, blocks and items does not matter. -/
theorem reaches_iff_reached (P : Program) (hP : P.JumpsAtEnds) (target : Loc)
    (htarget : (P.call? target).isSome) (definition : Value) (viaBranch : Bool) :
    (reaches P target definition viaBranch ↔ Reached P target definition viaBranch) ∧
      ∀ σ, reachesBy σ P target definition viaBranch = reaches P target definition viaBranch := by
  have hreaches : reaches P target definition viaBranch ↔ Reached P target definition viaBranch :=
    reachesBy_iff hP htarget .plain definition viaBranch
  refine ⟨hreaches, fun σ => Bool.eq_iff_iff.2 ?_⟩
  exact (reachesBy_iff hP htarget σ definition viaBranch).trans hreaches.symm

/-- A program that passes the address of a variable to a call, reads a flag, and writes the variable
    if the flag is set. -/
def flagged : Program :=
  smallProgram #[⟨"ready", some 0, .pointer (.basic "bool")⟩] #[
    { straightLine "main" #[] #[] with
      body := some ⟨#[
        ⟨#[⟨.alloc "x" false, some ⟨0, .pointer (.basic "int")⟩, none⟩,
          callTo 1 1 [.result ⟨0, 0, 0⟩],
          ⟨.unary .load (.global 0) false, some ⟨2, .basic "bool"⟩, none⟩,
          ⟨.branch (.result ⟨0, 0, 2⟩), none, none⟩], [1, 2], ""⟩,
        ⟨#[⟨.store (.result ⟨0, 0, 0⟩) (.const 0), none, none⟩, ⟨.jump, none, none⟩], [2], ""⟩,
        ⟨#[⟨.ret [], none, none⟩], [], ""⟩], none⟩ },
    straightLine "work" #[⟨"p", .pointer (.basic "int")⟩] #[⟨.ret [], none, none⟩]]

/-- The flag reaches the call through the branch and the variable that is written there; the
    variable alone does not reach it through a branch. -/
theorem reaches_iff_reached_flagged :
    flagged.JumpsAtEnds ∧ (flagged.call? ⟨0, 0, 1⟩).isSome ∧
      reaches flagged ⟨0, 0, 1⟩ (.global 0) false = true ∧
      (∀ σ, reachesBy σ flagged ⟨0, 0, 1⟩ (.result ⟨0, 0, 0⟩) false = false) ∧
      ¬ Reached flagged ⟨0, 0, 1⟩ (.result ⟨0, 0, 0⟩) false := by
  have hP : flagged.JumpsAtEnds := by decide
  have hcall : (flagged.call? ⟨0, 0, 1⟩).isSome := rfl
  obtain ⟨hflag, -⟩ := reaches_iff_reached flagged hP ⟨0, 0, 1⟩ hcall (.global 0) false
  obtain ⟨hvar, horder⟩ :=
    reaches_iff_reached flagged hP ⟨0, 0, 1⟩ hcall (.result ⟨0, 0, 0⟩) false
  have hnot : reaches flagged ⟨0, 0, 1⟩ (.result ⟨0, 0, 0⟩) false = false := by decide +kernel
  refine ⟨hP, hcall, hflag.2 (.inl ?_), fun σ => (horder σ).trans hnot, fun h => ?_⟩
  · have hop : flagged.op? ⟨0, 0, 2⟩ = some (.unary .load (.global 0) false) := rfl
    have hload : OnChain flagged ⟨0, 0, 1⟩ (.global 0) false ⟨0, 0, 2⟩ false :=
      .use ⟨⟨_, rfl, by decide⟩, rfl⟩
    have hbranch : OnChain flagged ⟨0, 0, 1⟩ (.global 0) false ⟨0, 0, 3⟩ false :=
      .value hload (by decide) rfl (by simp [hop]) (by simp [hop]) ⟨⟨_, rfl, by decide⟩, rfl⟩
    exact .branch hbranch rfl (.of_mem (y := 1) (by decide)) (k := ⟨0, 1, 0⟩) (by decide) rfl
      ⟨⟨_, rfl, by decide⟩, rfl⟩
  · exact absurd (hvar.2 h) (by simp [hnot])

end DefUse

end Overlap
