/-
  Reachability along definitions and uses.

  A definition *reaches* a call site if a chain of uses leads from it to the
  call through a branch, or through any chain if asked so.  A chain goes from a
  value to the instructions that use it, from a store to the uses of its
  address, and from a branch to the stores and phis of the blocks it leads to;
  the call is also reached if it lies in one of those blocks.

  A `Search` keeps the items it has still to look at and those it has ever met,
  and the blocks it has walked through.  In what order it takes uses, blocks and
  items is up to a `Schedule`.

  * `Search.step` looks at one item, and `Search.walk` walks through the blocks
    that a branch leads to; both give no search if they reach the target;
  * `Search.run` looks at items until the target is reached or none is left;
  * `reachesBy` runs a search with any schedule, `reaches` with the plain one.
-/
import Overlap.Ssa.Flow

namespace Overlap.DefUse

open Ssa Overlap.Graph

/-- An instruction on a chain, with whether the chain has passed a branch. -/
abbrev Item := Loc × Bool

/-- The orders in which a search takes the uses of a value, the blocks that a branch leads to, and
    the items that wait. -/
structure Schedule where
  uses : List Loc → List Loc
  blocks : List Nat → List Nat
  items : List Item → List Item
  uses_perm : ∀ us, (uses us).Perm us
  blocks_perm : ∀ bs, (blocks bs).Perm bs
  items_perm : ∀ is, (items is).Perm is

/-- Uses and blocks in order, and the latest item first. -/
def Schedule.plain : Schedule where
  uses := id
  blocks := id
  items := id
  uses_perm := .refl
  blocks_perm := .refl
  items_perm := .refl

/-- The state of a search. -/
structure Search where
  /-- The items to look at, the latest one first. -/
  stack : List Item
  /-- The items that are or were on the stack. -/
  visited : List Item
  /-- The blocks that have been walked through, with their functions. -/
  blocks : List (Nat × Nat)
deriving DecidableEq, Repr

/-! ## What is left to do -/

/-- The items of a program. -/
def allItems (P : Program) : List Item :=
  (List.range P.functions.size).flatMap fun f => (P.locs f).flatMap fun l => [(l, false), (l, true)]

/-- The blocks of a function. -/
def blocksOf (P : Program) (f : Nat) : List (Nat × Nat) := (P.blockIds f).map (f, ·)

/-- The number of items that a search may still look at. -/
def Search.remaining (P : Program) (s : Search) : Nat :=
  unseen (allItems P) s.visited + s.stack.length

/-! ## The search -/

variable (σ : Schedule) (P : Program) (target : Loc)

/-- The uses of a value. Globals do not keep track of theirs, so they are looked for in the
    function of the target. -/
def uses : Value → List Loc
  | .global g => P.operandUses target.func (.global g)
  | v => P.referrers v

variable {P} in
theorem mem_allItems_of_mem_locs {f : Nat} {l : Loc} (hl : l ∈ P.locs f) (viaBranch : Bool) :
    (l, viaBranch) ∈ allItems P := by
  have hf : f < P.functions.size := by
    refine Nat.lt_of_not_le fun hf => ?_
    simp [Program.locs, Program.blocks, Program.function?, hf] at hl
  simp only [allItems, List.mem_flatMap, List.mem_range]
  exact ⟨f, hf, l, hl, by cases viaBranch <;> simp⟩

variable {P target} in
theorem mem_allItems_of_mem_uses {v : Value} {u : Loc} (hu : u ∈ uses P target v)
    (viaBranch : Bool) : (u, viaBranch) ∈ allItems P := by
  have hoccurrences : ∀ {f w}, u ∈ P.occurrences f w → (u, viaBranch) ∈ allItems P := by
    intro f w hu
    obtain ⟨l, hl, hu⟩ := List.mem_flatMap.1 hu
    obtain ⟨-, rfl⟩ := List.mem_replicate.1 hu
    exact mem_allItems_of_mem_locs hl viaBranch
  cases v with
  | global g => exact mem_allItems_of_mem_locs (List.mem_filter.1 hu).1 viaBranch
  | result l => exact hoccurrences hu
  | param f i => exact hoccurrences hu
  | freeVar f i => exact hoccurrences hu
  | function f =>
    simp only [uses, Program.referrers] at hu
    split at hu
    · obtain ⟨g, -, hu⟩ := List.mem_flatMap.1 hu
      exact hoccurrences hu
    · simp at hu
  | builtin name => simp [uses, Program.referrers] at hu
  | const c => simp [uses, Program.referrers] at hu

namespace Search

/-- Puts an item on the stack, unless it has been there. -/
def push (s : Search) (item : Item) : Search :=
  if item ∈ s.visited then s
  else { s with stack := item :: s.stack, visited := item :: s.visited }

/-- Goes on with the uses of a value. -/
def pushUses (viaBranch : Bool) (s : Search) (v : Value) : Search :=
  (σ.uses (uses P target v)).foldl (fun s u => s.push (u, viaBranch)) s

/-- Passes an instruction of the block `b` of `f` that a branch leads to, with the blocks that are
    to be walked through afterwards. -/
def pass (f b : Nat) (state : List Nat × Search) (l : Loc) : Option (List Nat × Search) :=
  if l = target then none
  else match P.op? l with
    | some (.store addr _) => some (state.1, state.2.pushUses σ P target true addr)
    | some (.phi ..) => some (state.1, state.2.pushUses σ P target true (.result l))
    | some (.branch _) | some .jump => some (state.1 ++ P.succs f b, state.2)
    | _ => some state

/-- Marks a block as walked through. -/
def enter (s : Search) (f b : Nat) : Search := { s with blocks := (f, b) :: s.blocks }

theorem blocks_pushUses (viaBranch : Bool) (s : Search) (v : Value) :
    (s.pushUses σ P target viaBranch v).blocks = s.blocks := by
  unfold pushUses
  induction σ.uses (uses P target v) generalizing s with
  | nil => rfl
  | cons u us ih =>
    rw [List.foldl_cons, ih]
    unfold push
    split <;> rfl

variable {σ P target} in
theorem blocks_foldlM_pass {f b : Nat} {ls : List Loc} {state state' : List Nat × Search}
    (h : ls.foldlM (pass σ P target f b) state = some state') :
    state'.2.blocks = state.2.blocks := by
  induction ls generalizing state with
  | nil => rw [Option.some.inj h]
  | cons l ls ih =>
    rw [List.foldlM_cons] at h
    obtain ⟨mid, hmid, h⟩ := Option.bind_eq_some_iff.1 h
    rw [ih h]
    unfold pass at hmid
    split at hmid
    · cases hmid
    · split at hmid <;> cases hmid <;> first | rfl | exact blocks_pushUses ..

/-- Walks through the blocks of `f` that `queue` leads to, unless the target is in one of them.
    Blocks that have been walked through are left out. -/
def walk (f : Nat) (queue : List Nat) (s : Search) : Option Search :=
  match _ : σ.blocks queue with
  | [] => some s
  | b :: rest =>
    if (f, b) ∈ s.blocks then walk f rest s
    else match _ : (P.blockLocs f b).foldlM (pass σ P target f b) (rest, s.enter f b) with
      | none => none
      | some (queue', s') => walk f queue' s'
termination_by (unseen (blocksOf P f) s.blocks, queue.length)
decreasing_by
  all_goals
    have hlength := (σ.blocks_perm queue).length_eq
    rw [‹σ.blocks queue = b :: rest›, List.length_cons] at hlength
  · exact Prod.Lex.right _ (by omega)
  · have hpass : (P.blockLocs f b).foldlM (pass σ P target f b) (rest, s.enter f b) =
      some (queue', s') := ‹_›
    have hblocks : s'.blocks = (f, b) :: s.blocks := blocks_foldlM_pass hpass
    rw [hblocks]
    by_cases hb : b < (P.blocks f).size
    · refine Prod.Lex.left _ _ (unseen_cons_lt ?_ ‹_›)
      simpa [blocksOf, Program.blockIds] using hb
    · -- there is no such block, so nothing was added to the queue
      have hlocs : P.blockLocs f b = [] := by simp [Program.blockLocs, hb]
      rw [hlocs] at hpass
      obtain ⟨rfl, -⟩ := Prod.mk.inj (Option.some.inj hpass)
      rcases Nat.lt_or_eq_of_le (unseen_cons_le (blocksOf P f) s.blocks (f, b)) with h | h
      · exact Prod.Lex.left _ _ h
      · rw [h]
        exact Prod.Lex.right _ (by omega)

/-- Looks at an item: the target is reached after a branch, or in a block that a branch leads to.
    A chain ends at the target, and goes on from other instructions. -/
def step (s : Search) (item : Item) : Option Search :=
  if item.1 = target then (if item.2 then none else some s)
  else match P.op? item.1 with
    | some (.store addr _) => some (s.pushUses σ P target item.2 addr)
    | some (.branch _) => s.walk σ P target item.1.func (P.succs item.1.func item.1.block)
    | _ => some (if P.isValue item.1 then s.pushUses σ P target item.2 (.result item.1) else s)

variable {P} in
theorem remaining_push {s : Search} {item : Item} (hitem : item ∈ allItems P) :
    (s.push item).remaining P ≤ s.remaining P := by
  unfold push
  split
  · exact Nat.le_refl _
  · have := unseen_cons_lt hitem ‹_›
    simp only [remaining, List.length_cons]
    omega

theorem remaining_pushUses (viaBranch : Bool) (s : Search) (v : Value) :
    (s.pushUses σ P target viaBranch v).remaining P ≤ s.remaining P := by
  have huses : ∀ u ∈ σ.uses (uses P target v), (u, viaBranch) ∈ allItems P := fun u hu =>
    mem_allItems_of_mem_uses ((σ.uses_perm _).mem_iff.1 hu) viaBranch
  unfold pushUses
  generalize σ.uses (uses P target v) = us at huses ⊢
  induction us generalizing s with
  | nil => exact Nat.le_refl _
  | cons u us ih =>
    obtain ⟨hu, hus⟩ := List.forall_mem_cons.1 huses
    exact Nat.le_trans (ih _ hus) (remaining_push hu)

variable {σ P target} in
theorem remaining_foldlM_pass {f b : Nat} {ls : List Loc} {state state' : List Nat × Search}
    (h : ls.foldlM (pass σ P target f b) state = some state') :
    state'.2.remaining P ≤ state.2.remaining P := by
  induction ls generalizing state with
  | nil => exact Nat.le_of_eq (by rw [Option.some.inj h])
  | cons l ls ih =>
    rw [List.foldlM_cons] at h
    obtain ⟨mid, hmid, h⟩ := Option.bind_eq_some_iff.1 h
    refine Nat.le_trans (ih h) ?_
    unfold pass at hmid
    split at hmid
    · cases hmid
    · split at hmid <;> cases hmid <;> first | exact Nat.le_refl _ | exact remaining_pushUses ..

variable {σ P target} in
theorem remaining_walk {f : Nat} {queue : List Nat} {s s' : Search}
    (h : s.walk σ P target f queue = some s') : s'.remaining P ≤ s.remaining P := by
  fun_induction walk σ P target f queue s with
  | case1 queue s _ => exact Nat.le_of_eq (by rw [Option.some.inj h])
  | case2 queue s b rest _ _ ih => exact ih h
  | case3 => cases h
  | case4 queue s b rest _ _ queue' s₁ hpass ih =>
    exact Nat.le_trans (ih h) (remaining_foldlM_pass hpass)

variable {σ P target} in
theorem remaining_step {s s' : Search} {item : Item} (h : s.step σ P target item = some s') :
    s'.remaining P ≤ s.remaining P := by
  unfold step at h
  split at h
  · split at h <;> cases h
    exact Nat.le_refl _
  · split at h
    · cases h
      exact remaining_pushUses ..
    · exact remaining_walk h
    · split at h <;> cases h
      · exact remaining_pushUses ..
      · exact Nat.le_refl _

/-- Looks at one item after the other, until the target is reached. -/
def run (s : Search) : Bool :=
  match _ : σ.items s.stack with
  | [] => false
  | item :: stack => match _ : step σ P target { s with stack } item with
    | none => true
    | some s' => run s'
termination_by s.remaining P
decreasing_by
  have hlength := (σ.items_perm s.stack).length_eq
  rw [‹σ.items s.stack = item :: stack›, List.length_cons] at hlength
  have hle := remaining_step ‹step σ P target { s with stack } item = some s'›
  simp only [remaining] at hle ⊢
  omega

end Search

/-- Whether a definition reaches the target through a branch, or at all if `viaBranch`, by a search
    with the schedule `σ`. -/
def reachesBy (definition : Value) (viaBranch : Bool) : Bool :=
  (Search.pushUses σ P target viaBranch ⟨[], [], []⟩ definition).run σ P target

/-- Whether a definition reaches the target through a branch, or at all if `viaBranch`. -/
def reaches (definition : Value) (viaBranch : Bool) : Bool :=
  reachesBy .plain P target definition viaBranch

end Overlap.DefUse
