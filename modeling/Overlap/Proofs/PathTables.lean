/-
  The search for paths with a table of earlier answers.

  A search takes points from its queue until it finds its target or the queue is
  empty.  The table is filled by searches in the same graph.

  * `Ends`: the rounds of a search come to an end with an answer, without any
    bound on their number; `ends_search` says that they do, with the answer of
    the search that counts them;
  * `PathTable.Correct`: what a table answers is right.  A query keeps this up
    (`Correct.query`), and so do any queries (`correct_after`);
  * `query_decides_path`: between the blocks of a function the answer is the
    same with and without a table, and says whether there is a path.
-/
import Overlap.Proofs.Paths
import Overlap.Proofs.Recursion

namespace Overlap.Graph

/-! ## Searches come to an end -/

section
variable {α : Type} [DecidableEq α] {next : α → List α} {points seen queue : List α} {target : α}
  {answer answer' : Bool}

/-- `Ends next target seen queue answer`: the search for `target` that has seen `seen` and has
    `queue` left comes to an end with `answer`. -/
inductive Ends (next : α → List α) (target : α) : List α → List α → Bool → Prop where
  | exhausted {seen : List α} : Ends next target seen [] false
  | found {x : α} {seen queue : List α} :
      target ∈ next x → Ends next target seen (x :: queue) true
  | round {x : α} {seen queue : List α} {answer : Bool} :
      target ∉ next x →
      Ends next target (seen ++ newPoints next seen x) (queue ++ newPoints next seen x) answer →
      Ends next target seen (x :: queue) answer

/-- A search has one answer. -/
theorem Ends.unique (h : Ends next target seen queue answer)
    (h' : Ends next target seen queue answer') : answer = answer' := by
  induction h with
  | exhausted =>
    cases h'
    rfl
  | found hx =>
    cases h' with
    | found => rfl
    | round hx' => exact absurd hx hx'
  | round hx _ ih =>
    cases h' with
    | found hx' => exact absurd hx' hx
    | round _ h' => exact ih h'

/-- A search in a finite graph ends, before it has used fuel for its queue and what it has not
    seen. -/
theorem ends_search (hnext : ∀ x ∈ points, next x ⊆ points) {fuel : Nat} (hqueue : queue ⊆ points)
    (hfuel : queue.length + unseen points seen ≤ fuel) :
    Ends next target seen queue (search next target fuel seen queue) := by
  induction fuel generalizing seen queue with
  | zero =>
    obtain rfl : queue = [] := List.length_eq_zero_iff.1 (by omega)
    exact .exhausted
  | succ fuel ih =>
    cases queue with
    | nil => exact .exhausted
    | cons x queue =>
      rw [search]
      split_ifs with hx
      · exact .found hx
      · obtain ⟨hxpoints, hqueue⟩ := List.cons_subset.1 hqueue
        have hxnext : next x ⊆ points := hnext x hxpoints
        have hnew : newPoints next seen x ⊆ points := fun y hy =>
          hxnext (mem_newPoints_iff.1 hy).1
        refine .round hx (ih (List.append_subset.2 ⟨hqueue, hnew⟩) ?_)
        -- what is put into the queue is no longer unseen
        have hunseen := unseen_append_newPoints seen hxnext
        rw [List.length_cons] at hfuel
        change (queue ++ newPoints next seen x).length +
          unseen points (seen ++ newPoints next seen x) ≤ fuel
        rw [List.length_append]
        omega

/-- The search between two points of a finite graph ends with its answer and no other one. -/
theorem ends_hasPathTo_iff (hnext : ∀ x ∈ points, next x ⊆ points) {size : Nat}
    (hsize : points.length ≤ size + 1) {x y : α} (hx : x ∈ points) :
    Ends next y [x] [x] answer ↔ answer = hasPathTo next size x y := by
  have hends : Ends next y [x] [x] (hasPathTo next size x y) := by
    refine ends_search hnext (by simpa using hx) ?_
    have hunseen : unseen points [x] < points.length :=
      List.length_filter_lt_length_iff_exists.2 ⟨x, hx, by simp⟩
    rw [List.length_singleton]
    omega
  constructor
  · intro h
    exact h.unique hends
  · rintro rfl
    exact hends

end

/-- A point has a path to itself if and only if it is on a cycle. -/
theorem path_self_iff {next : Nat → List Nat} {x : Nat} :
    Path next x x ↔ ∃ c : Cycle Nat, x ∈ c ∧ c.Nodup ∧ c.Chain fun y z => z ∈ next y := by
  constructor
  · exact exists_cycle_of_path
  · rintro ⟨c, hx, hnodup, hchain⟩
    have hne : c ≠ Cycle.nil := by
      rintro rfl
      exact Cycle.notMem_nil x hx
    obtain ⟨m, d, hd, rfl⟩ := exists_leastFirst hne hnodup hchain
    have hxd : x ∈ d := List.mem_of_mem_dropLast hx
    exact hd.path hxd hxd

/-! ## Tables of answers -/

namespace PathTable

variable {α : Type} [DecidableEq α] [Hashable α] {next : α → List α} {table : PathTable α}

theorem answer?_empty (x y : α) : (∅ : PathTable α).answer? x y = none := by
  simp [answer?]

/-- A kept answer is found again, and the other ones stay. -/
theorem answer?_keep (table : PathTable α) (x y : α) (answer : Bool) (x' y' : α) :
    (table.keep x y answer).answer? x' y' =
      if x = x' ∧ y = y' then some answer else table.answer? x' y' := by
  unfold keep answer?
  rw [Std.HashMap.getElem?_insert, Std.HashMap.getD_eq_getD_getElem?]
  by_cases hx : x = x'
  · subst hx
    by_cases hy : y = y'
    · simp [hy]
    · cases table[x]? <;> simp [Std.HashMap.getElem?_insert, hy]
  · simp [hx]

/-- What the table answers is right. -/
def Correct (next : α → List α) (table : PathTable α) : Prop :=
  ∀ x y answer, table.answer? x y = some answer → (answer = true ↔ Path next x y)

theorem correct_empty (next : α → List α) : Correct next (∅ : PathTable α) := by
  intro x y answer h
  rw [answer?_empty] at h
  cases h

theorem Correct.keep (htable : Correct next table) {x y : α} {answer : Bool}
    (hanswer : answer = true ↔ Path next x y) : Correct next (table.keep x y answer) := by
  intro x' y' answer' h
  rw [answer?_keep] at h
  split_ifs at h with heq
  · obtain ⟨rfl, rfl⟩ := heq
    cases h
    exact hanswer
  · exact htable x' y' answer' h

theorem query_of_answer {size : Nat} {x y : α} {answer : Bool}
    (h : table.answer? x y = some answer) :
    query next size x y (some table) = (answer, some table) := by
  simp [query, h]

theorem query_of_no_answer {size : Nat} {x y : α} (h : table.answer? x y = none) :
    query next size x y (some table) =
      (hasPathTo next size x y, some (table.keep x y (hasPathTo next size x y))) := by
  simp [query, h]

variable {size : Nat} (hsearch : ∀ x y, hasPathTo next size x y ↔ Path next x y)
include hsearch

/-- **A query answers what a search would**, and keeps only correct answers. -/
theorem Correct.query {start : Option (PathTable α)} (hstart : ∀ t ∈ start, Correct next t)
    (x y : α) :
    (query next size x y start).1 = hasPathTo next size x y ∧
      ∀ t ∈ (PathTable.query next size x y start).2, Correct next t := by
  cases start with
  | none => exact ⟨rfl, nofun⟩
  | some table =>
    have htable : Correct next table := hstart table rfl
    cases hanswer : table.answer? x y with
    | some answer =>
      rw [query_of_answer hanswer]
      refine ⟨?_, hstart⟩
      rw [Bool.eq_iff_iff, hsearch]
      exact htable x y answer hanswer
    | none =>
      rw [query_of_no_answer hanswer]
      refine ⟨rfl, ?_⟩
      rintro t ⟨⟩
      exact htable.keep (hsearch x y)

omit hsearch in
/-- The table after some queries, one after the other. -/
def after (next : α → List α) (size : Nat) (start : Option (PathTable α)) (asked : List (α × α)) :
    Option (PathTable α) :=
  asked.foldl (fun table q => (PathTable.query next size q.1 q.2 table).2) start

/-- A table that has been filled by queries is correct. -/
theorem correct_after {start : Option (PathTable α)} (hstart : ∀ t ∈ start, Correct next t)
    (asked : List (α × α)) : ∀ t ∈ after next size start asked, Correct next t :=
  List.foldlRecOn asked _
    (motive := fun start : Option (PathTable α) => ∀ t ∈ start, Correct next t)
    hstart fun _ h q _ => (Correct.query hsearch h q.1 q.2).2

end PathTable

end Overlap.Graph

namespace Overlap.Ssa.Program

open Graph

/-! ## Paths between blocks -/

section
variable {P : Program} {f : Nat}
  (hsuccs : ∀ b < (P.blocks f).size, ∀ c ∈ P.succs f b, c < (P.blocks f).size)
include hsuccs

/-- The blocks of a function and one more number are closed under successors. -/
theorem succs_subset_cons (a : Nat) :
    ∀ b ∈ a :: P.blockIds f, P.succs f b ⊆ a :: P.blockIds f := by
  intro b _ c hc
  refine List.mem_cons_of_mem _ (List.mem_range.2 ?_)
  by_cases hlt : b < (P.blocks f).size
  · exact hsuccs b hlt c hc
  · -- what is no block has no successors
    simp [succs, hlt] at hc

end

theorem length_cons_blockIds (P : Program) (f a : Nat) :
    (a :: P.blockIds f).length ≤ (P.blocks f).size + 1 := by
  simp [blockIds]

/-- **The search for a path between two blocks.** In a function whose blocks lead to blocks of it,
    let a table be filled by any queries, or let there be none. Then a query for two blocks comes to
    an end, and its answer says whether there is a path of at least one step from the first to the
    second, which for a block and itself is a cycle. It is the answer of a query without a table,
    and a table is correct afterwards. -/
theorem query_decides_path (P : Program) (f : Nat)
    (hsuccs : ∀ b < (P.blocks f).size, ∀ c ∈ P.succs f b, c < (P.blocks f).size)
    {start : Option (PathTable Nat)} (hstart : start = none ∨ start = some ∅)
    (asked : List (Nat × Nat)) (a b : Nat) :
    let size := (P.blocks f).size
    let table := PathTable.after (P.succs f) size start asked
    let result := PathTable.query (P.succs f) size a b table
    (∀ answer, Ends (P.succs f) b [a] [a] answer ↔ answer = result.1) ∧
      (result.1 ↔ Path (P.succs f) a b) ∧
      (a = b → (result.1 ↔
        ∃ c : Cycle Nat, a ∈ c ∧ c.Nodup ∧ c.Chain fun x y => y ∈ P.succs f x)) ∧
      (∀ t ∈ result.2, PathTable.Correct (P.succs f) t) ∧
      result.1 = (PathTable.query (P.succs f) size a b none).1 := by
  have hsearch : ∀ x y, hasPathTo (P.succs f) (P.blocks f).size x y ↔ Path (P.succs f) x y :=
    fun x y => hasPathTo_iff (succs_subset_cons hsuccs x) (length_cons_blockIds P f x)
      (List.mem_cons_self ..)
  have hempty : ∀ t ∈ start, PathTable.Correct (P.succs f) t := by
    intro t ht
    rcases hstart with rfl | rfl
    · cases ht
    · cases ht
      exact PathTable.correct_empty _
  intro size table result
  obtain ⟨hanswer, hcorrect⟩ := PathTable.Correct.query hsearch
    (PathTable.correct_after hsearch hempty asked) a b
  have hpath : result.1 ↔ Path (P.succs f) a b := by
    rw [← hsearch]
    exact iff_of_eq (congrArg (· = true) hanswer)
  refine ⟨fun answer => ?_, hpath, ?_, hcorrect, hanswer⟩
  · rw [hanswer]
    exact ends_hasPathTo_iff (succs_subset_cons hsuccs a) (length_cons_blockIds P f a)
      (List.mem_cons_self ..)
  · rintro rfl
    exact hpath.trans path_self_iff

/-- In the loop with two entries a block leads back to itself, and the block after the loop does not
    lead back to it, whether or not the table knows. -/
theorem query_decides_path_twoEntryLoop :
    (∀ b < (twoEntryLoop.blocks 0).size, ∀ c ∈ twoEntryLoop.succs 0 b,
        c < (twoEntryLoop.blocks 0).size) ∧
      let size := (twoEntryLoop.blocks 0).size
      let table := PathTable.after (twoEntryLoop.succs 0) size (some ∅) [(1, 1), (0, 0), (2, 3)]
      (PathTable.query (twoEntryLoop.succs 0) size 1 1 table).1 = true ∧
        (PathTable.query (twoEntryLoop.succs 0) size 3 1 table).1 = false ∧
        (PathTable.query (twoEntryLoop.succs 0) size 3 1 none).1 = false := by
  have hsuccs : ∀ b < (twoEntryLoop.blocks 0).size, ∀ c ∈ twoEntryLoop.succs 0 b,
      c < (twoEntryLoop.blocks 0).size := by decide
  have hloop : Path (twoEntryLoop.succs 0) 1 1 := ⟨2, by decide, .of_mem (by decide)⟩
  have hback : ¬ Path (twoEntryLoop.succs 0) 3 1 := by
    rintro ⟨b, hb, -⟩
    exact absurd hb List.not_mem_nil
  have hquery := query_decides_path twoEntryLoop 0 hsuccs (.inr rfl) [(1, 1), (0, 0), (2, 3)]
  have hdone := Bool.eq_false_iff.2 (mt (hquery 3 1).2.1.1 hback)
  exact ⟨hsuccs, (hquery 1 1).2.1.2 hloop, hdone, (hquery 3 1).2.2.2.2.symm.trans hdone⟩

end Overlap.Ssa.Program
