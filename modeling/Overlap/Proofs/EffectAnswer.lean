/-
  Answering questions about effects is a depth-first evaluation.

  The questions about effects form a graph: a question has the effects that its
  answer contains as such (`Source.constant`), and arcs to the questions whose
  answers it joins (`Source.subqueries`).

  * effects are ordered by inclusion, with `union` as their join;
  * `answer_gathers`: what `Source.answer` does is an evaluation of this graph
    (`Gathers`): a part of an answer is a constant, another question, or all
    uses of a value, of which it drops the rest at `modRef`;
  * `questions_closed`: all arcs lead to one of the finitely many questions
    about the program, so that `Source.ask` never runs out of fuel
    (`answer_ask`).
-/
import Overlap.Effect.Query
import Overlap.Proofs.Gather
import Overlap.Proofs.Program

namespace Overlap

open Ssa Graph Function

namespace Effect

/-! ## The order of effects -/

instance : LE Effect := ⟨Subset⟩

instance (a b : Effect) : Decidable (a ≤ b) := inferInstanceAs (Decidable (a.Subset b))

instance : PartialOrder Effect where
  le_refl _ := ⟨id, id⟩
  le_trans _ _ _ hab hbc := ⟨hbc.1 ∘ hab.1, hbc.2 ∘ hab.2⟩
  le_antisymm := by
    rintro ⟨ar, am⟩ ⟨br, bm⟩ ⟨h₁, h₂⟩ ⟨h₃, h₄⟩
    cases ar <;> cases am <;> cases br <;> cases bm <;> simp_all

instance : SemilatticeSup Effect where
  sup := union
  le_sup_left a b := ⟨fun h => by simp [union, h], fun h => by simp [union, h]⟩
  le_sup_right a b := ⟨fun h => by simp [union, h], fun h => by simp [union, h]⟩
  sup_le a b c hac hbc := by
    refine ⟨fun h => ?_, fun h => ?_⟩ <;> simp only [union, Bool.or_eq_true] at h
    · exact h.elim hac.1 hbc.1
    · exact h.elim hac.2 hbc.2

instance : BoundedOrder Effect where
  top := modRef
  le_top _ := ⟨fun _ => rfl, fun _ => rfl⟩
  bot := none
  bot_le _ := ⟨nofun, nofun⟩

theorem union_eq_sup (a b : Effect) : a.union b = a ⊔ b := rfl

namespace Source

variable (S : Source)

/-! ## The graph of questions -/

/-- The questions that a part of an answer asks. -/
def partQueries : Part → List Query
  | .const _ => []
  | .sub q => [q]
  | .uses v => (S.program.referrers v).map (.use · v)

/-- The effect that a part of an answer has without asking. -/
def partConstant : Part → Effect
  | .const e => e
  | _ => .none

/-- The questions that the answer to a question asks. -/
def subqueries (q : Query) : List Query := (S.parts q).flatMap S.partQueries

/-- The effect that some parts of an answer have without asking. -/
def constants (ps : List Part) : Effect := ps.foldr (fun p e => (partConstant p).union e) .none

/-- The effect that the answer to a question has without asking. -/
def constant (q : Query) : Effect := constants (S.parts q)

/-! ## Answering evaluates the graph -/

/-- What a way to answer questions finds is an evaluation of their graph. -/
def Evaluates (ask : Query → EffectMemo → Option (Effect × EffectMemo)) : Prop :=
  ∀ q memo e memo', ask q memo = some (e, memo') →
    Gathers S.subqueries S.constant (.ask q) (entries memo) e (entries memo')

variable {S} {ask : Query → EffectMemo → Option (Effect × EffectMemo)} {q : Query}

/-- The uses of a value are the next questions of a sweep. -/
theorem answerUses_gathers (hask : S.Evaluates ask) {v : Value} {ls : List Loc} {g g' : Effect}
    {memo memo' : EffectMemo} (h : answerUses ask v ls g memo = some (g', memo'))
    {rest : List Query} {b e : Effect} {t' : Query → Option Effect}
    (hrest : Gathers S.subqueries S.constant (.sweep q rest (b ⊔ g')) (entries memo') e t') :
    Gathers S.subqueries S.constant (.sweep q (ls.map (.use · v) ++ rest) (b ⊔ g)) (entries memo)
      e t' := by
  induction ls generalizing g memo with
  | nil =>
    cases h
    exact hrest
  | cons l ls ih =>
    simp only [answerUses, Option.bind_eq_bind, Option.bind_eq_some_iff] at h
    obtain ⟨⟨found, memo₁⟩, hl, h⟩ := h
    refine .sub (hask _ _ _ _ hl) ?_
    rw [sup_assoc, ← union_eq_sup g]
    split_ifs at h with hstop
    · cases h
      rw [hstop] at hrest ⊢
      change Gathers _ _ (.sweep q _ (b ⊔ ⊤)) _ _ _ at hrest
      change Gathers _ _ (.sweep q _ (b ⊔ ⊤)) _ _ _
      rw [sup_top_eq] at hrest ⊢
      exact hrest.skips
    · exact ih h

/-- The parts of an answer are swept one after the other. -/
theorem answerParts_gathers (hask : S.Evaluates ask) {ps : List Part} {a e : Effect}
    {memo memo' : EffectMemo} (h : S.answerParts ask q ps a memo = some (e, memo')) :
    Gathers S.subqueries S.constant (.sweep q (ps.flatMap S.partQueries) (a ⊔ constants ps))
      (entries memo) e (entries memo') := by
  induction ps generalizing a memo with
  | nil =>
    cases h
    change Gathers _ _ (.sweep q [] (e ⊔ ⊥)) _ _ _
    rw [sup_bot_eq]
    exact .done
  | cons p ps ih =>
    simp only [answerParts, Option.bind_eq_bind, Option.bind_eq_some_iff] at h
    obtain ⟨⟨found, memo₁⟩, hp, h⟩ := h
    have hrest : Gathers S.subqueries S.constant
        (.sweep q (ps.flatMap S.partQueries) (a ⊔ found ⊔ constants ps)) (entries memo₁) e
        (entries memo') := by
      have := ih h
      rw [union_eq_sup] at this
      split_ifs at this with hpub
      · rw [entries_insert] at this
        exact .publish le_sup_left this
      · exact this
    change Gathers _ _ (.sweep q (S.partQueries p ++ _) (a ⊔ (partConstant p ⊔ constants ps))) _ _ _
    cases p with
    | const c =>
      cases hp
      rw [← sup_assoc]
      exact hrest
    | sub r =>
      refine .sub (hask _ _ _ _ hp) ?_
      change Gathers _ _ (.sweep q _ (a ⊔ (⊥ ⊔ constants ps) ⊔ found)) _ _ _
      rw [bot_sup_eq, sup_right_comm]
      exact hrest
    | uses v =>
      have := answerUses_gathers (b := a ⊔ constants ps) hask hp
        (by rw [sup_right_comm]; exact hrest)
      change Gathers _ _ (.sweep q _ (a ⊔ constants ps ⊔ ⊥)) _ _ _ at this
      change Gathers _ _ (.sweep q _ (a ⊔ (⊥ ⊔ constants ps))) _ _ _
      rw [sup_bot_eq] at this
      rw [bot_sup_eq]
      exact this

/-- **Answering a question evaluates the graph of questions.** -/
theorem answer_gathers (fuel : Nat) : S.Evaluates (S.answer fuel) := by
  induction fuel with
  | zero => rintro q memo e memo' ⟨⟩
  | succ fuel ih =>
    intro q memo e memo' h
    unfold answer at h
    split at h
    · rename_i e₀ he₀
      cases h
      exact .known he₀
    · rename_i hq
      simp only [Option.bind_eq_bind, Option.bind_eq_some_iff] at h
      obtain ⟨⟨e₁, memo₁⟩, h₁, h⟩ := h
      cases h
      have hsweep := answerParts_gathers ih h₁
      change Gathers _ _ (.sweep q _ (⊥ ⊔ S.constant q)) _ _ _ at hsweep
      rw [bot_sup_eq, entries_insert] at hsweep
      rw [entries_insert]
      exact .visit hq bot_le hsweep

/-! ## The questions about a program -/

variable {r : Query} {P : Program} {l : Loc} {v : Value} {op : Op} {fn : Function} {f i : Nat}

theorem mem_questions_of_function (hfn : P.function? f = some fn)
    (hq : q ∈ functionQuestions P f fn) : q ∈ questions P := by
  refine List.mem_flatMap.2 ⟨(fn, f), ?_, hq⟩
  simpa [List.mem_zipIdx_iff_getElem?, Program.function?] using hfn

theorem mem_questions_of_instr (hop : P.op? l = some op) (hq : q ∈ instrQuestions P l) :
    q ∈ questions P := by
  obtain ⟨fn, hfn⟩ := Program.exists_function_of_op hop
  refine mem_questions_of_function hfn (List.mem_append_right _ ?_)
  exact List.mem_flatMap.2 ⟨l, Program.mem_locs_of_op hop, hq⟩

theorem cell_mem_questions (hop : P.op? l = some op) : .cell (.result l) ∈ questions P :=
  mem_questions_of_instr hop (List.mem_cons_self ..)

theorem use_mem_questions (hop : P.op? l = some op) (hv : v ∈ op.operands) :
    .use l v ∈ questions P := by
  refine mem_questions_of_instr hop ?_
  simp [instrQuestions, hop, hv]

theorem capture_mem_questions {bindings : List Value}
    (hop : P.op? l = some (.makeClosure f bindings)) (hi : i < bindings.length) :
    .value (.freeVar f i) ∈ questions P := by
  refine mem_questions_of_instr hop ?_
  simp [instrQuestions, hop, hi]

theorem lt_of_mem_positions {vs : List Value} (h : i ∈ positions vs v) : i < vs.length := by
  unfold positions at h
  obtain ⟨⟨w, j⟩, hj, h⟩ := List.mem_filterMap.1 h
  rw [List.mem_zipIdx_iff_getElem?] at hj
  dsimp only at h
  split_ifs at h
  cases h
  exact (List.getElem?_eq_some_iff.1 hj).1

theorem sub_mem_paramParts (h : .sub r ∈ S.paramParts f i) : r ∈ questions S.program := by
  unfold paramParts at h
  split at h
  · rename_i fn hfn
    split_ifs at h with _ hi
    · simp at h
    · obtain rfl : r = .value (.param f i) := by simpa using h
      exact mem_questions_of_function hfn (by simp [functionQuestions, hi])
    · simp at h
  · simp at h

theorem sub_mem_freeVarParts (h : .sub r ∈ S.freeVarParts f i) : r ∈ questions S.program := by
  unfold freeVarParts at h
  split at h
  · rename_i fn hfn
    split_ifs at h with _ hi
    · simp at h
    · simp at h
    all_goals
      obtain rfl := Part.sub.inj (List.mem_singleton.1 h)
      exact mem_questions_of_function hfn (by simp [functionQuestions]; omega)
  · simp at h

theorem sub_mem_argParts {c : Call} (h : .sub r ∈ S.argParts l c i) : r ∈ questions S.program := by
  unfold argParts at h
  split at h
  · simp at h
  · split at h
    · exact sub_mem_paramParts h
    · simp at h

theorem sub_mem_callParts {c : Call} (h : .sub r ∈ S.callParts l c v) :
    r ∈ questions S.program := by
  unfold callParts at h
  rcases List.mem_append.1 h with h | h
  · obtain ⟨⟨arg, i⟩, -, h⟩ := List.mem_flatMap.1 h
    dsimp only at h
    split_ifs at h
    · exact sub_mem_argParts h
    · simp at h
  · split_ifs at h <;> simp at h

theorem sub_mem_useParts_cases (h : .sub r ∈ S.useParts l v) :
    (∃ addr comment heap, S.program.definition? addr = some (.alloc comment heap) ∧
      r = .cell addr) ∨
    (∃ c, .sub r ∈ S.callParts l c v) ∨
    ∃ f bindings, S.program.op? l = some (.makeClosure f bindings) ∧
      ∃ i ∈ positions bindings v, r = .value (.freeVar f i) := by
  unfold useParts at h
  dsimp only at h
  split at h
  case h_3 addr val hop =>
    split_ifs at h with _ hval
    · simp at h
    · split at h
      · rename_i comment heap hdef
        obtain rfl := Part.sub.inj (List.mem_singleton.1 h)
        exact Or.inl ⟨addr, comment, heap, hdef, rfl⟩
      · simp at h
    · split at h <;> simp at h
  case h_6 c hop => exact Or.inr (Or.inl ⟨c, h⟩)
  case h_17 f bindings hop =>
    obtain ⟨i, hi, h⟩ := List.mem_map.1 h
    exact Or.inr (Or.inr ⟨f, bindings, hop, i, hi, (Part.sub.inj h).symm⟩)
  all_goals grind [comparisonParts]

theorem sub_mem_useParts (h : .sub r ∈ S.useParts l v) : r ∈ questions S.program := by
  rcases sub_mem_useParts_cases h with ⟨addr, comment, heap, hdef, rfl⟩ | ⟨c, h⟩ |
    ⟨f, bindings, hop, i, hi, rfl⟩
  · cases addr with
    | result l' => exact cell_mem_questions hdef
    | _ => cases hdef
  · exact sub_mem_callParts h
  · exact capture_mem_questions hop (lt_of_mem_positions hi)

theorem sub_mem_cellUseParts (h : .sub r ∈ S.cellUseParts v l) : r ∈ questions S.program := by
  unfold cellUseParts at h
  split at h
  · split_ifs at h <;> simp at h
  · split_ifs at h
    · obtain ⟨i, -, h⟩ := List.mem_flatMap.1 h
      exact sub_mem_freeVarParts h
    · simp at h
  · simp at h

theorem sub_mem_parts (h : .sub r ∈ S.parts q) : r ∈ questions S.program := by
  cases q with
  | value v => simp [parts] at h
  | use l v => exact sub_mem_useParts h
  | cell v =>
    obtain ⟨l, -, h⟩ := List.mem_flatMap.1 h
    exact sub_mem_cellUseParts h

/-- **Questions lead to questions about the program.** -/
theorem questions_closed (h : r ∈ S.subqueries q) : r ∈ questions S.program := by
  obtain ⟨p, hp, hr⟩ := List.mem_flatMap.1 h
  cases p with
  | const c => simp [partQueries] at hr
  | sub r' =>
    obtain rfl := List.mem_singleton.1 hr
    exact sub_mem_parts hp
  | uses v =>
    obtain ⟨l, hl, rfl⟩ := List.mem_map.1 hr
    obtain ⟨op, hop, hv⟩ := Program.operand_of_mem_referrers hl
    exact use_mem_questions hop hv

/-! ## Answers do not run out of fuel -/

/-- The number of questions without an answer in a table. -/
def unanswered (S : Source) (memo : EffectMemo) : Nat :=
  Gathers.pending (questions S.program) (entries memo)

theorem unanswered_insert_le (memo : EffectMemo) (q : Query) (e : Effect) :
    S.unanswered (memo.insert q e) ≤ S.unanswered memo := by
  unfold unanswered
  rw [entries_insert]
  exact Gathers.pending_update_le ..

theorem unanswered_insert_lt {memo : EffectMemo} {e : Effect} (hq : q ∈ questions S.program)
    (hmemo : memo[q]? = .none) : S.unanswered (memo.insert q e) < S.unanswered memo := by
  unfold unanswered
  rw [entries_insert]
  exact Gathers.pending_update_lt hq hmemo

/-- A way to answer questions answers those about the program, as long as at most `n` of them
    have no answer yet. -/
def Total (S : Source) (ask : Query → EffectMemo → Option (Effect × EffectMemo)) (n : Nat) : Prop :=
  ∀ r ∈ questions S.program, ∀ memo, S.unanswered memo ≤ n →
    ∃ e memo', ask r memo = some (e, memo') ∧ S.unanswered memo' ≤ n

variable {n : Nat} {memo : EffectMemo}

theorem answerUses_total (hask : S.Total ask n) {ls : List Loc} {g : Effect}
    (hls : ∀ l ∈ ls, .use l v ∈ questions S.program) (hn : S.unanswered memo ≤ n) :
    ∃ e memo', answerUses ask v ls g memo = some (e, memo') ∧ S.unanswered memo' ≤ n := by
  induction ls generalizing g memo with
  | nil => exact ⟨g, memo, rfl, hn⟩
  | cons l ls ih =>
    obtain ⟨found, memo₁, hl, hn₁⟩ := hask _ (hls l (List.mem_cons_self ..)) memo hn
    simp only [answerUses, hl, Option.bind_eq_bind, Option.bind_some]
    split_ifs
    · exact ⟨_, _, rfl, hn₁⟩
    · exact ih (fun l' hl' => hls l' (List.mem_cons_of_mem _ hl')) hn₁

theorem answerPart_total (hask : S.Total ask n) {p : Part}
    (hp : ∀ r ∈ S.partQueries p, r ∈ questions S.program) (hn : S.unanswered memo ≤ n) :
    ∃ e memo', S.answerPart ask memo p = some (e, memo') ∧ S.unanswered memo' ≤ n := by
  cases p with
  | const c => exact ⟨c, memo, rfl, hn⟩
  | sub r => exact hask r (hp r (List.mem_singleton_self r)) memo hn
  | uses v => exact answerUses_total hask (fun l hl => hp _ (List.mem_map_of_mem hl)) hn

theorem answerParts_total (hask : S.Total ask n) {ps : List Part} {a : Effect}
    (hps : ∀ p ∈ ps, ∀ r ∈ S.partQueries p, r ∈ questions S.program)
    (hn : S.unanswered memo ≤ n) :
    ∃ e memo', S.answerParts ask q ps a memo = some (e, memo') ∧ S.unanswered memo' ≤ n := by
  induction ps generalizing a memo with
  | nil => exact ⟨a, memo, rfl, hn⟩
  | cons p ps ih =>
    obtain ⟨found, memo₁, hp, hn₁⟩ := answerPart_total hask (hps p (List.mem_cons_self ..)) hn
    simp only [answerParts, hp, Option.bind_eq_bind, Option.bind_some]
    refine ih (fun p' hp' => hps p' (List.mem_cons_of_mem _ hp')) ?_
    split_ifs
    · exact (unanswered_insert_le ..).trans hn₁
    · exact hn₁

/-- A question without an answer is answered with the fuel that its parts need and one more. -/
theorem answer_of_parts {fuel : Nat} (hask : S.Total (S.answer fuel) n) (hq : memo[q]? = .none)
    (hn : S.unanswered (memo.insert q .none) ≤ n) :
    ∃ e memo', S.answer (fuel + 1) q memo = some (e, memo') ∧ S.unanswered memo' ≤ n := by
  have hparts : ∀ p ∈ S.parts q, ∀ r ∈ S.partQueries p, r ∈ questions S.program :=
    fun p hp r hr => questions_closed (List.mem_flatMap.2 ⟨p, hp, hr⟩)
  obtain ⟨e, memo₁, h₁, hn₁⟩ := answerParts_total (q := q) (a := .none) hask hparts hn
  refine ⟨e, memo₁.insert q e, ?_, (unanswered_insert_le ..).trans hn₁⟩
  unfold answer
  simp [hq, h₁]

theorem answer_total (fuel : Nat) (hn : n < fuel) : S.Total (S.answer fuel) n := by
  induction fuel generalizing n with
  | zero => omega
  | succ fuel ih =>
    intro q hq memo hmemo
    cases hqm : memo[q]? with
    | some e =>
      refine ⟨e, memo, ?_, hmemo⟩
      unfold answer
      simp [hqm]
    | none =>
      have hlt := unanswered_insert_lt (e := .none) hq hqm
      obtain ⟨e, memo', h, hn'⟩ := answer_of_parts (n := n - 1) (ih (by omega)) hqm (by omega)
      exact ⟨e, memo', h, by omega⟩

/-- **Answers do not run out of fuel.** -/
theorem answer_ask (S : Source) (q : Query) (memo : EffectMemo) :
    S.answer ((questions S.program).length + 2) q memo = some (S.ask q memo) := by
  unfold ask
  cases hqm : memo[q]? with
  | some e =>
    unfold answer
    simp [hqm]
  | none =>
    have hn : S.unanswered (memo.insert q .none) ≤ (questions S.program).length :=
      List.countP_le_length
    obtain ⟨e, memo', h, -⟩ := answer_of_parts (answer_total _ (Nat.lt_succ_self _)) hqm hn
    simp [h]

/-- Asking evaluates the graph of questions. -/
theorem ask_gathers (S : Source) (q : Query) (memo : EffectMemo) :
    Gathers S.subqueries S.constant (.ask q) (entries memo) (S.ask q memo).1
      (entries (S.ask q memo).2) :=
  answer_gathers _ q memo _ _ (answer_ask S q memo)

end Source

end Effect

end Overlap
