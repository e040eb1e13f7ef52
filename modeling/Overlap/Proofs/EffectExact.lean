/-
  What the answers about effects are.

  The effect of a question (`Source.leastEffect`) is the union of the constant
  effects of all questions that a chain of questions leads to; it is the least
  solution of the equations of the answers (`leastEffect_isLeast`).

  * `Source.Question` are the questions of the analyses, and `Source.replies`
    the table after some of them;
  * `le_ask_iff`: the answer with any table reads (writes) if and only if a
    chain of questions which ends at the first one in the table does
    (`Source.Finds`);
  * `argumentEffect_exact`: the answer about a parameter with an empty table is
    its least effect, and no answer with any table is more than that;
  * `argumentEffect_eq_fresh_iff`: an answer after other questions is the one
    without them if and only if they left no read and no write out of the
    chains, as is the case where no cycle of questions is reached; in
    `argumentEffect_after_recursion` they do leave one out.
-/
import Overlap.Proofs.EffectAnswer

namespace Overlap

open Ssa Graph Function

namespace Effect

namespace Source

variable {S : Source} {q : Query} {memo : EffectMemo}

/-! ## Least effects -/

section
variable (S)

open Classical in
/-- The union of the constant effects of all questions reachable from `q`. -/
noncomputable def leastEffect (q : Query) : Effect where
  ref := decide (∃ r, Reaches S.subqueries q r ∧ (S.constant r).ref)
  mod := decide (∃ r, Reaches S.subqueries q r ∧ (S.constant r).mod)

/-- `F` solves the equations of the answers: the effect of a question is the union of its
    constant effect and of those of the questions it asks. -/
def Solves (F : Query → Effect) : Prop :=
  ∀ q, IsLUB ({S.constant q} ∪ {e | ∃ r ∈ S.subqueries q, F r = e}) (F q)

end

theorem leastEffect_ref_iff :
    (S.leastEffect q).ref ↔ ∃ r, Reaches S.subqueries q r ∧ (S.constant r).ref := by
  simp [leastEffect]

theorem leastEffect_mod_iff :
    (S.leastEffect q).mod ↔ ∃ r, Reaches S.subqueries q r ∧ (S.constant r).mod := by
  simp [leastEffect]

theorem leastEffect_isLUB (q : Query) :
    IsLUB {e | ∃ r, Reaches S.subqueries q r ∧ S.constant r = e} (S.leastEffect q) := by
  refine ⟨?_, fun b hb => ?_⟩
  · rintro e ⟨r, hr, rfl⟩
    exact ⟨fun h => leastEffect_ref_iff.2 ⟨r, hr, h⟩, fun h => leastEffect_mod_iff.2 ⟨r, hr, h⟩⟩
  · have hle : ∀ r, Reaches S.subqueries q r → S.constant r ≤ b := fun r hr => hb ⟨r, hr, rfl⟩
    refine ⟨fun h => ?_, fun h => ?_⟩
    · obtain ⟨r, hr, h⟩ := leastEffect_ref_iff.1 h
      exact (hle r hr).1 h
    · obtain ⟨r, hr, h⟩ := leastEffect_mod_iff.1 h
      exact (hle r hr).2 h

theorem constant_le_leastEffect {r : Query} (h : Reaches S.subqueries q r) :
    S.constant r ≤ S.leastEffect q := (leastEffect_isLUB q).1 ⟨r, h, rfl⟩

theorem leastEffect_le_of_mem {r : Query} (h : r ∈ S.subqueries q) :
    S.leastEffect r ≤ S.leastEffect q := by
  refine (leastEffect_isLUB r).2 ?_
  rintro e ⟨r', hr', rfl⟩
  exact constant_le_leastEffect (.step h hr')

theorem Solves.constant_le {F : Query → Effect} (hF : S.Solves F) {r : Query}
    (h : Reaches S.subqueries q r) : S.constant r ≤ F q := by
  induction h with
  | refl q => exact (hF q).1 (Or.inl rfl)
  | @step q r r' hr _ ih => exact ih.trans ((hF q).1 (Or.inr ⟨r, hr, rfl⟩))

/-- **Least effects are the least solution of the equations.** -/
theorem leastEffect_isLeast (S : Source) : IsLeast {F | S.Solves F} S.leastEffect := by
  refine ⟨fun q => ⟨?_, fun b hb => ?_⟩, fun F hF q => ?_⟩
  · rintro e (rfl | ⟨r, hr, rfl⟩)
    · exact constant_le_leastEffect (.refl q)
    · exact leastEffect_le_of_mem hr
  · refine (leastEffect_isLUB q).2 ?_
    rintro e ⟨r, hr, rfl⟩
    cases hr with
    | refl => exact hb (Or.inl rfl)
    | step hr hr' => exact (constant_le_leastEffect hr').trans (hb (Or.inr ⟨_, hr, rfl⟩))
  · refine (leastEffect_isLUB q).2 ?_
    rintro e ⟨r, hr, rfl⟩
    exact hF.constant_le hr

/-! ## Single reads and writes -/

/-- A single read and a single write. -/
def atoms : List Effect := [.readOnly, .writeOnly]

theorem le_iff_atoms {a b : Effect} : a ≤ b ↔ ∀ x ∈ atoms, x ≤ a → x ≤ b := by
  refine ⟨fun h x _ hx => hx.trans h, fun h => ⟨fun hr => ?_, fun hm => ?_⟩⟩
  · exact (h .readOnly (by decide) ⟨fun _ => hr, nofun⟩).1 rfl
  · exact (h .writeOnly (by decide) ⟨nofun, fun _ => hm⟩).2 rfl

/-- A single read or write is in a union if and only if it is in one of its members. -/
theorem atom_le_isLUB_iff {s : Set Effect} {e x : Effect} (h : IsLUB s e) (hx : x ∈ atoms) :
    x ≤ e ↔ ∃ b ∈ s, x ≤ b := by
  refine ⟨fun hxe => ?_, fun ⟨b, hb, hxb⟩ => hxb.trans (h.1 hb)⟩
  by_contra hnone
  push Not at hnone
  -- the members without the read (the write) are at most the write (the read)
  rcases List.mem_pair.1 hx with rfl | rfl
  · have : e ≤ .writeOnly := h.2 fun b hb =>
      ⟨fun hr => absurd ⟨fun _ => hr, nofun⟩ (hnone b hb), fun _ => rfl⟩
    exact absurd (hxe.trans this) (by decide)
  · have : e ≤ .readOnly := h.2 fun b hb =>
      ⟨fun _ => rfl, fun hm => absurd ⟨nofun, fun _ => hm⟩ (hnone b hb)⟩
    exact absurd (hxe.trans this) (by decide)

/-! ## Answers with a table -/

/-- A chain of questions that ends at the first one with an answer in the table leads from `q` to
    a question that is known to have the effect `x`. -/
def Finds (S : Source) (memo : EffectMemo) (q : Query) (x : Effect) : Prop :=
  ∃ r, Reaches (Gathers.openNext S.subqueries (entries memo)) q r ∧
    x ≤ Gathers.knownOr S.constant (entries memo) r

theorem finds_empty_iff {x : Effect} :
    S.Finds ∅ q x ↔ ∃ r, Reaches S.subqueries q r ∧ x ≤ S.constant r := by
  simp only [Finds, entries_empty, Gathers.openNext_empty, Gathers.knownOr, Option.getD_none]

/-- **Answers hold what is found on chains to the first known answers.** -/
theorem le_ask_iff {x : Effect} (hx : x ∈ atoms) : x ≤ (S.ask q memo).1 ↔ S.Finds memo q x := by
  rw [atom_le_isLUB_iff (ask_gathers S q memo).isLUB hx]
  constructor
  · rintro ⟨_, ⟨r, hr, rfl⟩, hxr⟩
    exact ⟨r, hr, hxr⟩
  · rintro ⟨r, hr, hxr⟩
    exact ⟨_, ⟨r, hr, rfl⟩, hxr⟩

/-- The answer with an empty table is the least effect. -/
theorem ask_empty (S : Source) (q : Query) : (S.ask q ∅).1 = S.leastEffect q := by
  have h := ask_gathers S q ∅
  rw [entries_empty] at h
  exact h.isLUB_of_empty.unique (leastEffect_isLUB q)

/-! ## The questions of the analyses -/

/-- A question of an analysis: the effect of a function on a parameter, of a closure on a captured
    variable, or of a call site on an argument. -/
inductive Question where
  | argument (f : Option Nat) (index : Int)
  | freeVar (f : Option Nat) (index : Int)
  | callArgument (site : Loc) (index : Int)
deriving DecidableEq, Repr

/-- The answer to a question of an analysis, and the table afterwards. -/
def reply (S : Source) : Question → EffectMemo → Effect × EffectMemo
  | .argument f i => S.argumentEffect f i
  | .freeVar f i => S.freeVarEffect f i
  | .callArgument site i => S.callArgumentEffect site i

/-- The table after some questions, the first one asked with an empty table. -/
def replies (S : Source) (asked : List Question) : EffectMemo :=
  asked.foldl (fun memo Q => (S.reply Q memo).2) ∅

/-- The question that parts of an answer consist of. -/
def soleQuery? : List Part → Option Query
  | [.sub q] => some q
  | _ => .none

/-- The question about the `index`-th parameter of `f`, if it has a body and such a parameter. -/
def argumentQuery? (S : Source) (f : Option Nat) (index : Int) : Option Query :=
  if index < 0 then .none else f.bind fun f => soleQuery? (S.paramParts f index.toNat)

/-- The question in the graph that a question of an analysis is about, if any. -/
def query? (S : Source) : Question → Option Query
  | .argument f i => S.argumentQuery? f i
  | .freeVar f i =>
    if i < 0 then .none else f.bind fun f => soleQuery? (S.freeVarParts f i.toNat)
  | .callArgument site i =>
    if ((S.program.call? site).bind (·.builtin?)).isSome then .none
    else S.argumentQuery? (S.resolve site) i

theorem askPart_of_soleQuery {ps : List Part} (h : soleQuery? ps = some q) :
    S.askPart ps memo = S.ask q memo := by
  unfold soleQuery? at h
  split at h
  · cases h; rfl
  · cases h

theorem askPart_of_no_query {ps : List Part} (h : soleQuery? ps = .none) :
    S.askPart ps memo = ((S.askPart ps ∅).1, memo) := by
  unfold askPart
  split
  · rfl
  · simp [soleQuery?] at h
  · rfl

theorem argumentEffect_of_query {f : Option Nat} {i : Int} (h : S.argumentQuery? f i = some q) :
    S.argumentEffect f i memo = S.ask q memo := by
  unfold argumentQuery? at h
  split_ifs at h with hi
  obtain ⟨f, rfl, h⟩ := Option.bind_eq_some_iff.1 h
  simp only [argumentEffect, hi, if_false]
  exact askPart_of_soleQuery h

theorem argumentEffect_of_no_query {f : Option Nat} {i : Int}
    (h : S.argumentQuery? f i = .none) :
    S.argumentEffect f i memo = ((S.argumentEffect f i ∅).1, memo) := by
  unfold argumentQuery? at h
  cases f with
  | none => rfl
  | some f =>
    unfold argumentEffect
    by_cases hi : i < 0
    · simp [hi]
    · simp only [hi, if_false] at h ⊢
      exact askPart_of_no_query h

/-- A question of an analysis is answered like the one in the graph it is about. -/
theorem reply_of_query {Q : Question} (h : S.query? Q = some q) : S.reply Q memo = S.ask q memo := by
  cases Q with
  | argument f i => exact argumentEffect_of_query h
  | freeVar f i =>
    simp only [query?] at h
    split_ifs at h with hi
    obtain ⟨f, rfl, h⟩ := Option.bind_eq_some_iff.1 h
    simp only [reply, freeVarEffect, hi, if_false]
    exact askPart_of_soleQuery h
  | callArgument site i =>
    simp only [query?] at h
    split_ifs at h with hb
    simp only [Option.not_isSome_iff_eq_none] at hb
    simp only [reply, callArgumentEffect, hb]
    exact argumentEffect_of_query h

/-- A question of an analysis that is about none of the graph has a fixed answer. -/
theorem reply_of_no_query {Q : Question} (h : S.query? Q = .none) :
    S.reply Q memo = ((S.reply Q ∅).1, memo) := by
  cases Q with
  | argument f i => exact argumentEffect_of_no_query h
  | freeVar f i =>
    cases f with
    | none => rfl
    | some f =>
      simp only [query?] at h
      simp only [reply, freeVarEffect]
      by_cases hi : i < 0
      · simp [hi]
      · simp only [hi, if_false] at h ⊢
        exact askPart_of_no_query h
  | callArgument site i =>
    simp only [query?] at h
    simp only [reply, callArgumentEffect]
    cases hb : (S.program.call? site).bind (·.builtin?) with
    | some name => rfl
    | none => exact argumentEffect_of_no_query (by simpa [hb] using h)

/-- What holds of the empty table and is kept by every question holds of the table after any
    questions. -/
theorem replies_induction {motive : EffectMemo → Prop} (hempty : motive ∅)
    (hask : ∀ q memo, motive memo → motive (S.ask q memo).2) (asked : List Question) :
    motive (S.replies asked) := by
  refine List.foldlRecOn asked _ hempty fun memo h Q _ => ?_
  cases hQ : S.query? Q with
  | some q => rw [reply_of_query hQ]; exact hask q memo h
  | none => rw [reply_of_no_query hQ]; exact h

theorem replies_sound (asked : List Question) :
    Gathers.Sound S.subqueries S.constant (entries (S.replies asked)) := by
  refine replies_induction ?_ (fun q memo h => (ask_gathers S q memo).sound h) asked
  rw [entries_empty]
  exact nofun

theorem replies_calmComplete (asked : List Question) :
    Gathers.CalmComplete S.subqueries S.constant (fun _ => False) (entries (S.replies asked)) := by
  refine replies_induction
    (motive := fun memo => Gathers.CalmComplete S.subqueries S.constant _ (entries memo))
    ?_ (fun q memo h => ?_) asked
  · rw [entries_empty]
    exact nofun
  · exact ((ask_gathers S q memo).complete_of_calm (by simp) (by rintro x ⟨⟩) h).1

/-- The union of the constant effects that a question of an analysis is about; its fixed answer if
    it is about no question of the graph. -/
noncomputable def leastReply (S : Source) (Q : Question) : Effect :=
  match S.query? Q with
  | some q => S.leastEffect q
  | .none => (S.reply Q ∅).1

theorem reply_empty (Q : Question) : (S.reply Q ∅).1 = S.leastReply Q := by
  unfold leastReply
  cases hQ : S.query? Q with
  | some q => rw [reply_of_query hQ]; exact ask_empty S q
  | none => rfl

/-- Answers after other questions have no effect that is not there. -/
theorem reply_le (asked : List Question) (Q : Question) :
    (S.reply Q (S.replies asked)).1 ≤ S.leastReply Q := by
  unfold leastReply
  cases hQ : S.query? Q with
  | some q =>
    have h := ask_gathers S q (S.replies asked)
    rw [reply_of_query hQ]
    exact h.sound (replies_sound asked) q _ h.ask_entry _ fun r hr => constant_le_leastEffect hr
  | none => rw [reply_of_no_query hQ]

/-- Answers are complete where no cycle of questions is reached. -/
theorem ask_of_calm (asked : List Question) (hcalm : Calm S.subqueries q) :
    (S.ask q (S.replies asked)).1 = S.leastEffect q := by
  have h := ask_gathers S q (S.replies asked)
  have hle : (S.ask q (S.replies asked)).1 ≤ S.leastEffect q :=
    h.sound (replies_sound asked) q _ h.ask_entry _ fun r hr => constant_le_leastEffect hr
  refine le_antisymm hle ((leastEffect_isLUB q).2 ?_)
  rintro e ⟨r, hr, rfl⟩
  have hcomplete := h.complete_of_calm (by simp) (by rintro x ⟨⟩) (replies_calmComplete asked)
  exact hcomplete.2.2 q (List.mem_singleton_self q) hcalm r hr

/-! ## Two functions that call each other -/

/-- A function of one block with one parameter, a pointer. -/
def takesPointer (name : String) (instrs : Array Instr) : Function :=
  straightLine name #[⟨"p", .pointer (.basic "int")⟩] instrs

/-- The call by which `f` passes its parameter on to `g`. -/
def passOn (f g : Nat) : Instr := callTo 0 g [.param f 0]

/-- `visit` passes its parameter to `again` and then writes through it; `again` passes its
    parameter back to `visit`. -/
def visitAgain : Source where
  program := smallProgram #[] #[
    takesPointer "visit" #[passOn 0 1, ⟨.store (.param 0 0) (.const 0), .none, .none⟩,
      ⟨.ret [], .none, .none⟩],
    takesPointer "again" #[passOn 1 0, ⟨.ret [], .none, .none⟩]]
  resolve
    | ⟨0, 0, 0⟩ => some 1
    | ⟨1, 0, 0⟩ => some 0
    | _ => .none
  unknown := .none

/-! ## Main statements -/

/-- **The effect of a function on a parameter**, asked with an empty table: answering ends, and the
    answer is the union of the constant effects of all questions reachable from that about the
    parameter, the least solution of the equations. After any questions no answer is more than
    that. -/
theorem argumentEffect_exact {f i : Nat} {fn : Function} (hfn : S.program.function? f = some fn)
    (hbody : fn.isExternal = false) (hi : i < fn.params.size) :
    S.answer ((questions S.program).length + 2) (.value (.param f i)) ∅ =
        some (S.argumentEffect (some f) i ∅) ∧
      (S.argumentEffect (some f) i ∅).1 = S.leastEffect (.value (.param f i)) ∧
      IsLUB {e | ∃ r, Reaches S.subqueries (.value (.param f i)) r ∧ S.constant r = e}
        (S.argumentEffect (some f) i ∅).1 ∧
      IsLeast {F | S.Solves F} S.leastEffect ∧
      ∀ (asked : List Question) (Q : Question),
        (S.reply Q (S.replies asked)).1 ≤ S.leastReply Q := by
  have hq : S.argumentQuery? (some f) i = some (.value (.param f i)) := by
    simp [argumentQuery?, paramParts, hfn, hbody, hi, soleQuery?]
  have hleast : (S.argumentEffect (some f) i ∅).1 = S.leastEffect (.value (.param f i)) := by
    rw [argumentEffect_of_query hq]
    exact ask_empty S _
  refine ⟨?_, hleast, ?_, leastEffect_isLeast S, reply_le⟩
  · rw [argumentEffect_of_query hq]
    exact answer_ask S _ ∅
  · rw [hleast]
    exact leastEffect_isLUB _

/-- The write of `visit` reaches `again`, which calls it, and is the only effect that does. -/
theorem argumentEffect_exact_again :
    ∃ fn, visitAgain.program.function? 1 = some fn ∧ fn.isExternal = false ∧
      0 < fn.params.size ∧
      Reaches visitAgain.subqueries (.value (.param 1 0)) (.use ⟨0, 0, 1⟩ (.param 0 0)) ∧
      visitAgain.constant (.use ⟨0, 0, 1⟩ (.param 0 0)) = .writeOnly ∧
      (visitAgain.argumentEffect (some 1) (0 : Nat) ∅).1 = .writeOnly ∧
      visitAgain.leastEffect (.value (.param 1 0)) = .writeOnly := by
  obtain ⟨-, hleast, hlub, -⟩ :=
    argumentEffect_exact (S := visitAgain) (f := 1) (i := 0) rfl rfl (by decide)
  have hback : Reaches visitAgain.subqueries (.value (.param 1 0)) (.use ⟨1, 0, 0⟩ (.param 1 0)) :=
    .of_mem (by decide)
  have hwrite := (hback.tail (z := .value (.param 0 0)) (by decide)).tail
    (z := .use ⟨0, 0, 1⟩ (.param 0 0)) (by decide)
  -- the two functions lead to each other's questions, and to no others
  have hreached : ∀ r, Reaches visitAgain.subqueries (.value (.param 1 0)) r →
      r ∈ [Query.value (.param 1 0), .use ⟨1, 0, 0⟩ (.param 1 0), .value (.param 0 0),
        .use ⟨0, 0, 0⟩ (.param 0 0), .use ⟨0, 0, 1⟩ (.param 0 0)] := by
    intro r hr
    exact hr.closed (by decide) (by decide)
  have hanswer : (visitAgain.argumentEffect (some 1) (0 : Nat) ∅).1 = .writeOnly := by
    refine le_antisymm (hlub.2 ?_) (hlub.1 ⟨_, hwrite, rfl⟩)
    rintro _ ⟨r, hr, rfl⟩
    exact (by decide : ∀ r ∈ _, visitAgain.constant r ≤ .writeOnly) r (hreached r hr)
  exact ⟨_, rfl, rfl, by decide, hwrite, rfl, hanswer, hleast.symm.trans hanswer⟩

/-- **When earlier questions do not matter.** An answer after any questions is at most the one with
    an empty table. It is the same if and only if each read and each write of a reachable question
    is also found on a chain that ends at the first answer in the table; and it is the same
    whenever no cycle of questions can be reached. -/
theorem argumentEffect_eq_fresh_iff (S : Source) (asked : List Question) (f : Option Nat)
    (i : Int) :
    (S.argumentEffect f i (S.replies asked)).1 ≤ (S.argumentEffect f i ∅).1 ∧
      ((S.argumentEffect f i (S.replies asked)).1 = (S.argumentEffect f i ∅).1 ↔
        ∀ q, S.argumentQuery? f i = some q → ∀ x ∈ atoms,
          (∃ r, Reaches S.subqueries q r ∧ x ≤ S.constant r) → S.Finds (S.replies asked) q x) ∧
      ((∀ q, S.argumentQuery? f i = some q → Calm S.subqueries q) →
        (S.argumentEffect f i (S.replies asked)).1 = (S.argumentEffect f i ∅).1) := by
  have hle : (S.argumentEffect f i (S.replies asked)).1 ≤ (S.argumentEffect f i ∅).1 :=
    (reply_le asked (.argument f i)).trans (reply_empty (.argument f i)).ge
  refine ⟨hle, ?_⟩
  cases hq : S.argumentQuery? f i with
  | none =>
    rw [argumentEffect_of_no_query hq]
    simp
  | some q =>
    simp only [Option.some.injEq, forall_eq']
    rw [argumentEffect_of_query hq, argumentEffect_of_query hq] at hle ⊢
    refine ⟨⟨fun heq x hx h => ?_, fun h => le_antisymm hle (le_iff_atoms.2 fun x hx hxe => ?_)⟩,
      fun hcalm => ?_⟩
    · rw [← finds_empty_iff, ← le_ask_iff hx] at h
      rwa [← le_ask_iff hx, heq]
    · rw [le_ask_iff hx, finds_empty_iff] at hxe
      exact (le_ask_iff hx).2 (h x hx hxe)
    · rw [ask_of_calm asked hcalm, ask_empty]

/-- A question about `visit` leaves the write of `visit` out of the answer about `again`, which is
    met while that about `visit` is still open. -/
theorem argumentEffect_after_recursion :
    (visitAgain.argumentEffect (some 1) 0 (visitAgain.replies [.argument (some 0) 0])).1 = .none ∧
      (visitAgain.argumentEffect (some 1) 0 ∅).1 = .writeOnly := by
  have hvisit : visitAgain.program.referrers (.param 0 0) = [⟨0, 0, 0⟩, ⟨0, 0, 1⟩] := by decide
  have hagain : visitAgain.program.referrers (.param 1 0) = [⟨1, 0, 0⟩] := by decide
  have hpass : visitAgain.useParts ⟨0, 0, 0⟩ (.param 0 0) = [.sub (.value (.param 1 0))] := rfl
  have hstore : visitAgain.useParts ⟨0, 0, 1⟩ (.param 0 0) = [.const .writeOnly] := rfl
  have hback : visitAgain.useParts ⟨1, 0, 0⟩ (.param 1 0) = [.sub (.value (.param 0 0))] := rfl
  have hfuel : (questions visitAgain.program).length = 13 := rfl
  have hparam₀ : visitAgain.paramParts 0 0 = [.sub (.value (.param 0 0))] := rfl
  have hparam₁ : visitAgain.paramParts 1 0 = [.sub (.value (.param 1 0))] := rfl
  have hnone : Effect.none.union .none = .none := rfl
  have hwrite : Effect.none.union .writeOnly = .writeOnly := rfl
  have hnone_ne : ¬ Effect.none = .modRef := by decide
  have hwrite_ne : ¬ Effect.writeOnly = .modRef := by decide
  simp only [argumentEffect, replies, reply, hparam₀, hparam₁, askPart, ask, hfuel,
    List.foldl_cons, List.foldl_nil, lt_self_iff_false, reduceIte, Int.toNat_zero, answer, parts,
    answerParts, answerPart, hvisit, hagain, answerUses, hpass, hstore, hback, publishes,
    Std.HashMap.getElem?_insert, Std.HashMap.getElem?_empty, beq_iff_eq, reduceCtorEq,
    Query.value.injEq, Query.use.injEq, Value.param.injEq, Loc.mk.injEq, and_true, and_self,
    and_false, Nat.one_ne_zero, Nat.zero_ne_one, Option.bind_eq_bind, Option.bind_some,
    Option.pure_def, Option.getD_some, Bool.false_eq_true, hnone, hwrite, hnone_ne, hwrite_ne]

end Source

end Effect

end Overlap
