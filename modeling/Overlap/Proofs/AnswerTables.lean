/-
  Tables of answers only grow, and an answer that has been given stays.

  * `Extends`: a table has all entries of another one;
  * `reply_extends` and `reply_of_extends`: a question about effects adds to the
    table, and is answered in the same way with every table that extends the one
    it leaves behind;
  * `globalAccesses_extends` and `globalAccesses_of_extends`: the same of the
    accesses to global variables.
-/
import Overlap.Proofs.EffectExact
import Overlap.Proofs.GlobalAccess

namespace Overlap

open Ssa Graph Function

/-! ## Growing tables -/

section
variable {α β : Type} [DecidableEq α] [Hashable α] {memo memo' memo'' : Std.HashMap α β}

/-- `memo'` has the entries of `memo`. -/
def Extends (memo memo' : Std.HashMap α β) : Prop :=
  ∀ (x : α) (v : β), memo[x]? = some v → memo'[x]? = some v

theorem Extends.refl (memo : Std.HashMap α β) : Extends memo memo := fun _ _ h => h

theorem Extends.trans (h : Extends memo memo') (h' : Extends memo' memo'') :
    Extends memo memo'' := fun x v hx => h' x v (h x v hx)

/-- An entry of a point that had none. -/
theorem Extends.insert {x : α} (h : Extends memo memo') (hx : memo[x]? = none) (v : β) :
    Extends memo (memo'.insert x v) := by
  intro y w hy
  have hne : x ≠ y := by
    rintro rfl
    rw [hx] at hy
    cases hy
  rw [Std.HashMap.getElem?_insert, if_neg (by simpa using hne)]
  exact h y w hy

end

namespace Effect.Source

/-! ## Effects -/

section
variable {S : Source} {q : Query} {memo memo' : EffectMemo}

theorem ask_of_entry {e : Effect} (h : memo[q]? = some e) : S.ask q memo = (e, memo) := by
  have hask := answer_ask S q memo
  unfold answer at hask
  simpa [h] using hask.symm

theorem ask_extends (S : Source) (q : Query) (memo : EffectMemo) :
    Extends memo (S.ask q memo).2 := fun _ _ hx => (ask_gathers S q memo).preserves not_false hx

theorem ask_of_extends (h : Extends (S.ask q memo).2 memo') :
    S.ask q memo' = ((S.ask q memo).1, memo') :=
  ask_of_entry (h q _ (ask_gathers S q memo).ask_entry)

/-- A question about an effect adds to the table. -/
theorem reply_extends (S : Source) (Q : Question) (memo : EffectMemo) :
    Extends memo (S.reply Q memo).2 := by
  cases hQ : S.query? Q with
  | some q =>
    rw [reply_of_query hQ]
    exact ask_extends S q memo
  | none =>
    rw [reply_of_no_query hQ]
    exact .refl memo

/-- **An answer about an effect stays.** -/
theorem reply_of_extends {Q : Question} (h : Extends (S.reply Q memo).2 memo') :
    S.reply Q memo' = ((S.reply Q memo).1, memo') := by
  cases hQ : S.query? Q with
  | some q =>
    rw [reply_of_query hQ] at h ⊢
    rw [reply_of_query hQ]
    exact ask_of_extends h
  | none =>
    have hreply : ∀ m, S.reply Q m = ((S.reply Q ∅).1, m) := fun m => reply_of_no_query hQ
    rw [hreply memo', hreply memo]

theorem callArgumentEffect_extends (S : Source) (site : Loc) (i : Int) (memo : EffectMemo) :
    Extends memo (S.callArgumentEffect site i memo).2 :=
  reply_extends S (.callArgument site i) memo

theorem callArgumentEffect_of_extends {site : Loc} {i : Int}
    (h : Extends (S.callArgumentEffect site i memo).2 memo') :
    S.callArgumentEffect site i memo' = ((S.callArgumentEffect site i memo).1, memo') :=
  reply_of_extends (Q := .callArgument site i) h

end

/-! ## Accesses to globals -/

section
variable {S : Source} {f : Nat} {start memo memo' : AccessMemo}
  {visit : Nat → AccessMemo → Option AccessMemo}

/-- While the callees of `f` are visited, which had no entry at the `start`, only its own entry
    changes. -/
theorem foldlM_extends (hvisit : ∀ h m m', visit h m = some m' → Extends m m') {hs : List Nat}
    (hf : start[f]? = .none) (hstart : Extends start memo) (hmemo : (memo[f]?).isSome)
    (h : hs.foldlM (fun memo h => (visit h memo).map (S.joinInto f h)) memo = some memo') :
    Extends start memo' ∧ (memo'[f]?).isSome := by
  induction hs generalizing memo with
  | nil =>
    cases h
    exact ⟨hstart, hmemo⟩
  | cons h₀ hs ih =>
    simp only [List.foldlM_cons, Option.bind_eq_bind, Option.bind_eq_some_iff,
      Option.map_eq_some_iff] at h
    obtain ⟨_, ⟨memo₁, h₁, rfl⟩, h⟩ := h
    have hstart₁ : Extends start memo₁ := hstart.trans (hvisit h₀ memo memo₁ h₁)
    exact ih (hstart₁.insert hf _) (by simp) h

theorem collect_extends {fuel : Nat} (h : S.collect fuel f memo = some memo') :
    Extends memo memo' ∧ (memo'[f]?).isSome := by
  induction fuel generalizing f memo memo' with
  | zero => cases h
  | succ fuel ih =>
    unfold collect at h
    split_ifs at h with hf
    · cases h
      exact ⟨.refl memo, by simpa using hf⟩
    · have hnone : memo[f]? = .none := by simpa using hf
      refine foldlM_extends (fun g m m' hm => (ih hm).1) hnone ?_ ?_ h
      · exact (Extends.refl memo).insert hnone _
      · simp

/-- A question about accesses adds to the table. -/
theorem globalAccesses_extends (S : Source) (f : Nat) (memo : AccessMemo) :
    Extends memo (S.globalAccesses f memo).2 :=
  (collect_extends (collect_globalAccesses S f memo)).1

/-- **An answer about accesses stays.** -/
theorem globalAccesses_of_extends (h : Extends (S.globalAccesses f memo).2 memo') :
    S.globalAccesses f memo' = ((S.globalAccesses f memo).1, memo') := by
  obtain ⟨a, ha⟩ := Option.isSome_iff_exists.1
    (collect_extends (collect_globalAccesses S f memo)).2
  have ha' : memo'[f]? = some a := h f a ha
  have hcollect : S.collect (S.program.functions.size + 1) f memo' = some memo' := by
    unfold collect
    rw [if_pos (by simp [Std.HashMap.contains_eq_isSome_getElem?, ha'])]
  have hentry : S.entry memo' f = S.entry (S.globalAccesses f memo).2 f := by
    rw [entry, entry, ha, ha']
  rw [globalAccesses, hcollect, Option.getD_some, hentry]
  rfl

end

end Effect.Source

end Overlap
