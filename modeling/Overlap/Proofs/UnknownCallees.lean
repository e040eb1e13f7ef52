/-
  What the effect assumed of unknown callees changes.

  Some questions about effects ask for the effect of a callee that is not known
  or has no body (`Source.AsksUnknown`).  The parts of all answers are otherwise
  the same whatever that effect is (`Source.Varies`, `parts_varies`), and so is
  the graph of questions.

  * `atom_le_leastEffect_iff`: a read or a write is in the effect of a question
    if it is there without effects of unknown callees, or if they have it and a
    chain of questions leads to one that asks for them;
  * `argumentEffect_unknown`: so the two settings of the analysis give the same
    effect of a function on a parameter, unless the parameter gets to an unknown
    callee.
-/
import Overlap.Proofs.EffectExact

namespace Overlap

open Ssa Graph Function

namespace Effect

theorem atom_le_union_iff {a b x : Effect} (hx : x ∈ Source.atoms) :
    x ≤ a.union b ↔ x ≤ a ∨ x ≤ b := by
  have hlub : IsLUB {a, b} (a.union b) := isLUB_pair
  rw [Source.atom_le_isLUB_iff hlub hx]
  simp

theorem not_atom_le_none {x : Effect} (hx : x ∈ Source.atoms) : ¬ x ≤ .none := by
  revert x
  decide

namespace Source

variable {S : Source} {q r : Query} {l : Loc} {v : Value} {f i : Nat}

/-- The same with another effect of unknown callees. -/
def withUnknown (S : Source) (e : Effect) : Source := { S with unknown := e }

/-- The answer to a question asks for the effect of a callee that is not known or has no body. -/
inductive AsksUnknown (S : Source) : Query → Prop where
  /-- The value is passed to such a callee. -/
  | call {l : Loc} {c : Call} {v : Value} (hop : S.program.op? l = some (.call c))
      (hbuiltin : c.builtin? = .none) (harg : v ∈ c.allArgs)
      (hunknown : ∀ f, S.resolve l = some f → ¬ S.program.hasBody f) : AsksUnknown S (.use l v)
  /-- The variable is captured by a closure without body. -/
  | capture {l : Loc} {f : Nat} {bindings : List Value} {v : Value}
      (huse : l ∈ S.program.referrers v) (hop : S.program.op? l = some (.makeClosure f bindings))
      (hclosure : (S.program.function? f).any (·.parent.isSome)) (hbinding : v ∈ bindings)
      (hunknown : ¬ S.program.hasBody f) : AsksUnknown S (.cell v)

/-! ## Parts of answers -/

/-- The parts `ps e` do not depend on the effect `e` of unknown callees, except that they contain it
    if `asks` holds. -/
def Varies (asks : Prop) (ps : Effect → List Part) : Prop :=
  ∃ known : Set Part, ∀ e p, p ∈ ps e ↔ p ∈ known ∨ asks ∧ p = .const e

namespace Varies

variable {a b : Prop} {ps qs : Effect → List Part}

theorem fixed (ha : ¬ a) (h : ∀ e, ps e = ps .none) : Varies a ps :=
  ⟨{p | p ∈ ps .none}, fun e p => by simp [h e, ha]⟩

theorem unknown (ha : a) (h : ∀ e, ps e = [.const e]) : Varies a ps := ⟨∅, by simp [h, ha]⟩

theorem congr (h : Varies a ps) (hab : a ↔ b) : Varies b ps := propext hab ▸ h

theorem append (hps : Varies a ps) (hqs : Varies b qs) : Varies (a ∨ b) fun e => ps e ++ qs e := by
  obtain ⟨known, hps⟩ := hps
  obtain ⟨known', hqs⟩ := hqs
  refine ⟨known ∪ known', fun e p => ?_⟩
  rw [List.mem_append, hps, hqs, Set.mem_union]
  tauto

theorem flatMap {α : Type} {xs : List α} {asks : α → Prop} {parts : α → Effect → List Part}
    (h : ∀ x ∈ xs, Varies (asks x) (parts x)) :
    Varies (∃ x ∈ xs, asks x) fun e => xs.flatMap (parts · e) := by
  induction xs with
  | nil => exact fixed (by simp) (by simp)
  | cons x xs ih =>
    obtain ⟨hx, hxs⟩ := List.forall_mem_cons.1 h
    exact (hx.append (ih hxs)).congr (by simp)

end Varies

theorem mem_positions_iff {vs : List Value} : i ∈ positions vs v ↔ vs[i]? = some v := by
  unfold positions
  simp only [List.mem_filterMap, Prod.exists, List.mk_mem_zipIdx_iff_getElem?,
    Option.ite_none_right_eq_some, Option.some.injEq]
  constructor
  · rintro ⟨w, j, hj, rfl, rfl⟩
    exact hj
  · exact fun h => ⟨v, i, h, rfl, rfl⟩

theorem Varies.of_body {ps : Effect → List Part} (known : Function → List Part)
    (hnone : S.program.function? f = .none → ∀ e, ps e = [.const e])
    (hsome : ∀ fn, S.program.function? f = some fn → ∀ e,
      ps e = if fn.isExternal then [.const e] else known fn) :
    Varies (¬ S.program.hasBody f) ps := by
  cases hfn : S.program.function? f with
  | none => exact .unknown (by simp [Program.hasBody, hfn]) (hnone hfn)
  | some fn =>
    have hparts := hsome fn hfn
    cases hbody : fn.isExternal with
    | true => exact .unknown (by simp [Program.hasBody, hfn, hbody]) (by simp [hparts, hbody])
    | false => exact .fixed (by simp [Program.hasBody, hfn, hbody]) (by simp [hparts, hbody])

theorem paramParts_varies (S : Source) (f i : Nat) :
    Varies (¬ S.program.hasBody f) fun e => (S.withUnknown e).paramParts f i :=
  .of_body (fun fn => if i < fn.params.size then [.sub (.value (.param f i))] else [])
    (fun hfn e => by simp [paramParts, withUnknown, hfn])
    fun fn hfn e => by simp [paramParts, withUnknown, hfn]

theorem freeVarParts_varies (S : Source) (f i : Nat) :
    Varies (¬ S.program.hasBody f) fun e => (S.withUnknown e).freeVarParts f i :=
  .of_body (fun fn => if fn.freeVars.size ≤ i then []
      else if fn.parent.isSome then [.sub (.cell (.freeVar f i))]
      else [.sub (.value (.freeVar f i))])
    (fun hfn e => by simp [freeVarParts, withUnknown, hfn])
    fun fn hfn e => by simp [freeVarParts, withUnknown, hfn]

/-- The callee of a call is not known or has no body. -/
def Unresolved (S : Source) (l : Loc) (c : Call) : Prop :=
  c.builtin? = .none ∧ ∀ f, S.resolve l = some f → ¬ S.program.hasBody f

theorem argParts_varies (S : Source) (l : Loc) (c : Call) (i : Nat) :
    Varies (S.Unresolved l c) fun e => (S.withUnknown e).argParts l c i := by
  cases hbuiltin : c.builtin? with
  | some name =>
    exact .fixed (by simp [Unresolved, hbuiltin]) (by simp [argParts, hbuiltin])
  | none =>
    cases hres : S.resolve l with
    | none =>
      exact .unknown (by simp [Unresolved, hbuiltin, hres])
        (by simp [argParts, withUnknown, hbuiltin, hres])
    | some f =>
      have hparts : ∀ e, (S.withUnknown e).argParts l c i = (S.withUnknown e).paramParts f i := by
        simp [argParts, withUnknown, hbuiltin, hres]
      simp only [hparts]
      exact (S.paramParts_varies f i).congr (by simp [Unresolved, hbuiltin, hres])

theorem callParts_varies (S : Source) (l : Loc) (c : Call) (v : Value) :
    Varies (v ∈ c.allArgs ∧ S.Unresolved l c) fun e => (S.withUnknown e).callParts l c v := by
  have hargs : Varies (∃ p ∈ c.allArgs.zipIdx, p.1 = v ∧ S.Unresolved l c) fun e =>
      c.allArgs.zipIdx.flatMap fun p =>
        if p.1 = v then (S.withUnknown e).argParts l c p.2 else [] := by
    refine .flatMap fun p _ => ?_
    by_cases hp : p.1 = v
    · simp only [hp, if_true, true_and]
      exact S.argParts_varies l c p.2
    · exact .fixed (by simp [hp]) (by simp [hp])
  refine (hargs.append (b := False) (.fixed (by simp) fun e => rfl)).congr ?_
  constructor
  · rintro (⟨⟨w, i⟩, hw, rfl, hunresolved⟩ | h)
    · exact ⟨List.fst_mem_of_mem_zipIdx hw, hunresolved⟩
    · exact h.elim
  · rintro ⟨hv, hunresolved⟩
    obtain ⟨i, hi⟩ := List.mem_iff_getElem?.1 hv
    exact .inl ⟨(v, i), List.mk_mem_zipIdx_iff_getElem?.2 hi, rfl, hunresolved⟩

theorem useParts_varies (S : Source) (l : Loc) (v : Value) :
    Varies (S.AsksUnknown (.use l v)) fun e => (S.withUnknown e).useParts l v := by
  by_cases hcall : ∃ c, S.program.op? l = some (.call c)
  · obtain ⟨c, hop⟩ := hcall
    have hparts : ∀ e, (S.withUnknown e).useParts l v = (S.withUnknown e).callParts l c v := by
      intro e
      unfold useParts
      rw [show (S.withUnknown e).program.op? l = some (.call c) from hop]
    simp only [hparts]
    refine (S.callParts_varies l c v).congr ⟨fun ⟨hv, hbuiltin, hunknown⟩ => ?_, ?_⟩
    · exact .call hop hbuiltin hv hunknown
    · rintro (⟨hop', hbuiltin, hv, hunknown⟩)
      cases hop.symm.trans hop'
      exact ⟨hv, hbuiltin, hunknown⟩
  · refine .fixed ?_ fun e => ?_
    · rintro (⟨hop, -, -, -⟩)
      exact hcall ⟨_, hop⟩
    · -- of all instructions only a call asks for the effect of a callee
      unfold useParts
      dsimp only [withUnknown]
      split
      case h_6 c hop => exact absurd ⟨c, hop⟩ hcall
      all_goals rfl

theorem cellUseParts_varies (S : Source) (v : Value) (l : Loc) :
    Varies (∃ f bindings, S.program.op? l = some (.makeClosure f bindings) ∧
        (S.program.function? f).any (·.parent.isSome) ∧ v ∈ bindings ∧ ¬ S.program.hasBody f)
      fun e => (S.withUnknown e).cellUseParts v l := by
  by_cases hclosure : ∃ f bindings, S.program.op? l = some (.makeClosure f bindings) ∧
      (S.program.function? f).any (·.parent.isSome)
  · obtain ⟨f, bindings, hop, hf⟩ := hclosure
    have hparts : ∀ e, (S.withUnknown e).cellUseParts v l =
        (positions bindings v).flatMap ((S.withUnknown e).freeVarParts f) := by
      intro e
      unfold cellUseParts
      rw [show (S.withUnknown e).program.op? l = some (.makeClosure f bindings) from hop]
      exact if_pos hf
    simp only [hparts]
    refine (Varies.flatMap fun i _ => S.freeVarParts_varies f i).congr ⟨?_, ?_⟩
    · rintro ⟨i, hi, hunknown⟩
      exact ⟨f, bindings, hop, hf, List.mem_of_getElem? (mem_positions_iff.1 hi), hunknown⟩
    · rintro ⟨f', bindings', hop', -, hv, hunknown⟩
      cases hop.symm.trans hop'
      obtain ⟨i, hi⟩ := List.mem_iff_getElem?.1 hv
      exact ⟨i, mem_positions_iff.2 hi, hunknown⟩
  · refine .fixed ?_ fun e => ?_
    · rintro ⟨f, bindings, hop, hf, -⟩
      exact hclosure ⟨f, bindings, hop, hf⟩
    · unfold cellUseParts
      dsimp only [withUnknown]
      split
      · rfl
      · rename_i f bindings hop
        have hf : ¬ (S.program.function? f).any (·.parent.isSome) := fun hf =>
          hclosure ⟨f, bindings, hop, hf⟩
        exact (if_neg hf).trans (if_neg hf).symm
      · rfl

/-- **The parts of an answer depend on the effect of unknown callees only where it asks for it.** -/
theorem parts_varies (S : Source) (q : Query) :
    Varies (S.AsksUnknown q) fun e => (S.withUnknown e).parts q := by
  cases q with
  | value v => exact .fixed (by rintro ⟨⟩) fun e => rfl
  | use l v => exact S.useParts_varies l v
  | cell v =>
    have huses : Varies _ fun e =>
        (S.program.referrers v).flatMap ((S.withUnknown e).cellUseParts v) :=
      .flatMap fun l _ => S.cellUseParts_varies v l
    refine Varies.congr huses ⟨?_, ?_⟩
    · rintro ⟨l, hl, f, bindings, hop, hclosure, hv, hunknown⟩
      exact .capture hl hop hclosure hv hunknown
    · rintro (_ | ⟨huse, hop, hclosure, hv, hunknown⟩)
      exact ⟨_, huse, _, _, hop, hclosure, hv, hunknown⟩

/-! ## Effects -/

theorem mem_subqueries_withUnknown_iff (e : Effect) :
    r ∈ (S.withUnknown e).subqueries q ↔ r ∈ S.subqueries q := by
  -- a part that is the effect of unknown callees has no question of its own
  obtain ⟨known, hknown⟩ := S.parts_varies q
  have hmem : ∀ e, r ∈ (S.withUnknown e).subqueries q ↔ ∃ p ∈ known, r ∈ S.partQueries p := by
    intro e
    unfold subqueries
    rw [List.mem_flatMap]
    constructor
    · rintro ⟨p, hp, hr⟩
      rcases (hknown e p).1 hp with hp | ⟨-, rfl⟩
      · exact ⟨p, hp, hr⟩
      · exact absurd hr List.not_mem_nil
    · rintro ⟨p, hp, hr⟩
      exact ⟨p, (hknown e p).2 (.inl hp), hr⟩
  exact (hmem e).trans (hmem S.unknown).symm

theorem reaches_withUnknown_iff (e : Effect) :
    Reaches (S.withUnknown e).subqueries q r ↔ Reaches S.subqueries q r := by
  constructor
  · intro h
    induction h with
    | refl q => exact .refl q
    | step hr _ ih => exact .step ((mem_subqueries_withUnknown_iff e).1 hr) ih
  · intro h
    induction h with
    | refl q => exact .refl q
    | step hr _ ih => exact .step ((mem_subqueries_withUnknown_iff e).2 hr) ih

theorem atom_le_constants_iff {x : Effect} (hx : x ∈ atoms) {ps : List Part} :
    x ≤ constants ps ↔ ∃ p ∈ ps, x ≤ partConstant p := by
  induction ps with
  | nil => simpa [constants] using not_atom_le_none hx
  | cons p ps ih =>
    change x ≤ (partConstant p).union (constants ps) ↔ _
    rw [atom_le_union_iff hx, ih]
    simp

theorem atom_le_constant_iff {x : Effect} (hx : x ∈ atoms) (e : Effect) :
    x ≤ (S.withUnknown e).constant q ↔
      x ≤ (S.withUnknown .none).constant q ∨ S.AsksUnknown q ∧ x ≤ e := by
  obtain ⟨known, hknown⟩ := S.parts_varies q
  have hconst : ∀ e, x ≤ (S.withUnknown e).constant q ↔
      (∃ p ∈ known, x ≤ partConstant p) ∨ S.AsksUnknown q ∧ x ≤ e := by
    intro e
    unfold constant
    rw [atom_le_constants_iff hx]
    constructor
    · rintro ⟨p, hp, hxp⟩
      rcases (hknown e p).1 hp with hp | ⟨hasks, rfl⟩
      · exact .inl ⟨p, hp, hxp⟩
      · exact .inr ⟨hasks, hxp⟩
    · rintro (⟨p, hp, hxp⟩ | ⟨hasks, hxe⟩)
      · exact ⟨p, (hknown e p).2 (.inl hp), hxp⟩
      · exact ⟨.const e, (hknown e _).2 (.inr ⟨hasks, rfl⟩), hxe⟩
  rw [hconst e, hconst .none]
  simp [not_atom_le_none hx]

/-- A chain of questions leads from `q` to one that asks for the effect of an unknown callee. -/
def ReachesUnknown (S : Source) (q : Query) : Prop :=
  ∃ r, Reaches S.subqueries q r ∧ S.AsksUnknown r

theorem atom_le_leastEffect_iff {x : Effect} (hx : x ∈ atoms) (e : Effect) :
    x ≤ (S.withUnknown e).leastEffect q ↔
      x ≤ (S.withUnknown .none).leastEffect q ∨ S.ReachesUnknown q ∧ x ≤ e := by
  have hleast : ∀ e, x ≤ (S.withUnknown e).leastEffect q ↔
      ∃ r, Reaches S.subqueries q r ∧ x ≤ (S.withUnknown e).constant r := by
    intro e
    rw [atom_le_isLUB_iff (leastEffect_isLUB q) hx]
    simp only [reaches_withUnknown_iff, Set.mem_ofPred_eq]
    constructor
    · rintro ⟨_, ⟨r, hr, rfl⟩, hxr⟩
      exact ⟨r, hr, hxr⟩
    · rintro ⟨r, hr, hxr⟩
      exact ⟨_, ⟨r, hr, rfl⟩, hxr⟩
  rw [hleast e, hleast .none]
  constructor
  · rintro ⟨r, hr, hxr⟩
    rcases (atom_le_constant_iff hx e).1 hxr with hxr | ⟨hasks, hxe⟩
    · exact .inl ⟨r, hr, hxr⟩
    · exact .inr ⟨⟨r, hr, hasks⟩, hxe⟩
  · rintro (⟨r, hr, hxr⟩ | ⟨⟨r, hr, hasks⟩, hxe⟩)
    · exact ⟨r, hr, (atom_le_constant_iff hx e).2 (.inl hxr)⟩
    · exact ⟨r, hr, (atom_le_constant_iff hx e).2 (.inr ⟨hasks, hxe⟩)⟩

theorem argumentEffect_empty {fn : Function} (hfn : S.program.function? f = some fn)
    (hbody : fn.isExternal = false) (hi : i < fn.params.size) :
    (S.argumentEffect (some f) i ∅).1 = S.leastEffect (.value (.param f i)) := by
  have hq : S.argumentQuery? (some f) i = some (.value (.param f i)) := by
    simp [argumentQuery?, paramParts, hfn, hbody, hi, soleQuery?]
  rw [argumentEffect_of_query hq]
  exact ask_empty S _

/-- **What the effect of unknown callees changes.** The effect of a function on a parameter, asked
    with an empty table, is the same whether unknown callees are taken to have no effect or to read
    and write, if no chain of questions from the parameter leads to an unknown callee. Otherwise
    it is to read and write in the second case. So it is never less there. -/
theorem argumentEffect_unknown (S : Source) {f i : Nat} {fn : Function}
    (hfn : S.program.function? f = some fn) (hbody : fn.isExternal = false)
    (hi : i < fn.params.size) :
    (¬ S.ReachesUnknown (.value (.param f i)) →
      ((S.withUnknown .modRef).argumentEffect (some f) i ∅).1 =
        ((S.withUnknown .none).argumentEffect (some f) i ∅).1) ∧
    (S.ReachesUnknown (.value (.param f i)) →
      ((S.withUnknown .modRef).argumentEffect (some f) i ∅).1 = .modRef) ∧
    ((S.withUnknown .none).argumentEffect (some f) i ∅).1 ≤
      ((S.withUnknown .modRef).argumentEffect (some f) i ∅).1 := by
  have hfresh : ∀ e, ((S.withUnknown e).argumentEffect (some f) i ∅).1 =
      (S.withUnknown e).leastEffect (.value (.param f i)) := fun e =>
    argumentEffect_empty (S := S.withUnknown e) hfn hbody hi
  rw [hfresh, hfresh]
  have hle : (S.withUnknown .none).leastEffect (.value (.param f i)) ≤
      (S.withUnknown .modRef).leastEffect (.value (.param f i)) :=
    le_iff_atoms.2 fun x hx hxe => (atom_le_leastEffect_iff hx .modRef).2 (.inl hxe)
  refine ⟨fun hnone => le_antisymm (le_iff_atoms.2 fun x hx hxe => ?_) hle, fun hsome => ?_, hle⟩
  · exact ((atom_le_leastEffect_iff hx .modRef).1 hxe).resolve_right fun h => hnone h.1
  · refine le_antisymm le_top (le_iff_atoms.2 fun x hx hxe => ?_)
    exact (atom_le_leastEffect_iff hx .modRef).2 (.inr ⟨hsome, hxe⟩)

/-- `visit` and `again` pass their parameter to each other, and `again` also to `sink`, which has no
    body; `load` only reads through its own. -/
def handsOut : Source where
  program := smallProgram #[] #[
    takesPointer "visit" #[passOn 0 1, ⟨.ret [], .none, .none⟩],
    takesPointer "again" #[passOn 1 0, passOn 1 3, ⟨.ret [], .none, .none⟩],
    takesPointer "load" #[⟨.unary .load (.param 2 0) false, some ⟨0, .basic "int"⟩, .none⟩,
      ⟨.ret [], .none, .none⟩],
    { takesPointer "sink" #[] with body := .none }]
  resolve
    | ⟨0, 0, 0⟩ => some 1
    | ⟨1, 0, 0⟩ => some 0
    | _ => .none
  unknown := .none

theorem reachesUnknown_visit : handsOut.ReachesUnknown (.value (.param 0 0)) := by
  have hpass : Reaches handsOut.subqueries (.value (.param 0 0)) (.use ⟨0, 0, 0⟩ (.param 0 0)) :=
    .of_mem (by decide)
  have hagain := (hpass.tail (z := .value (.param 1 0)) (by decide)).tail
    (z := .use ⟨1, 0, 1⟩ (.param 1 0)) (by decide)
  exact ⟨_, hagain, .call rfl rfl (by decide) nofun⟩

theorem not_reachesUnknown_load : ¬ handsOut.ReachesUnknown (.value (.param 2 0)) := by
  rintro ⟨r, hr, hasks⟩
  have hclosed : r = .value (.param 2 0) ∨ r = .use ⟨2, 0, 0⟩ (.param 2 0) := by
    refine hr.closed (motive := fun r => r = .value (.param 2 0) ∨ r = .use ⟨2, 0, 0⟩ (.param 2 0))
      ?_ (.inl rfl)
    rintro x (rfl | rfl) y hy
    · exact .inr (List.mem_singleton.1 hy)
    · exact absurd hy List.not_mem_nil
  rcases hclosed with rfl | rfl
  · cases hasks
  · rcases hasks with ⟨hop, -, -, -⟩
    cases hop

/-- The parameter of `visit` gets to `sink`, that of `load` does not. -/
theorem argumentEffect_unknown_handsOut :
    (∃ fn, handsOut.program.function? 0 = some fn ∧ fn.isExternal = false ∧ 0 < fn.params.size) ∧
      handsOut.ReachesUnknown (.value (.param 0 0)) ∧
      ((handsOut.withUnknown .modRef).argumentEffect (some 0) (0 : Nat) ∅).1 = .modRef ∧
      ¬ handsOut.ReachesUnknown (.value (.param 2 0)) ∧
      ((handsOut.withUnknown .modRef).argumentEffect (some 2) (0 : Nat) ∅).1 =
        ((handsOut.withUnknown .none).argumentEffect (some 2) (0 : Nat) ∅).1 :=
  ⟨⟨_, rfl, rfl, by decide⟩, reachesUnknown_visit,
    (argumentEffect_unknown handsOut rfl rfl (by decide)).2.1 reachesUnknown_visit,
    not_reachesUnknown_load,
    (argumentEffect_unknown handsOut rfl rfl (by decide)).1 not_reachesUnknown_load⟩

end Source

end Effect

end Overlap
