/-
  Writes through pointers that are derived from a parameter.

  A pointer is derived from another one by the address of a field or of an
  element, a slice, a conversion, a type assertion or a phi (`Op.bases`), in a
  chain of any length (`Derived`).  An assertion that reports success gives a
  pair, and the pointer is its first component; the analysis of effects does not
  follow it from there.

  * `leastEffect_mod_iff_parts`: a question has a write if and only if a part of
    its answer has;
  * `mem_parts_of_bases` and `writes_of_mem_parts`: the uses of a derived
    pointer are the one part of the use that derives it, and any other use has a
    write only if it writes itself (`Source.Writes`);
  * `argumentEffect_mod_iff`: so the effect of a function on a parameter has a
    write exactly if one is found through a derived pointer, by a chain without
    the components of pairs;
  * `argumentEffect_of_component`: a write after such a component is missed.
-/
import Overlap.Proofs.UnknownCallees

namespace Overlap

open Ssa Graph

namespace Ssa

/-- The operands into whose memory the result of an instruction points. -/
def Op.bases : Op → List Value
  | .fieldAddr x _ | .indexAddr x _ | .slice x .. | .convert _ x | .typeAssert x _ _ => [x]
  | .phi edges _ => edges
  | _ => []

/-- The operand that points to the memory an instruction writes. -/
def Op.target? : Op → Option Value
  | .store addr _ => some addr
  | .mapUpdate m _ _ => some m
  | .send c _ => some c
  | _ => none

theorem Op.mem_operands_of_mem_bases {op : Op} {v : Value} (h : v ∈ op.bases) : v ∈ op.operands := by
  cases op <;> simp_all [bases, operands]

theorem Op.mem_operands_of_target {op : Op} {v : Value} (h : op.target? = some v) :
    v ∈ op.operands := by
  cases op <;> simp_all [target?, operands]

theorem Call.mem_operands_of_allArgs {c : Call} {v : Value} (h : v ∈ c.allArgs) :
    v ∈ (Op.call c).operands := by
  unfold allArgs at h
  split_ifs at h
  · exact h
  · exact .tail _ h

/-- `v` is derived from `p` by instructions of `f`, `n` of which take the pointer out of the pair of
    a type assertion that reports success. -/
inductive Derived (P : Program) (f : Nat) (p : Value) : Nat → Value → Prop where
  | start : Derived P f p 0 p
  | through {n : Nat} {v : Value} {l : Loc} {op : Op} (hv : Derived P f p n v)
      (hl : l ∈ P.locs f) (hop : P.op? l = some op) (hbase : v ∈ op.bases) :
      Derived P f p n (.result l)
  | component {n : Nat} {v : Value} {pair l : Loc} {t : Ty} (hv : Derived P f p n v)
      (hpair : pair ∈ P.locs f) (hassert : P.op? pair = some (.typeAssert v t true))
      (hl : l ∈ P.locs f) (hop : P.op? l = some (.extract (.result pair) 0)) :
      Derived P f p (n + 1) (.result l)

/-- A pointer derived from a parameter has its uses in the function of the parameter. -/
theorem Derived.mem_referrers_iff {P : Program} {f i n : Nat} {v : Value} {l : Loc}
    (h : Derived P f (.param f i) n v) :
    l ∈ P.referrers v ↔ l ∈ P.locs f ∧ ∃ op, P.op? l = some op ∧ v ∈ op.operands := by
  rw [← Program.mem_occurrences_iff]
  cases h with
  | start => rfl
  | through _ hl _ _ => rw [← (Program.mem_locs_iff.1 hl).1]; rfl
  | component _ _ _ hl _ => rw [← (Program.mem_locs_iff.1 hl).1]; rfl

end Ssa

namespace Effect.Source

variable {S : Source} {f i : Nat} {v : Value} {l : Loc} {p : Part}

/-- The instruction at `l` has the memory that its operand `v` points to written: it writes there
    itself, or it hands `v` on to something that does. -/
inductive Writes (S : Source) (l : Loc) (v : Value) : Prop where
  | direct {op : Op} (hop : S.program.op? l = some op) (htarget : op.target? = some v)
  | receive {commaOk : Bool} (hop : S.program.op? l = some (.unary .receive v commaOk))
  | select {cases : List (Value × Option Value)} {blocking : Bool}
      (hop : S.program.op? l = some (.select cases blocking))
      (hv : v ∈ (Op.select cases blocking).operands)
  /-- A call of something that writes to the memory of this argument. -/
  | argument {c : Call} {j : Nat} (hop : S.program.op? l = some (.call c))
      (harg : c.allArgs[j]? = some v) (hmod : (S.callArgumentEffect l j ∅).1.mod)
  /-- A closure that writes to the memory of this captured value. -/
  | capture {g j : Nat} {bindings : List Value}
      (hop : S.program.op? l = some (.makeClosure g bindings)) (hbinding : bindings[j]? = some v)
      (hmod : (S.ask (.value (.freeVar g j)) ∅).1.mod)
  /-- The pointer is kept in a variable, and something writes through what it holds. -/
  | keep {addr : Value} {comment : String} {heap : Bool}
      (hop : S.program.op? l = some (.store addr v)) (hne : addr ≠ v)
      (halloc : S.program.definition? addr = some (.alloc comment heap))
      (hmod : (S.ask (.cell addr) ∅).1.mod)

/-! ## Parts of answers -/

/-- A part of an answer has a write. -/
def PartMod (S : Source) : Part → Prop
  | .const e => e.mod
  | .sub q => (S.leastEffect q).mod
  | .uses v => ∃ l ∈ S.program.referrers v, (S.leastEffect (.use l v)).mod

theorem writeOnly_le_iff {e : Effect} : .writeOnly ≤ e ↔ e.mod :=
  ⟨fun h => h.2 rfl, fun h => ⟨nofun, fun _ => h⟩⟩

theorem constants_mod_iff {ps : List Part} :
    (constants ps).mod ↔ ∃ p ∈ ps, (partConstant p).mod := by
  simp only [← writeOnly_le_iff]
  exact atom_le_constants_iff (by decide)

theorem partMod_of_partConstant (h : (partConstant p).mod) : ∃ e, p = .const e ∧ S.PartMod p := by
  cases p with
  | const e => exact ⟨e, rfl, h⟩
  | sub q => cases h
  | uses v => cases h

theorem partMod_of_mem_partQueries {r : Query} (hr : r ∈ S.partQueries p)
    (hmod : (S.leastEffect r).mod) : S.PartMod p := by
  cases p with
  | const e => cases hr
  | sub q => exact List.mem_singleton.1 hr ▸ hmod
  | uses v =>
    obtain ⟨l, hl, rfl⟩ := List.mem_map.1 hr
    exact ⟨l, hl, hmod⟩

/-- **A question has a write** if and only if a part of its answer has. -/
theorem leastEffect_mod_iff_parts (S : Source) (q : Query) :
    (S.leastEffect q).mod ↔ ∃ p ∈ S.parts q, S.PartMod p := by
  constructor
  · intro h
    obtain ⟨r, hreach, hmod⟩ := leastEffect_mod_iff.1 h
    cases hreach with
    | refl =>
      obtain ⟨p, hp, hmod⟩ := constants_mod_iff.1 hmod
      obtain ⟨-, -, hmod⟩ := partMod_of_partConstant hmod
      exact ⟨p, hp, hmod⟩
    | step hr hreach =>
      obtain ⟨p, hp, hr⟩ := List.mem_flatMap.1 hr
      exact ⟨p, hp, partMod_of_mem_partQueries hr (leastEffect_mod_iff.2 ⟨r, hreach, hmod⟩)⟩
  · rintro ⟨p, hp, hmod⟩
    have hsub : ∀ r ∈ S.partQueries p, (S.leastEffect r).mod → (S.leastEffect q).mod :=
      fun r hr => (leastEffect_le_of_mem (List.mem_flatMap.2 ⟨p, hp, hr⟩)).2
    cases p with
    | const e => exact leastEffect_mod_iff.2 ⟨q, .refl q, constants_mod_iff.2 ⟨_, hp, hmod⟩⟩
    | sub r => exact hsub r (List.mem_singleton_self r) hmod
    | uses v =>
      obtain ⟨l, hl, hmod⟩ := hmod
      exact hsub _ (List.mem_map_of_mem hl) hmod

theorem leastEffect_value_mod_iff :
    (S.leastEffect (.value v)).mod ↔ ∃ l ∈ S.program.referrers v, (S.leastEffect (.use l v)).mod := by
  rw [leastEffect_mod_iff_parts]
  simp [parts, PartMod]

theorem ask_mod_iff {q : Query} : (S.ask q ∅).1.mod ↔ (S.leastEffect q).mod := by rw [ask_empty]

/-! ## Parts of uses -/

theorem askPart_paramParts_mod_iff (g j : Nat) :
    (S.askPart (S.paramParts g j) ∅).1.mod ↔ ∃ p ∈ S.paramParts g j, S.PartMod p := by
  unfold paramParts
  split
  · split_ifs
    · simp [askPart, PartMod]
    · simp [askPart, PartMod, ask_empty]
    · simp [askPart, Effect.none]
  · simp [askPart, PartMod]

theorem callArgumentEffect_mod_iff {c : Call} (hcall : S.program.call? l = some c) (j : Nat) :
    (S.callArgumentEffect l j ∅).1.mod ↔ ∃ p ∈ S.argParts l c j, S.PartMod p := by
  have hnat : ¬ (j : Int) < 0 := by omega
  unfold callArgumentEffect argParts
  rw [hcall, Option.bind_some]
  cases c.builtin? with
  | some name => simp [hnat, PartMod]
  | none =>
    cases hres : S.resolve l with
    | none => simp [argumentEffect, PartMod]
    | some g => simpa [argumentEffect, hnat] using askPart_paramParts_mod_iff g j

theorem mem_callParts_iff {c : Call} : p ∈ S.callParts l c v ↔
    (∃ j, c.allArgs[j]? = some v ∧ p ∈ S.argParts l c j) ∨
      (c.method.isNone ∧ c.value = v) ∧ p = .const .readOnly := by
  unfold callParts
  rw [List.mem_append, List.mem_flatMap]
  refine or_congr ⟨?_, ?_⟩ ?_
  · rintro ⟨⟨w, j⟩, hw, hp⟩
    dsimp only at hp
    split_ifs at hp with heq
    · obtain rfl : w = v := heq
      exact ⟨j, List.mk_mem_zipIdx_iff_getElem?.1 hw, hp⟩
    · cases hp
  · rintro ⟨j, hj, hp⟩
    exact ⟨(v, j), List.mk_mem_zipIdx_iff_getElem?.2 hj, by simpa using hp⟩
  · split_ifs with h <;> simp_all

/-- A use that derives a pointer has the effect of the uses of that pointer. -/
theorem mem_parts_of_bases {op : Op} (hop : S.program.op? l = some op) (hv : v ∈ op.bases) :
    p ∈ S.parts (.use l v) ↔ p = .uses (.result l) := by
  change p ∈ S.useParts l v ↔ _
  unfold useParts
  rw [hop]
  cases op <;> simp_all [Op.bases]

/-- A use that derives no pointer has a write only if it writes. -/
theorem writes_of_mem_parts {op : Op} (hop : S.program.op? l = some op) (hv : v ∈ op.operands)
    (hbase : v ∉ op.bases) (hp : p ∈ S.parts (.use l v)) (hmod : S.PartMod p) : S.Writes l v := by
  change p ∈ S.useParts l v at hp
  unfold useParts at hp
  rw [hop] at hp
  cases op with
  | unary operator x commaOk =>
    cases operator with
    | receive =>
      obtain rfl : v = x := by simpa [Op.operands] using hv
      exact .receive hop
    | _ => grind [PartMod, readOnly]
  | store addr val =>
    by_cases haddr : addr = v
    · exact .direct hop (congrArg some haddr)
    · obtain rfl : v = val := by simpa [Op.operands, Ne.symm haddr] using hv
      simp only [haddr, if_false] at hp
      split at hp
      case h_1 comment heap halloc =>
        obtain rfl : p = .sub (.cell addr) := by simpa using hp
        exact .keep hop haddr halloc (ask_mod_iff.2 hmod)
      case h_2 => cases hp
  | mapUpdate m key val =>
    by_cases hm : m = v
    · exact .direct hop (congrArg some hm)
    · simp [hm] at hp
  | send c x =>
    by_cases hc : c = v
    · exact .direct hop (congrArg some hc)
    · simp [hc] at hp
  | select cases blocking => exact .select hop hv
  | call c =>
    rcases mem_callParts_iff.1 hp with ⟨j, hj, hp⟩ | ⟨-, rfl⟩
    · have hcall := Program.call?_of_op? hop
      exact .argument hop hj ((callArgumentEffect_mod_iff hcall j).2 ⟨p, hp, hmod⟩)
    · cases hmod
  | makeClosure g bindings =>
    obtain ⟨j, hj, rfl⟩ := List.mem_map.1 hp
    exact .capture hop (mem_positions_iff.1 hj) (ask_mod_iff.2 hmod)
  | fieldAddr | indexAddr | slice | convert | typeAssert | phi =>
    -- `v` is another operand, such as an index
    simp_all [Op.bases, Op.operands, eq_comm]
  -- the other instructions read at most
  | _ => grind [PartMod, readOnly, comparisonParts]

theorem Writes.use_mod (h : S.Writes l v) : (S.leastEffect (.use l v)).mod := by
  rw [leastEffect_mod_iff_parts]
  change ∃ p ∈ S.useParts l v, S.PartMod p
  cases h with
  | @direct op hop htarget =>
    refine ⟨.const .writeOnly, ?_, rfl⟩
    unfold useParts
    rw [hop]
    cases op <;> simp_all [Op.target?]
  | receive hop => exact ⟨.const .modRef, by simp [useParts, hop], rfl⟩
  | select hop hv => exact ⟨.const .modRef, by simp [useParts, hop], rfl⟩
  | argument hop harg hmod =>
    obtain ⟨p, hp, hmod⟩ := (callArgumentEffect_mod_iff (Program.call?_of_op? hop) _).1 hmod
    refine ⟨p, ?_, hmod⟩
    simpa [useParts, hop] using mem_callParts_iff.2 (.inl ⟨_, harg, hp⟩)
  | @capture g j bindings hop hbinding hmod =>
    refine ⟨.sub (.value (.freeVar g j)), ?_, ask_mod_iff.1 hmod⟩
    simpa [useParts, hop] using mem_positions_iff.2 hbinding
  | @keep addr comment heap hop hne halloc hmod =>
    refine ⟨.sub (.cell addr), ?_, ask_mod_iff.1 hmod⟩
    simp [useParts, hop, hne, halloc]

/-! ## Chains -/

theorem Writes.operand (h : S.Writes l v) : ∃ op, S.program.op? l = some op ∧ v ∈ op.operands := by
  cases h with
  | direct hop htarget => exact ⟨_, hop, Op.mem_operands_of_target htarget⟩
  | receive hop => exact ⟨_, hop, by simp [Op.operands]⟩
  | select hop hv => exact ⟨_, hop, hv⟩
  | argument hop harg _ => exact ⟨_, hop, Call.mem_operands_of_allArgs (List.mem_of_getElem? harg)⟩
  | capture hop hbinding _ => exact ⟨_, hop, .tail _ (List.mem_of_getElem? hbinding)⟩
  | keep hop => exact ⟨_, hop, by simp [Op.operands]⟩

/-- What is written through a derived pointer is written through the parameter. -/
theorem use_mod_of_derived {n : Nat} (h : Derived S.program f (.param f i) n v) (hn : n = 0)
    (hl : l ∈ S.program.referrers v) (hmod : (S.leastEffect (.use l v)).mod) :
    (S.leastEffect (.value (.param f i))).mod := by
  induction h generalizing l with
  | start => exact leastEffect_value_mod_iff.2 ⟨l, hl, hmod⟩
  | @through n v l' op hv hl' hop hbase ih =>
    refine ih hn (hv.mem_referrers_iff.2 ⟨hl', op, hop, Op.mem_operands_of_mem_bases hbase⟩) ?_
    refine (leastEffect_mod_iff_parts ..).2 ⟨.uses (.result l'), ?_, l, hl, hmod⟩
    exact (mem_parts_of_bases hop hbase).2 rfl
  | component => cases hn

theorem exists_write_of_reaches {q r : Query} (hreach : Reaches S.subqueries q r)
    (hconst : (S.constant r).mod) (hq : q = .use l v)
    (hv : Derived S.program f (.param f i) 0 v) (hl : l ∈ S.program.referrers v) :
    ∃ w, Derived S.program f (.param f i) 0 w ∧ ∃ k ∈ S.program.locs f, S.Writes k w := by
  induction hreach generalizing l v with
  | refl q =>
    subst hq
    obtain ⟨hloc, op, hop, hoperand⟩ := hv.mem_referrers_iff.1 hl
    obtain ⟨p, hp, hmod⟩ := constants_mod_iff.1 hconst
    obtain ⟨e, rfl, hmod⟩ := partMod_of_partConstant (S := S) hmod
    have hbase : v ∉ op.bases := fun hbase => nomatch (mem_parts_of_bases hop hbase).1 hp
    exact ⟨v, hv, l, hloc, writes_of_mem_parts hop hoperand hbase hp hmod⟩
  | @step q q' r hq' hreach ih =>
    subst hq
    obtain ⟨hloc, op, hop, hoperand⟩ := hv.mem_referrers_iff.1 hl
    obtain ⟨p, hp, hq'⟩ := List.mem_flatMap.1 hq'
    by_cases hbase : v ∈ op.bases
    · -- the chain of questions goes on with a use of the derived pointer
      obtain rfl := (mem_parts_of_bases hop hbase).1 hp
      obtain ⟨l', hl', rfl⟩ := List.mem_map.1 hq'
      exact ih hconst rfl (.through hv hloc hop hbase) hl'
    · have hmod : S.PartMod p :=
        partMod_of_mem_partQueries hq' (leastEffect_mod_iff.2 ⟨r, hreach, hconst⟩)
      exact ⟨v, hv, l, hloc, writes_of_mem_parts hop hoperand hbase hp hmod⟩

/-- **Writes through derived pointers.** The effect of a function on a parameter, asked with an empty
    table, has a write if and only if an instruction of the function has memory written through a
    pointer derived from the parameter, by a chain of any length in which no pointer is taken out of
    the pair of a type assertion. -/
theorem argumentEffect_mod_iff (S : Source) {f i : Nat} {fn : Function}
    (hfn : S.program.function? f = some fn) (hbody : fn.isExternal = false)
    (hi : i < fn.params.size) :
    (S.argumentEffect (some f) i ∅).1.mod ↔
      ∃ v, Derived S.program f (.param f i) 0 v ∧ ∃ l ∈ S.program.locs f, S.Writes l v := by
  rw [argumentEffect_empty hfn hbody hi]
  constructor
  · intro h
    obtain ⟨l, hl, hmod⟩ := leastEffect_value_mod_iff.1 h
    obtain ⟨r, hreach, hconst⟩ := leastEffect_mod_iff.1 hmod
    exact exists_write_of_reaches hreach hconst rfl .start hl
  · rintro ⟨v, hv, l, hl, hwrites⟩
    exact use_mod_of_derived hv rfl (hv.mem_referrers_iff.2 ⟨hl, hwrites.operand⟩) hwrites.use_mod

/-- `shift` writes to the first element of a slice that it shortens in a loop; `set` writes through
    the pointer in an interface, if there is one. -/
def shiftAndSet : Source where
  program := smallProgram #[] #[
    { straightLine "shift" #[⟨"row", .slice (.basic "int")⟩] #[] with
      body := some ⟨#[
        ⟨#[⟨.jump, .none, .none⟩], [1], "entry"⟩,
        ⟨#[⟨.phi [.param 0 0, .result ⟨0, 2, 2⟩] "row", some ⟨0, .slice (.basic "int")⟩, .none⟩,
          ⟨.branch (.const 0), .none, .none⟩], [2, 3], "for.loop"⟩,
        ⟨#[⟨.indexAddr (.result ⟨0, 1, 0⟩) (.const 0), some ⟨1, .pointer (.basic "int")⟩, .none⟩,
          ⟨.store (.result ⟨0, 2, 0⟩) (.const 0), .none, .none⟩,
          ⟨.slice (.result ⟨0, 1, 0⟩) (some (.const 0)) .none .none,
            some ⟨2, .slice (.basic "int")⟩, .none⟩,
          ⟨.jump, .none, .none⟩], [1], "for.body"⟩,
        ⟨#[⟨.ret [], .none, .none⟩], [], "for.done"⟩], .none⟩ },
    { straightLine "set" #[⟨"x", .interface [] []⟩] #[] with
      body := some ⟨#[
        ⟨#[⟨.typeAssert (.param 1 0) (.pointer (.basic "int")) true,
            some ⟨0, .tuple [.pointer (.basic "int"), .basic "bool"]⟩, .none⟩,
          ⟨.extract (.result ⟨1, 0, 0⟩) 0, some ⟨1, .pointer (.basic "int")⟩, .none⟩,
          ⟨.extract (.result ⟨1, 0, 0⟩) 1, some ⟨2, .basic "bool"⟩, .none⟩,
          ⟨.branch (.result ⟨1, 0, 2⟩), .none, .none⟩], [1, 2], "entry"⟩,
        ⟨#[⟨.store (.result ⟨1, 0, 1⟩) (.const 0), .none, .none⟩, ⟨.jump, .none, .none⟩], [2],
          "if.then"⟩,
        ⟨#[⟨.ret [], .none, .none⟩], [], "if.done"⟩], .none⟩ }]
  resolve _ := .none
  unknown := .none

theorem derived_shift : Derived shiftAndSet.program 0 (.param 0 0) 0 (.result ⟨0, 2, 0⟩) := by
  have hrow : Derived shiftAndSet.program 0 (.param 0 0) 0 (.result ⟨0, 1, 0⟩) :=
    .through .start (by decide) rfl (List.mem_cons_self ..)
  exact .through hrow (by decide) rfl (List.mem_cons_self ..)

theorem derived_set : Derived shiftAndSet.program 1 (.param 1 0) 1 (.result ⟨1, 0, 1⟩) :=
  .component .start (by decide) rfl (by decide) rfl

/-- The write of `shift` is to an element of what the loop makes of the parameter, and is found. -/
theorem argumentEffect_mod_iff_shift :
    (∃ fn, shiftAndSet.program.function? 0 = some fn ∧ fn.isExternal = false ∧ 0 < fn.params.size) ∧
      Derived shiftAndSet.program 0 (.param 0 0) 0 (.result ⟨0, 2, 0⟩) ∧
      (shiftAndSet.argumentEffect (some 0) (0 : Nat) ∅).1.mod :=
  ⟨⟨_, rfl, rfl, by decide⟩, derived_shift,
    (argumentEffect_mod_iff shiftAndSet rfl rfl (by decide)).2
      ⟨_, derived_shift, ⟨0, 2, 1⟩, by decide, .direct rfl rfl⟩⟩

/-- The write of `set` is through a pointer out of a pair, and is missed. -/
theorem argumentEffect_of_component :
    Derived shiftAndSet.program 1 (.param 1 0) 1 (.result ⟨1, 0, 1⟩) ∧
      shiftAndSet.program.op? ⟨1, 1, 0⟩ = some (.store (.result ⟨1, 0, 1⟩) (.const 0)) ∧
      (shiftAndSet.argumentEffect (some 1) 0 ∅).1 = .none := by
  refine ⟨derived_set, rfl, ?_⟩
  rw [argumentEffect_of_query (q := .value (.param 1 0)) rfl]
  cbv

end Effect.Source

end Overlap
