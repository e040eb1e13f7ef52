/-
  Places of instructions and the uses of values.

  * `mem_locs_iff`: the places of a function are those of its instructions, and
    `nodup_locs` lists each once;
  * `mem_callSites_iff`: a call site of a function is a place of it that holds a
    call;
  * `operand_of_mem_referrers`: a referrer of a value has it as an operand.

  `straightLine`, `callTo` and `smallProgram` write small programs down.
-/
import Mathlib.Data.List.Nodup
import Overlap.Ssa.Program

namespace Overlap.Ssa

namespace Program

variable {P : Program} {f b : Nat} {l : Loc} {v : Value}

/-! ## Places -/

theorem mem_blockLocs_iff : l ∈ P.blockLocs f b ↔ l.func = f ∧ l.block = b ∧ (P.instr? l).isSome := by
  obtain ⟨lf, lb, li⟩ := l
  unfold blockLocs instr?
  cases hb : (P.blocks f)[b]? with
  | none =>
    simp only [List.not_mem_nil, false_iff]
    rintro ⟨rfl, rfl, h⟩
    simp [hb] at h
  | some block =>
    simp only [List.mem_map, List.mem_range, Loc.mk.injEq]
    constructor
    · rintro ⟨i, hi, rfl, rfl, rfl⟩
      simp [hb, hi]
    · rintro ⟨rfl, rfl, h⟩
      refine ⟨li, ?_, rfl, rfl, rfl⟩
      simpa [hb] using h

theorem mem_locs_iff : l ∈ P.locs f ↔ l.func = f ∧ (P.instr? l).isSome := by
  unfold locs
  simp only [List.mem_flatMap, List.mem_range, mem_blockLocs_iff]
  constructor
  · rintro ⟨b, -, hf, -, h⟩
    exact ⟨hf, h⟩
  · rintro ⟨rfl, h⟩
    refine ⟨l.block, ?_, rfl, rfl, h⟩
    by_contra hb
    have : (P.blocks l.func)[l.block]? = none := by simpa using hb
    simp [instr?, this] at h

theorem nodup_blockLocs : (P.blockLocs f b).Nodup := by
  unfold blockLocs
  cases (P.blocks f)[b]? with
  | none => exact List.nodup_nil
  | some block =>
    refine List.nodup_range.map fun i j hij => ?_
    exact (Loc.mk.injEq .. ▸ hij).2.2

theorem nodup_locs : (P.locs f).Nodup := by
  refine List.nodup_flatMap.2 ⟨fun _ _ => nodup_blockLocs, List.nodup_range.imp ?_⟩
  intro a b hab l ha hb
  exact hab ((mem_blockLocs_iff.1 ha).2.1.symm.trans (mem_blockLocs_iff.1 hb).2.1)

theorem mem_locs_of_op {op : Op} (h : P.op? l = some op) : l ∈ P.locs l.func := by
  refine mem_locs_iff.2 ⟨rfl, ?_⟩
  obtain ⟨i, hi, -⟩ := Option.map_eq_some_iff.1 h
  simp [hi]

/-- The function of an instruction belongs to the program. -/
theorem exists_function_of_op {op : Op} (h : P.op? l = some op) :
    ∃ fn, P.function? l.func = some fn := by
  cases hf : P.function? l.func with
  | some fn => exact ⟨fn, rfl⟩
  | none => simp [op?, instr?, blocks, hf] at h

theorem mem_callSites_iff : l ∈ P.callSites f ↔ l.func = f ∧ (P.call? l).isSome := by
  unfold callSites
  rw [List.mem_filter, mem_locs_iff]
  constructor
  · exact fun h => ⟨h.1.1, h.2⟩
  · rintro ⟨hf, h⟩
    refine ⟨⟨hf, ?_⟩, h⟩
    cases hi : P.instr? l with
    | some i => rfl
    | none => simp [call?, hi] at h

theorem isSome_instr?_of_call? (h : (P.call? l).isSome) : (P.instr? l).isSome := by
  obtain ⟨c, hc⟩ := Option.isSome_iff_exists.1 h
  obtain ⟨i, hi, -⟩ := Option.bind_eq_some_iff.1 hc
  exact Option.isSome_iff_exists.2 ⟨i, hi⟩

theorem op?_of_call? {c : Call} (h : P.call? l = some c) : P.op? l = some (.call c) := by
  obtain ⟨i, hi, hcall⟩ := Option.bind_eq_some_iff.1 h
  unfold Instr.call? at hcall
  split at hcall
  case h_1 c' hop =>
    cases hcall
    rw [op?, hi, Option.map_some, hop]
  case h_2 => cases hcall

theorem call?_of_op? {c : Call} (h : P.op? l = some (.call c)) : P.call? l = some c := by
  obtain ⟨i, hi, hop⟩ := Option.map_eq_some_iff.1 h
  simp [call?, hi, Instr.call?, hop]

theorem nodup_callSites : (P.callSites f).Nodup := nodup_locs.filter _

/-- Every call site belongs to a function of the program. -/
theorem mem_allCallSites_iff : l ∈ P.allCallSites ↔ ∃ f, l ∈ P.callSites f := by
  unfold allCallSites
  rw [List.mem_flatMap]
  refine ⟨fun ⟨f, _, hl⟩ => ⟨f, hl⟩, fun ⟨f, hl⟩ => ⟨f, List.mem_range.2 ?_, hl⟩⟩
  obtain ⟨rfl, hcall⟩ := mem_callSites_iff.1 hl
  obtain ⟨c, hc⟩ := Option.isSome_iff_exists.1 hcall
  obtain ⟨fn, hfn⟩ := exists_function_of_op (op?_of_call? hc)
  exact (Array.getElem?_eq_some_iff.1 hfn).1

/-! ## Uses -/

theorem mem_occurrences_iff :
    l ∈ P.occurrences f v ↔ l ∈ P.locs f ∧ ∃ op, P.op? l = some op ∧ v ∈ op.operands := by
  unfold occurrences
  simp only [List.mem_flatMap, List.mem_replicate]
  constructor
  · rintro ⟨l', hl, hn, rfl⟩
    refine ⟨hl, ?_⟩
    cases hop : P.op? l with
    | none => simp [hop] at hn
    | some op => exact ⟨op, rfl, List.count_pos_iff.1 (by simpa [hop, Nat.pos_iff_ne_zero] using hn)⟩
  · rintro ⟨hl, op, hop, hv⟩
    refine ⟨l, hl, ?_, rfl⟩
    simpa [hop] using Nat.ne_of_gt (List.count_pos_iff.2 hv)

theorem operand_of_mem_referrers (h : l ∈ P.referrers v) :
    ∃ op, P.op? l = some op ∧ v ∈ op.operands := by
  unfold referrers at h
  split at h
  · exact (mem_occurrences_iff.1 h).2
  · exact (mem_occurrences_iff.1 h).2
  · exact (mem_occurrences_iff.1 h).2
  · split_ifs at h
    · obtain ⟨g, -, h⟩ := List.mem_flatMap.1 h
      exact (mem_occurrences_iff.1 h).2
    · simp at h
  all_goals simp at h

end Program

/-! ## Small programs -/

/-- A function of one block. -/
def straightLine (name : String) (params : Array Variable) (instrs : Array Instr) : Function where
  name := name
  package := some 0
  declaredIn := some 0
  parent := none
  receiver := none
  synthetic := ""
  pos := none
  params := params
  freeVars := #[]
  signature := ⟨params.toList, [], false⟩
  body := some ⟨#[⟨instrs, [], ""⟩], none⟩

/-- A call of a function by its name. -/
def callTo (register f : Nat) (args : List Value) : Instr :=
  ⟨.call ⟨.call, .function f, none, args⟩, some ⟨register, .tuple []⟩, none⟩

/-- A program of one package, with the constant one. -/
def smallProgram (globals : Array Global) (functions : Array Function) : Program where
  files := #["main.go"]
  packages := #[⟨"main", "main"⟩]
  types := #[]
  globals := globals
  constants := #[⟨.basic "int", some "1"⟩]
  functions := functions
  runtimeTypes := []

end Overlap.Ssa
