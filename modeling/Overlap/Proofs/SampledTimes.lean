/-
  The times of call sites in profiles of sampled stacks.

  Times are real numbers here.  A stack goes through a site if a frame of the
  site has called another frame (`Passes`); it may do so with several callees,
  or with several paths of the same file (`callsAt`).

  * `sum_groups`: merging the records of a site keeps their total time;
  * `executionTime_ofSamples`: a sample counts once for each different call of
    its stack at a site, so that the time of the site is that of the samples
    which go through it as long as no stack has two such calls;
  * `executionTime_recursiveStack`: a stack that does.
-/
import Overlap.Profile.Samples
import Overlap.Proofs.ProfileRecords

namespace Overlap

open Ssa

/-! ## Exact sums -/

theorem sum_flatMap {α : Type} (xs : List α) (f : α → List ℝ) :
    (xs.flatMap f).sum = (xs.map fun x => (f x).sum).sum := by
  rw [List.flatMap_def, List.sum_flatten, List.map_map]
  rfl

namespace Profile

theorem timeOf_eq_sum (records : List (CallRecord ℝ)) :
    timeOf records = (records.map (·.time)).sum := by
  induction records using List.reverseRecOn with
  | nil => simp [timeOf]
  | append_singleton records r ih =>
    by_cases hne : records = []
    · simp [hne, timeOf]
    · rw [timeOf_concat hne, ih, List.map_append, List.sum_append, List.map_singleton,
        List.sum_singleton]

/-- The times of the callees of a site are those of its records. -/
theorem sum_groups (records : List (CallRecord ℝ)) (k : SiteKey) :
    ((groups records k).map (·.2)).sum = ((records.filter (·.key = k)).map (·.time)).sum := by
  have hperm : ((((records.filter (·.key = k)).map (·.callee)).eraseDups.flatMap fun c =>
      (records.filter (·.key = k)).filter (·.callee = c))).Perm (records.filter (·.key = k)) :=
    flatMap_filter_perm (nodup_eraseDups _) fun r hr =>
      List.mem_eraseDups.2 (List.mem_map.2 ⟨r, hr, rfl⟩)
  rw [← (hperm.map (·.time)).sum_eq, List.map_flatMap, sum_flatMap, groups, List.map_map]
  simp only [Function.comp_def, timeOf_eq_sum]

end Profile

/-! ## Stacks -/

namespace SampleProfile

variable {p : SampleProfile} {s : Sample} {k : SiteKey} {index : Nat}

/-- The key of the site of a frame. -/
def Frame.key (f : Frame) : SiteKey := ⟨f.function, Text.Path.base f.file, f.line⟩

/-- A frame of the site has called another frame. -/
def Passes (p : SampleProfile) (s : Sample) (k : SiteKey) : Prop :=
  ∃ f ∈ (p.frames s).tail, f.key = k

instance (p : SampleProfile) (s : Sample) (k : SiteKey) : Decidable (p.Passes s k) :=
  inferInstanceAs (Decidable (∃ f ∈ _, _))

/-- The different calls of a stack at a site: the paths of the file, with the callees. -/
def callsAt (p : SampleProfile) (s : Sample) (k : SiteKey) : List (Frame × String) :=
  (p.calls s).filter (·.1.key = k)

/-- The value of the samples that go through a site. -/
noncomputable def passingTime (p : SampleProfile) (index : Nat) (k : SiteKey) : ℝ :=
  ((p.samples.filter fun s => p.Passes s k).map (value index)).sum

theorem passes_iff_callsAt_ne_nil : p.Passes s k ↔ p.callsAt s k ≠ [] := by
  have hcallers : ((p.frames s).tail.zip (p.frames s)).map Prod.fst = (p.frames s).tail :=
    List.map_fst_zip (by simp)
  rw [Passes, ← hcallers, ne_eq, callsAt, List.filter_eq_nil_iff]
  simp [calls]

theorem passes_iff_length_pos : p.Passes s k ↔ 1 ≤ (p.callsAt s k).length :=
  passes_iff_callsAt_ne_nil.trans List.length_pos_iff.symm

theorem sum_records (p : SampleProfile) (index : Nat) (k : SiteKey) :
    (((p.samples.flatMap (p.records index)).filter (·.key = k)).map
      fun r : CallRecord ℝ => r.time).sum =
      (p.samples.map fun s => (p.callsAt s k).length * (value index s : ℝ)).sum := by
  rw [List.filter_flatMap, List.map_flatMap, sum_flatMap]
  congr 1
  refine List.map_congr_left fun s _ => ?_
  -- a sample has a record for each call of its stack, all with its value
  rw [records, List.filter_map, List.map_map]
  change ((p.callsAt s k).map fun _ => (value index s : ℝ)).sum = _
  rw [List.map_const', List.sum_replicate, nsmul_eq_mul]

theorem passingTime_eq (p : SampleProfile) (index : Nat) (k : SiteKey) :
    p.passingTime index k =
      (p.samples.map fun s => if p.Passes s k then (value index s : ℝ) else 0).sum := by
  rw [List.sum_map_ite]
  simp [passingTime]

theorem once_le_of_nonneg {v : ℝ} (hv : 0 ≤ v) :
    (if p.Passes s k then v else 0) ≤ (p.callsAt s k).length * v := by
  split_ifs with hpasses
  · have : (1 : ℝ) ≤ (p.callsAt s k).length := by exact_mod_cast passes_iff_length_pos.1 hpasses
    nlinarith
  · positivity

theorem once_of_length_le_one (h : (p.callsAt s k).length ≤ 1) (v : ℝ) :
    (p.callsAt s k).length * v = if p.Passes s k then v else 0 := by
  split_ifs with hpasses
  · rw [le_antisymm h (passes_iff_length_pos.1 hpasses), Nat.cast_one, one_mul]
  · have hnil : p.callsAt s k = [] := not_not.1 (mt passes_iff_callsAt_ne_nil.2 hpasses)
    simp [hnil]

theorem once_eq_iff {v : ℝ} (hv : 0 ≤ v) :
    (p.callsAt s k).length * v = (if p.Passes s k then v else 0) ↔
      (0 < v → (p.callsAt s k).length ≤ 1) := by
  rcases hv.eq_or_lt with rfl | hv
  · simp
  · refine ⟨fun h _ => ?_, fun h => once_of_length_le_one (h hv) v⟩
    split_ifs at h
    · rw [mul_eq_right₀ hv.ne', Nat.cast_eq_one] at h
      exact h.le
    · rw [mul_eq_zero_iff_right hv.ne', Nat.cast_eq_zero] at h
      omega

theorem exists_valueIndex (htypes : p.types ≠ []) : ∃ index, p.valueIndex? = some index := by
  unfold valueIndex?
  split
  · exact ⟨_, rfl⟩
  · rw [if_neg (by simpa using htypes)]
    exact ⟨_, rfl⟩

end SampleProfile

namespace Profile

open SampleProfile

variable {P : Program} {site : Loc} {p : SampleProfile} {prof : Profile ℝ} {index : Nat}

theorem executionTime_of_samples (hindex : p.valueIndex? = some index)
    (hprof : ofSamples p = .ok prof) (hstatic : (P.call? site).bind P.staticCallee? = none) :
    prof.executionTime P site =
      (p.samples.map fun s => (p.callsAt s (siteKey P site)).length * (value index s : ℝ)).sum := by
  unfold ofSamples at hprof
  rw [hindex] at hprof
  split at hprof
  · cases hprof
  · cases ‹some index = none›
  · rename_i hsome
    obtain rfl := Option.some.inj hsome
    obtain rfl := Except.ok.inj hprof
    rw [executionTime_of_all (.inl hstatic), Quantity.sum_real, ← sum_records, ← sum_groups,
      ← (indexes_ofRecords ..).groups_eq, List.map_map]
    rfl

/-- **The time of a site in sampled stacks.** In the profile of valid samples, the time of a site
    without static callee is the sum over the samples of their values, each as often as its stack
    has different calls at the site. This is the value of the samples that go through the site if
    no stack has two such calls. If no value is negative, these samples have at most the time of
    the site and at most that of all samples, and the time of the site is theirs if and only if no
    sample with a positive value has two such calls. -/
theorem executionTime_ofSamples (p : SampleProfile) (hvalid : p.check = none)
    (htypes : p.types ≠ []) (P : Program) (site : Loc)
    (hstatic : (P.call? site).bind P.staticCallee? = none) :
    ∃ (index : Nat) (prof : Profile ℝ), p.valueIndex? = some index ∧ ofSamples p = .ok prof ∧
      prof.executionTime P site =
        (p.samples.map fun s => (p.callsAt s (siteKey P site)).length * (value index s : ℝ)).sum ∧
      ((∀ s ∈ p.samples, (p.callsAt s (siteKey P site)).length ≤ 1) →
        prof.executionTime P site = p.passingTime index (siteKey P site)) ∧
      ((∀ s ∈ p.samples, 0 ≤ (value index s : ℝ)) →
        p.passingTime index (siteKey P site) ≤ prof.executionTime P site ∧
        p.passingTime index (siteKey P site) ≤ (p.samples.map (value index)).sum ∧
        (prof.executionTime P site = p.passingTime index (siteKey P site) ↔
          ∀ s ∈ p.samples, 0 < (value index s : ℝ) →
            (p.callsAt s (siteKey P site)).length ≤ 1)) := by
  obtain ⟨index, hindex⟩ := exists_valueIndex htypes
  obtain ⟨prof, hprof⟩ : ∃ prof : Profile ℝ, ofSamples p = .ok prof := by
    unfold ofSamples
    rw [hvalid, hindex]
    exact ⟨_, rfl⟩
  have htime := executionTime_of_samples hindex hprof hstatic
  refine ⟨index, prof, hindex, hprof, htime, fun honce => ?_, fun hnonneg => ⟨?_, ?_, ?_⟩⟩
  · rw [htime, passingTime_eq]
    congr 1
    exact List.map_congr_left fun s hs => once_of_length_le_one (honce s hs) _
  · rw [htime, passingTime_eq]
    exact List.sum_le_sum fun s hs => once_le_of_nonneg (hnonneg s hs)
  · refine (List.filter_sublist.map _).sum_le_sum fun v hv => ?_
    obtain ⟨s, hs, rfl⟩ := List.mem_map.1 hv
    exact hnonneg s hs
  · rw [htime, passingTime_eq]
    constructor
    · intro heq s hs
      rw [← once_eq_iff (hnonneg s hs)]
      by_contra hne
      have hlt := lt_of_le_of_ne (once_le_of_nonneg (hnonneg s hs)) (Ne.symm hne)
      refine (List.sum_lt_sum _ _ (fun t ht => ?_) ⟨s, hs, hlt⟩).ne' heq
      exact once_le_of_nonneg (hnonneg t ht)
    · intro honce
      congr 1
      exact List.map_congr_left fun s hs => (once_eq_iff (hnonneg s hs)).2 (honce s hs)

/-! ## A function that calls itself through a function value -/

/-- `walk` calls its parameter. -/
def walkProgram : Program :=
  smallProgram #[] #[straightLine "walk" #[⟨"f", .func [] [] false⟩]
    #[⟨.call ⟨.call, .param 0 0, none, []⟩, some ⟨0, .tuple []⟩, some ⟨0, 5, 3⟩⟩,
      ⟨.ret [], none, none⟩]]

/-- In one stack `walk` has called itself, and `leaf`. -/
def recursiveStack : SampleProfile where
  types := ["cpu"]
  functions := [⟨1, "main.leaf", "/src/main.go"⟩, ⟨2, "main.walk", "/src/main.go"⟩,
    ⟨3, "main.main", "/src/main.go"⟩]
  locations := [⟨1, [⟨some 0, 8⟩], false⟩, ⟨2, [⟨some 1, 5⟩], false⟩, ⟨3, [⟨some 2, 12⟩], false⟩]
  samples := [⟨[some 0, some 1, some 1, some 2], [10]⟩]

theorem siteKey_walkProgram : siteKey walkProgram ⟨0, 0, 0⟩ = ⟨"main.walk", "main.go", 5⟩ := by
  decide +kernel

theorem callsAt_recursiveStack {s : Sample} (hs : s ∈ recursiveStack.samples) :
    recursiveStack.callsAt s ⟨"main.walk", "main.go", 5⟩ =
      [(⟨"main.walk", "/src/main.go", 5⟩, "main.leaf"),
        (⟨"main.walk", "/src/main.go", 5⟩, "main.walk")] := by
  obtain rfl := List.mem_singleton.1 hs
  decide +kernel

theorem passes_recursiveStack {s : Sample} (hs : s ∈ recursiveStack.samples) :
    recursiveStack.Passes s ⟨"main.walk", "main.go", 5⟩ := by
  rw [passes_iff_callsAt_ne_nil, callsAt_recursiveStack hs]
  exact List.cons_ne_nil _ _

theorem passingTime_recursiveStack :
    recursiveStack.passingTime 0 ⟨"main.walk", "main.go", 5⟩ = 10 := by
  rw [passingTime, List.filter_eq_self.2 fun s hs => decide_eq_true (passes_recursiveStack hs)]
  simp [recursiveStack, value]

/-- The only sample counts twice, so that the site takes more time than all samples. -/
theorem executionTime_recursiveStack :
    recursiveStack.check = none ∧
      (walkProgram.call? ⟨0, 0, 0⟩).bind walkProgram.staticCallee? = none ∧
      (recursiveStack.samples.map (value 0)).sum = (10 : ℝ) ∧
      recursiveStack.passingTime 0 (siteKey walkProgram ⟨0, 0, 0⟩) = 10 ∧
      ∃ prof : Profile ℝ, ofSamples recursiveStack = .ok prof ∧
        prof.executionTime walkProgram ⟨0, 0, 0⟩ = 20 := by
  have hindex : recursiveStack.valueIndex? = some 0 := by decide
  have hstatic : (walkProgram.call? ⟨0, 0, 0⟩).bind walkProgram.staticCallee? = none := rfl
  refine ⟨by decide, hstatic, by simp [recursiveStack, value], ?_, _, rfl, ?_⟩
  · rw [siteKey_walkProgram, passingTime_recursiveStack]
  · rw [executionTime_of_samples hindex rfl hstatic, siteKey_walkProgram,
      List.map_congr_left fun s hs => by rw [callsAt_recursiveStack hs]]
    norm_num [recursiveStack, value]

/-- Both calls of `walk` are found in the stack, and the sample is counted for each. -/
theorem executionTime_ofSamples_recursiveStack :
    recursiveStack.check = none ∧ recursiveStack.types ≠ [] ∧
      (walkProgram.call? ⟨0, 0, 0⟩).bind walkProgram.staticCallee? = none ∧
      ∃ (index : Nat) (prof : Profile ℝ), ofSamples recursiveStack = .ok prof ∧
        recursiveStack.passingTime index (siteKey walkProgram ⟨0, 0, 0⟩) <
          prof.executionTime walkProgram ⟨0, 0, 0⟩ := by
  have hvalid : recursiveStack.check = none := by decide
  have htypes : recursiveStack.types ≠ [] := by decide
  have hstatic : (walkProgram.call? ⟨0, 0, 0⟩).bind walkProgram.staticCallee? = none := rfl
  obtain ⟨index, prof, hindex, hprof, -, -, hbounds⟩ :=
    executionTime_ofSamples recursiveStack hvalid htypes walkProgram ⟨0, 0, 0⟩ hstatic
  obtain rfl : 0 = index := Option.some.inj hindex
  refine ⟨hvalid, htypes, hstatic, 0, prof, hprof, ?_⟩
  obtain ⟨hle, -, hiff⟩ := hbounds (by simp [recursiveStack, value])
  refine lt_of_le_of_ne hle fun heq => ?_
  -- the only sample has a positive value and two calls at the site
  have hone := hiff.1 heq.symm _ (List.mem_singleton.2 rfl) (by simp [value])
  rw [siteKey_walkProgram, callsAt_recursiveStack (List.mem_singleton.2 rfl)] at hone
  exact absurd hone (by decide)

end Profile

end Overlap
