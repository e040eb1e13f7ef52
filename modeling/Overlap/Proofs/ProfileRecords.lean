/-
  A profile answers like a scan of the records it was made of.

  A record is about a call: a site, known by its key, and a callee.

  * `Path.base_base`: the base name of a file is its own base name, so it does
    not matter how often it is taken;
  * `merged`: one record for each call, with the times of all records of the
    call, and `groups`: the same for one site;
  * `Indexes`: a profile holds the merged records and the positions of the
    records of each site; adding a record keeps this (`Indexes.add`), so that it
    holds of the profile of any list (`indexes_foldl`);
  * `ofRecords_scans`: the times, callees and records of a profile, and the time
    of the run.
-/
import Overlap.Profile.Basic
import Overlap.Proofs.Lists
import Overlap.Proofs.Program
import Overlap.Proofs.RealTimes

namespace Overlap

open Ssa

/-! ## Base names -/

namespace Text.Path

theorem not_mem_of_mem_splitOn {α : Type} [DecidableEq α] {a : α} {xs part : List α}
    (h : part ∈ xs.splitOn a) : a ∉ part := by
  induction xs generalizing part with
  | nil =>
    obtain rfl : part = [] := by simpa using h
    exact List.not_mem_nil
  | cons x xs ih =>
    rw [List.splitOn_cons_eq_if_modifyHead] at h
    split_ifs at h with hx
    · rcases List.mem_cons.1 h with rfl | h
      · exact List.not_mem_nil
      · exact ih h
    · cases hsplit : xs.splitOn a with
      | nil => simp [hsplit] at h
      | cons first rest =>
        rw [hsplit, List.modifyHead_cons] at h
        rw [hsplit] at ih
        rcases List.mem_cons.1 h with rfl | h
        · have := ih (List.mem_cons_self ..)
          simp only [beq_iff_eq] at hx
          simp [this, Ne.symm hx]
        · exact ih (List.mem_cons_of_mem _ h)

theorem base_of_component {path part : String} (h : part ∈ components path) (hne : part ≠ "") :
    base part = part := by
  obtain ⟨chars, hchars, rfl⟩ := List.mem_map.1 h
  have hcomponents : components (String.ofList chars) = [String.ofList chars] := by
    unfold components
    rw [String.toList_ofList, List.splitOn_eq_singleton (not_mem_of_mem_splitOn hchars)]
    rfl
  unfold base
  rw [hcomponents, if_neg (by simpa using hne)]
  simp [hne]

theorem base_base (path : String) : base (base path) = base path := by
  by_cases hempty : path.isEmpty
  · have hdot : base path = "." := by simp [base, hempty]
    rw [hdot]
    decide
  · have hbase : base path = (((components path).filter (· != "")).getLast?).getD "/" := by
      simp [base, hempty]
    cases hlast : ((components path).filter (· != "")).getLast? with
    | none =>
      rw [hbase, hlast]
      decide
    | some part =>
      obtain ⟨hpart, hne⟩ := List.mem_filter.1 (List.mem_of_getLast? hlast)
      rw [hbase, hlast]
      exact base_of_component hpart (by simpa using hne)

end Text.Path

namespace CallRecord

variable {τ : Type}

/-- What a record is about: a site and a callee. -/
def call (r : CallRecord τ) : SiteKey × String := (r.key, r.callee)

/-- The record with the base name of its file. -/
def normalized (r : CallRecord τ) : CallRecord τ := { r with file := Text.Path.base r.file }

@[simp] theorem key_normalized (r : CallRecord τ) : r.normalized.key = r.key := by
  simp [key, normalized, Text.Path.base_base]

@[simp] theorem callee_normalized (r : CallRecord τ) : r.normalized.callee = r.callee := rfl

@[simp] theorem call_normalized (r : CallRecord τ) : r.normalized.call = r.call := by simp [call]

end CallRecord

namespace Profile

open CallRecord

variable {τ : Type} [Quantity τ]

/-! ## Merged records -/

/-- The times of some records, added from left to right. -/
def timeOf : List (CallRecord τ) → τ
  | [] => Quantity.zero
  | r :: rest => rest.foldl (fun t s => t + s.time) r.time

/-- The record that stands for all records of a call. -/
def total (records : List (CallRecord τ)) (c : SiteKey × String) : CallRecord τ :=
  ⟨c.1.caller, c.1.file, c.1.line, c.2, timeOf (records.filter (·.call = c))⟩

/-- One record for each call, in order of first appearance. -/
def merged (records : List (CallRecord τ)) : List (CallRecord τ) :=
  (records.map call).eraseDups.map (total records)

/-- The callees recorded at a site, in order of first appearance, each with the times of its
    records. -/
def groups (records : List (CallRecord τ)) (k : SiteKey) : List (String × τ) :=
  let here := records.filter (·.key = k)
  (here.map (·.callee)).eraseDups.map fun c => (c, timeOf (here.filter (·.callee = c)))

section
variable {records : List (CallRecord τ)} {r : CallRecord τ} {c : SiteKey × String}

theorem timeOf_concat (hne : records ≠ []) : timeOf (records ++ [r]) = timeOf records + r.time := by
  cases records with
  | nil => exact absurd rfl hne
  | cons s rest => simp [timeOf]

theorem call_total (hc : c ∈ records.map call) : (total records c).call = c := by
  obtain ⟨r, -, rfl⟩ := List.mem_map.1 hc
  simp [total, call, key, Text.Path.base_base]

theorem map_call_merged (records : List (CallRecord τ)) :
    (merged records).map call = (records.map call).eraseDups := by
  unfold merged
  rw [List.map_map]
  conv_rhs => rw [← List.map_id (records.map call).eraseDups]
  refine List.map_congr_left fun c hc => ?_
  exact call_total (by simpa using hc)

theorem nodup_merged (records : List (CallRecord τ)) : ((merged records).map call).Nodup := by
  rw [map_call_merged]
  exact nodup_eraseDups _

/-- A record of a new call goes to the end. -/
theorem merged_concat_of_not_mem (hr : r.call ∉ records.map call) :
    merged (records ++ [r]) = merged records ++ [r.normalized] := by
  have hother : ∀ c ∈ (records.map call).eraseDups, total (records ++ [r]) c = total records c := by
    intro c hc
    have hne : r.call ≠ c := by
      rintro rfl
      exact hr (by simpa using hc)
    simp [total, hne]
  have hnew : total (records ++ [r]) r.call = r.normalized := by
    have hnone : records.filter (·.call = r.call) = [] := by
      refine List.filter_eq_nil_iff.2 fun s hs => ?_
      simpa using fun h => hr (List.mem_map.2 ⟨s, hs, h⟩)
    unfold total
    rw [List.filter_append, hnone, List.nil_append, List.filter_singleton]
    simp [timeOf, call, key, normalized]
  unfold merged
  rw [List.map_append, List.map_singleton, eraseDups_concat, if_neg hr, List.map_append,
    List.map_congr_left hother, List.map_singleton, hnew]

/-- The record of a call grows by the time of another record of the same call. -/
def grow (r s : CallRecord τ) : CallRecord τ :=
  if s.call = r.call then { s with time := s.time + r.time } else s

theorem merged_concat_of_mem (hr : r.call ∈ records.map call) :
    merged (records ++ [r]) = (merged records).map (grow r) := by
  unfold merged
  rw [List.map_append, List.map_singleton, eraseDups_concat, if_pos hr, List.map_map]
  refine List.map_congr_left fun c hc => ?_
  have hcall : (total records c).call = c := call_total (by simpa using hc)
  rw [Function.comp_apply, grow, hcall]
  split_ifs with hcr
  · have hne : records.filter (·.call = c) ≠ [] := by
      obtain ⟨s, hs, hsr⟩ := List.mem_map.1 hr
      exact List.ne_nil_of_mem (List.mem_filter.2 ⟨hs, by simp [hsr, hcr]⟩)
    simpa [total, hcr.symm] using timeOf_concat hne
  · simp [total, Ne.symm hcr]

end

/-! ## The index -/

/-- The positions of the records of a site. -/
def places (records : List (CallRecord τ)) (k : SiteKey) : List Nat :=
  (records.zipIdx.filter (·.1.key = k)).map (·.2)

/-- A profile that has been made of `records`: it holds the merged ones, and knows where those of
    each site are. -/
structure Indexes (p : Profile τ) (records : List (CallRecord τ)) : Prop where
  toList_records : p.records.toList = merged records
  positionsAt_eq : ∀ k, p.positionsAt k = places (merged records) k

section
variable {p : Profile τ} {records : List (CallRecord τ)} {r s : CallRecord τ} {k : SiteKey}
  {i : Nat}

omit [Quantity τ] in
theorem mem_places_iff : i ∈ places records k ↔ ∃ s, records[i]? = some s ∧ s.key = k := by
  simp [places, List.mk_mem_zipIdx_iff_getElem?]

omit [Quantity τ] in
theorem places_concat (records : List (CallRecord τ)) (r : CallRecord τ) (k : SiteKey) :
    places (records ++ [r]) k =
      places records k ++ if r.key = k then [records.length] else [] := by
  unfold places
  rw [List.zipIdx_append, List.filter_append, List.map_append]
  by_cases hk : r.key = k <;> simp [hk]

omit [Quantity τ] in
theorem places_map {f : CallRecord τ → CallRecord τ} (hf : ∀ s, (f s).key = s.key)
    (records : List (CallRecord τ)) (k : SiteKey) :
    places (records.map f) k = places records k := by
  simp [places, List.zipIdx_map, List.filter_map, Function.comp_def, hf]

omit [Quantity τ] in
theorem filterMap_places (records : List (CallRecord τ)) (k : SiteKey) :
    (places records k).filterMap (records[·]?) = records.filter (·.key = k) := by
  have hread : ∀ x ∈ records.zipIdx.filter (·.1.key = k), records[x.2]? = some x.1 := fun x hx =>
    List.mk_mem_zipIdx_iff_getElem?.1 (List.mem_filter.1 hx).1
  unfold places
  rw [List.filterMap_map, Function.comp_def, List.filterMap_congr hread, List.filterMap_eq_map']
  conv_rhs => rw [← List.zipIdx_map_fst 0 records, List.filter_map]
  rfl

theorem key_grow (r s : CallRecord τ) : (grow r s).key = s.key := by
  unfold grow
  split_ifs <;> rfl

/-- The call of a record has no other one, so only that record grows. -/
theorem modify_eq_map_grow (hnodup : (records.map call).Nodup) (hi : records[i]? = some s)
    (hs : s.call = r.call) :
    (records.modify i fun s => { s with time := s.time + r.time }) = records.map (grow r) := by
  refine List.ext_getElem? fun j => ?_
  rw [List.getElem?_modify, List.getElem?_map]
  cases hj : records[j]? with
  | none => rfl
  | some t =>
    by_cases hij : i = j
    · subst hij
      obtain rfl : s = t := Option.some.inj (hi.symm.trans hj)
      simp [grow, hs]
    · have ht : t.call ≠ r.call := by
        intro ht
        have hlt : i < (records.map call).length := by
          simpa using (List.getElem?_eq_some_iff.1 hi).1
        exact hij ((List.getElem?_inj hlt hnodup).1 (by simp [hi, hj, hs, ht]))
      simp [grow, hij, ht]

/-- The position of the record of the call of `r`. -/
def position? (p : Profile τ) (r : CallRecord τ) : Option Nat :=
  (p.positionsAt r.key).find? fun i => (p.records[i]?).any (·.callee == r.callee)

theorem add_cases (p : Profile τ) (r : CallRecord τ) :
    (∃ i, p.position? r = some i ∧ p.add r =
      { p with records := p.records.modify i fun s => { s with time := s.time + r.time } }) ∨
    (p.position? r = none ∧ p.add r =
      { p with
        records := p.records.push r.normalized
        bySite := p.bySite.insert r.key (p.positionsAt r.key ++ [p.records.size]) }) := by
  -- the record is looked up with the base name of its file, which has the same key
  have hposition : p.position? r.normalized = p.position? r := by simp [position?]
  rw [← hposition, ← key_normalized]
  unfold position? add CallRecord.normalized
  dsimp only
  split
  case h_1 i hfind => exact .inl ⟨i, hfind, rfl⟩
  case h_2 hfind => exact .inr ⟨hfind, rfl⟩

namespace Indexes

theorem getElem?_records (h : Indexes p records) (i : Nat) :
    p.records[i]? = (merged records)[i]? := by
  rw [← h.toList_records, Array.getElem?_toList]

theorem call_of_position (h : Indexes p records) (hfind : p.position? r = some i) :
    ∃ s, (merged records)[i]? = some s ∧ s.call = r.call := by
  have hmem := List.mem_of_find?_eq_some hfind
  have hcallee := List.find?_some hfind
  rw [h.positionsAt_eq] at hmem
  obtain ⟨s, hs, hkey⟩ := mem_places_iff.1 hmem
  rw [h.getElem?_records, hs, Option.any_some, beq_iff_eq] at hcallee
  exact ⟨s, hs, Prod.ext hkey hcallee⟩

theorem new_of_no_position (h : Indexes p records) (hfind : p.position? r = none) :
    r.call ∉ records.map call := by
  intro hr
  have hmem : r.call ∈ (merged records).map call := by simpa [map_call_merged] using hr
  obtain ⟨s, hs, hcall⟩ := List.mem_map.1 hmem
  obtain ⟨i, hi⟩ := List.mem_iff_getElem?.1 hs
  have hplace : i ∈ p.positionsAt r.key := by
    rw [h.positionsAt_eq]
    exact mem_places_iff.2 ⟨s, hi, congrArg Prod.fst hcall⟩
  have hcallee : s.callee = r.callee := congrArg Prod.snd hcall
  refine List.find?_eq_none.1 hfind i hplace ?_
  rw [h.getElem?_records, hi, Option.any_some, hcallee, beq_self_eq_true]

/-- **Adding a record keeps the index right.** -/
theorem add (h : Indexes p records) (r : CallRecord τ) : Indexes (p.add r) (records ++ [r]) := by
  rcases p.add_cases r with ⟨i, hfind, hadd⟩ | ⟨hfind, hadd⟩
  · obtain ⟨s, hs, hcall⟩ := h.call_of_position hfind
    have hr : r.call ∈ records.map call := by
      have : s.call ∈ (merged records).map call := List.mem_map_of_mem (List.mem_of_getElem? hs)
      rw [map_call_merged, hcall] at this
      simpa using this
    rw [hadd]
    constructor
    · rw [Array.toList_modify, h.toList_records, merged_concat_of_mem hr]
      exact modify_eq_map_grow (nodup_merged records) hs hcall
    · intro k
      rw [merged_concat_of_mem hr, places_map (key_grow r)]
      exact h.positionsAt_eq k
  · have hr := h.new_of_no_position hfind
    have hsize : p.records.size = (merged records).length := by
      rw [← h.toList_records, Array.length_toList]
    rw [hadd]
    constructor
    · rw [Array.toList_push, h.toList_records, merged_concat_of_not_mem hr]
    · intro k
      rw [merged_concat_of_not_mem hr, places_concat, key_normalized, ← h.positionsAt_eq, ← hsize]
      simp only [positionsAt, Std.HashMap.getD_insert, beq_iff_eq]
      split_ifs with hk
      · rw [hk]
      · rw [List.append_nil]

theorem recordsAt_eq (h : Indexes p records) (k : SiteKey) :
    p.recordsAt k = (merged records).filter (·.key = k) := by
  unfold recordsAt
  rw [h.positionsAt_eq, ← filterMap_places]
  exact List.filterMap_congr fun i _ => h.getElem?_records i

end Indexes

theorem indexes_foldl (mainTime : τ) (records : List (CallRecord τ)) :
    Indexes (records.foldl add (empty mainTime)) records := by
  induction records using List.reverseRecOn with
  | nil => exact ⟨rfl, fun k => by simp [positionsAt, empty, merged, places]⟩
  | append_singleton records r ih =>
    rw [List.foldl_append]
    exact ih.add r

/-! ## The answers -/

theorem totalTime_foldl (mainTime : τ) (records : List (CallRecord τ)) :
    (records.foldl add (empty mainTime)).totalTime = mainTime := by
  induction records using List.reverseRecOn with
  | nil => rfl
  | append_singleton records r ih =>
    rw [List.foldl_append, List.foldl_cons, List.foldl_nil]
    rcases add_cases (records.foldl add (empty mainTime)) r with ⟨i, -, hadd⟩ | ⟨-, hadd⟩
    · rw [hadd]
      exact ih
    · rw [hadd]
      exact ih

theorem indexes_ofRecords (mainTime : τ) (records : List (CallRecord τ)) :
    Indexes (ofRecords mainTime records) records := by
  have h := indexes_foldl mainTime records
  unfold ofRecords
  dsimp only
  split_ifs
  · exact ⟨h.toList_records, h.positionsAt_eq⟩
  · exact h

theorem totalTime_ofRecords (mainTime : τ) (records : List (CallRecord τ)) :
    (ofRecords mainTime records).totalTime = if Quantity.isZero mainTime then
      ((merged records).filter (·.caller = "main.main")).foldl (fun t r => t + r.time) mainTime
      else mainTime := by
  unfold ofRecords
  dsimp only
  split_ifs
  · rw [(indexes_foldl mainTime records).toList_records]
    rfl
  · exact totalTime_foldl mainTime records

theorem filter_merged (records : List (CallRecord τ)) (k : SiteKey) :
    (merged records).filter (·.key = k) =
      ((records.filter (·.key = k)).map (·.callee)).eraseDups.map
        fun c => total records (k, c) := by
  have hkey : ∀ c ∈ (records.map call).eraseDups,
      decide ((total records c).key = k) = decide (c.1 = k) := by
    intro c hc
    have hcall : (total records c).call = c := call_total (by simpa using hc)
    rw [show (total records c).key = c.1 from congrArg Prod.fst hcall]
  have hcalls : (records.map call).filter (·.1 = k) =
      ((records.filter (·.key = k)).map (·.callee)).map (k, ·) := by
    rw [List.filter_map, List.map_map]
    refine List.map_congr_left fun s hs => ?_
    have hs : s.key = k := of_decide_eq_true (List.mem_filter.1 hs).2
    simp [call, hs]
  have hinj : Function.Injective (Prod.mk (β := String) k) := fun c d h => (Prod.mk.inj h).2
  unfold merged
  rw [List.filter_map, Function.comp_def, List.filter_congr hkey, filter_eraseDups, hcalls,
    eraseDups_map hinj, List.map_map]
  rfl

theorem Indexes.groups_eq (h : Indexes p records) (k : SiteKey) :
    (p.recordsAt k).map (fun s => (s.callee, s.time)) = groups records k := by
  rw [h.recordsAt_eq, filter_merged, List.map_map]
  refine List.map_congr_left fun c _ => ?_
  have hcalls : records.filter (·.call = (k, c)) =
      (records.filter (·.key = k)).filter (·.callee = c) := by
    rw [List.filter_filter]
    refine List.filter_congr fun s _ => ?_
    simp [call, Prod.ext_iff, and_comm]
  simp [total, hcalls]

section
variable {P : Program} {site : Loc}

/-- All callees of a site count if it has no static one, or if a single one was recorded. -/
theorem executionTime_of_all
    (hall : (P.call? site).bind P.staticCallee? = none ∨
      (p.recordsAt (siteKey P site)).length < 2) :
    p.executionTime P site = Quantity.sum ((p.recordsAt (siteKey P site)).map (·.time)) := by
  unfold executionTime
  dsimp only
  split
  · rename_i f r s rest hstatic hrecords
    rw [hstatic, hrecords] at hall
    simp only [List.length_cons, reduceCtorEq, false_or] at hall
    omega
  · rfl

theorem executionTime_of_static {f : Nat}
    (hstatic : (P.call? site).bind P.staticCallee? = some f)
    (hmany : 2 ≤ (p.recordsAt (siteKey P site)).length) :
    p.executionTime P site = Quantity.sum (((p.recordsAt (siteKey P site)).filter fun r =>
      r.callee = "" ∨ r.callee = P.runtimeName f).map (·.time)) := by
  unfold executionTime
  dsimp only
  rw [hstatic]
  match hrecords : p.recordsAt (siteKey P site), hmany with
  | r :: s :: rest, _ => simp [Bool.beq_eq_decide_eq]

omit [Quantity τ] in
theorem concreteCallee_eq_some_iff {c : String} :
    p.concreteCallee P site = some c ↔ c ≠ "" ∧
      c ∈ (p.recordsAt (siteKey P site)).map (·.callee) ∧
      ∀ d ∈ (p.recordsAt (siteKey P site)).map (·.callee), d ≠ "" → d = c := by
  have hmem : ∀ d, d ∈ ((p.recordsAt (siteKey P site)).map (·.callee)).filter (· != "") ↔
      d ∈ (p.recordsAt (siteKey P site)).map (·.callee) ∧ d ≠ "" := fun d => by simp
  unfold concreteCallee
  split
  · rename_i hnone
    rw [hnone] at hmem
    simp only [reduceCtorEq, false_iff]
    rintro ⟨hc, hcallee, -⟩
    exact List.not_mem_nil ((hmem c).2 ⟨hcallee, hc⟩)
  · rename_i d rest hcallees
    rw [hcallees] at hmem
    have hd := (hmem d).1 (List.mem_cons_self ..)
    rw [Option.ite_none_right_eq_some, List.all_eq_true, Option.some.injEq]
    constructor
    · rintro ⟨hall, rfl⟩
      refine ⟨hd.2, hd.1, fun e he hne => ?_⟩
      rcases List.mem_cons.1 ((hmem e).2 ⟨he, hne⟩) with rfl | he
      · rfl
      · exact beq_iff_eq.1 (hall e he)
    · rintro ⟨-, -, honly⟩
      obtain rfl : d = c := honly d hd.1 hd.2
      refine ⟨fun e he => beq_iff_eq.2 ?_, rfl⟩
      obtain ⟨he, hne⟩ := (hmem e).1 (List.mem_cons_of_mem _ he)
      exact honly e he hne

end

end

/-- **A profile answers like a scan of its records.** The callees recorded at a site, in order of
    first appearance, each with the times of its records added from left to right, determine its
    time and its callee: all callees count, or only the static one and the unknown one if there is
    a static one and several were recorded; and the callee is known if only one was recorded. The
    listed records are one for each call, by decreasing time and otherwise in order of first
    appearance, if no time is undefined. The time of the run is the given one, or if that is zero
    the time of the calls of the main function. -/
theorem ofRecords_scans (P : Program) (mainTime : τ) (records : List (CallRecord τ)) (site : Loc) :
    let p := ofRecords mainTime records
    let callees := groups records (siteKey P site)
    let static := (P.call? site).bind P.staticCallee?
    (static = none ∨ callees.length < 2 →
      p.executionTime P site = Quantity.sum (callees.map (·.2))) ∧
    (∀ f, static = some f → 2 ≤ callees.length → p.executionTime P site = Quantity.sum
      ((callees.filter fun c => c.1 = "" ∨ c.1 = P.runtimeName f).map (·.2))) ∧
    (∀ c, p.concreteCallee P site = some c ↔ c ≠ "" ∧ c ∈ callees.map (·.1) ∧
      ∀ d ∈ callees.map (·.1), d ≠ "" → d = c) ∧
    p.byTime.Perm (merged records) ∧
    (Quantity.Ordered τ → (∀ r ∈ merged records, Quantity.isDefined r.time) →
      Quantity.Descending (·.time) (merged records) p.byTime) ∧
    p.totalTime = if Quantity.isZero mainTime then
      ((merged records).filter (·.caller = "main.main")).foldl (fun t r => t + r.time) mainTime
      else mainTime := by
  intro p callees static
  have h : Indexes p records := indexes_ofRecords mainTime records
  have hcallees : callees = (p.recordsAt (siteKey P site)).map fun s => (s.callee, s.time) :=
    (h.groups_eq _).symm
  have hbyTime : p.byTime = Quantity.sortDescending (·.time) (merged records) := by
    rw [byTime, h.toList_records]
  refine ⟨fun hall => ?_, fun f hf hmany => ?_, fun c => ?_, ?_, fun _ hdefined => ?_,
    totalTime_ofRecords mainTime records⟩
  · rw [hcallees, List.length_map] at hall
    rw [executionTime_of_all hall, hcallees, List.map_map]
    rfl
  · rw [hcallees, List.length_map] at hmany
    rw [executionTime_of_static hf hmany, hcallees, List.filter_map, List.map_map]
    rfl
  · rw [concreteCallee_eq_some_iff, hcallees, List.map_map]
    rfl
  · rw [hbyTime]
    exact Quantity.sortDescending_perm ..
  · rw [hbyTime]
    exact Quantity.descending_sortDescending hdefined

/-- A call of `f` with the result of a call of `g`, on one line. -/
def nestedCalls : Program :=
  smallProgram #[] #[
    straightLine "main" #[] #[{ callTo 0 2 [] with pos := some ⟨0, 4, 5⟩ },
      { callTo 1 1 [.result ⟨0, 0, 0⟩] with pos := some ⟨0, 4, 3⟩ }, ⟨.ret [], none, none⟩],
    straightLine "f" #[⟨"x", .basic "int"⟩] #[⟨.ret [], none, none⟩],
    straightLine "g" #[] #[⟨.ret [], none, none⟩]]

/-- Times of both calls, with different paths of the same file. -/
def nestedRecords : List (CallRecord ℝ) := [
  ⟨"main.main", "/src/main.go", 4, "main.f", 3⟩, ⟨"main.main", "main.go", 4, "main.g", 5⟩,
  ⟨"main.main", "/tmp/main.go", 4, "main.f", 1⟩]

theorem siteKey_nestedCalls : siteKey nestedCalls ⟨0, 0, 1⟩ = ⟨"main.main", "main.go", 4⟩ := by
  decide +kernel

theorem groups_nestedRecords :
    groups nestedRecords ⟨"main.main", "main.go", 4⟩ = [("main.f", 3 + 1), ("main.g", 5)] := by
  rfl

/-- Of the two callees on the line only the records of `f` are those of its call. -/
theorem ofRecords_scans_nestedCalls :
    (nestedCalls.call? ⟨0, 0, 1⟩).bind nestedCalls.staticCallee? = some 1 ∧
      groups nestedRecords (siteKey nestedCalls ⟨0, 0, 1⟩) = [("main.f", 3 + 1), ("main.g", 5)] ∧
      (ofRecords 0 nestedRecords).executionTime nestedCalls ⟨0, 0, 1⟩ = 4 ∧
      (∀ r ∈ merged nestedRecords, Quantity.isDefined r.time) ∧
      Quantity.Descending (·.time) (merged nestedRecords) (ofRecords 0 nestedRecords).byTime := by
  have hstatic : (nestedCalls.call? ⟨0, 0, 1⟩).bind nestedCalls.staticCallee? = some 1 := rfl
  have hgroups : groups nestedRecords (siteKey nestedCalls ⟨0, 0, 1⟩) =
      [("main.f", 3 + 1), ("main.g", 5)] := by
    rw [siteKey_nestedCalls, groups_nestedRecords]
  have hname : nestedCalls.runtimeName 1 = "main.f" := by decide +kernel
  have hdefined : ∀ r ∈ merged nestedRecords, Quantity.isDefined r.time := by simp
  obtain ⟨-, htime, -, -, hsorted, -⟩ := ofRecords_scans nestedCalls 0 nestedRecords ⟨0, 0, 1⟩
  refine ⟨hstatic, hgroups, ?_, hdefined, hsorted inferInstance hdefined⟩
  have hcounted : ([("main.f", 3 + 1), ("main.g", 5)] : List (String × ℝ)).filter
      (fun c => c.1 = "" ∨ c.1 = "main.f") = [("main.f", 3 + 1)] := rfl
  rw [htime 1 hstatic (by rw [hgroups]; exact Nat.le_refl 2), hgroups, hname, hcounted,
    Quantity.sum_real]
  norm_num

end Profile

end Overlap
