/-
  The records of a run.

  A run is stored as the records of its groups, of their members and of their
  dependences.  The records are read back as they were written, and the parts of
  a group find their group by its rank.

  * `groupOf_record`, `memberOf_record` and `dependenceOf_record`: what a record
    stands for, if no number is NaN and no kind has a comma;
  * `groupRecord_fits_iff` and `Positioned.fits_iff`: the records of a new run
    fit into the tables if no rank is repeated and no number is NaN;
  * `Positioned.addRows_eq`: reading gives every group its parts, in order.
-/
import Overlap.Proofs.Tables
import Overlap.Store.Results

namespace Overlap.Store

/-! ## Values -/

namespace Datum

@[simp] theorem isNull_integer (n : Int) : (integer n).isNull = false := rfl

@[simp] theorem isNull_text (s : String) : (text s).isNull = false := rfl

@[simp] theorem isNull_ofFloat (x : Float) : (ofFloat x).isNull = x.isNaN := by
  unfold ofFloat
  cases x.isNaN <;> rfl

theorem toFloat_ofFloat {x : Float} (hx : x.isNaN = false) : (ofFloat x).toFloat = x := by
  rw [ofFloat, hx]
  rfl

theorem toText_ofText (s : String) : (ofText s).toText = s := by
  unfold ofText
  split_ifs with hs
  · exact (String.isEmpty_iff.1 hs).symm
  · rfl

theorem toInt_ofNonzero (n : Int) : (ofNonzero n).toInt = n := by
  unfold ofNonzero
  split_ifs with hn
  · exact hn.symm
  · rfl

end Datum

end Overlap.Store

namespace Overlap

/-- The numbers of a group itself. -/
def Group.totals (g : Group Float) : List Float :=
  [g.cost, g.score, g.minSaving, g.maxSaving, g.minPercent, g.maxPercent]

/-- The numbers of a group and of its members. -/
def Group.numbers (g : Group Float) : List Float := g.totals ++ g.members.map (·.time)

/-- A group before its members and dependences are known. -/
def Group.bare (g : Group Float) : Group Float := { g with members := [], dependencies := [] }

/-- Whether the kinds of a dependence are told apart when they are joined by commas. -/
def DependenceReport.Separable (d : DependenceReport) : Prop :=
  d.kinds ≠ [] ∧ ∀ kind ∈ d.kinds, ',' ∉ kind.toList

instance (d : DependenceReport) : Decidable d.Separable :=
  inferInstanceAs (Decidable (d.kinds ≠ [] ∧ ∀ kind ∈ d.kinds, ',' ∉ kind.toList))

end Overlap

namespace Overlap.Store

/-! ## Groups -/

/-- The record of a group of a run. -/
def groupRecord (e : Int × Group Float) : Record := nodeSetCells e.1 e.2

theorem groupOf_record (e : Int × Group Float) (h : ∀ x ∈ e.2.totals, x.isNaN = false) :
    groupOf ⟨0, groupRecord e⟩ = e.2.bare := by
  obtain ⟨run, g⟩ := e
  simp only [Group.totals, List.forall_mem_cons, List.not_mem_nil, false_imp_iff, implies_true,
    and_true] at h
  obtain ⟨h₁, h₂, h₃, h₄, h₅, h₆⟩ := h
  change Group.mk g.rank g.parent (Datum.ofText g.parentFile).toText [] [] g.flowDeps g.antiDeps
    g.outputDeps g.controlDeps g.noDominateDeps (Datum.ofFloat g.cost).toFloat
    (Datum.ofFloat g.score).toFloat (Datum.ofFloat g.minSaving).toFloat
    (Datum.ofFloat g.maxSaving).toFloat (Datum.ofFloat g.minPercent).toFloat
    (Datum.ofFloat g.maxPercent).toFloat g.stores = g.bare
  rw [Datum.toText_ofText, Datum.toFloat_ofFloat h₁, Datum.toFloat_ofFloat h₂,
    Datum.toFloat_ofFloat h₃, Datum.toFloat_ofFloat h₄, Datum.toFloat_ofFloat h₅,
    Datum.toFloat_ofFloat h₆]
  rfl

theorem groupRecord_run (e : Int × Group Float) :
    valueIn (groupRecord e) "run" = .integer e.1 := rfl

theorem groupRecord_rank (e : Int × Group Float) :
    valueIn (groupRecord e) "rank" = .integer e.2.rank := rfl

theorem groupRecord_complete_iff (e : Int × Group Float) :
    (∀ c ∈ nodeSetTable.required, (valueIn (groupRecord e) c).isNull = false) ↔
      ∀ x ∈ e.2.totals, x.isNaN = false := by
  simp [nodeSetTable, valueIn, groupRecord, nodeSetCells, List.lookup_cons, Group.totals]

theorem groupRecord_clash (e e' : Int × Group Float) :
    nodeSetTable.clash (groupRecord e) (groupRecord e') = true ↔
      e.1 = e'.1 ∧ e.2.rank = e'.2.rank := by
  change (e.1 == e'.1 && (e.2.rank == e'.2.rank && true)) = true ↔ _
  simp

/-- The records of the groups of a new run can be added if no rank is repeated and no number is
    NaN. -/
theorem groupRecord_fits_iff {run : Int} {old : List (Int × Group Float)}
    (hold : ∀ e ∈ old, e.1 ≠ run) (groups : List (Group Float)) :
    nodeSetTable.Fits (old.map groupRecord) ((groups.map (run, ·)).map groupRecord) ↔
      (groups.map (·.rank)).Nodup ∧ ∀ g ∈ groups, ∀ x ∈ g.totals, x.isNaN = false := by
  have hclash : ∀ g g' : Group Float,
      nodeSetTable.clash (groupRecord (run, g')) (groupRecord (run, g)) = false ↔
        g.rank ≠ g'.rank := by
    intro g g'
    rw [Bool.eq_false_iff, ne_eq, groupRecord_clash]
    simp [eq_comm]
  have hdistinct : ((groups.map (run, ·)).map groupRecord).Pairwise
      (fun r r' => nodeSetTable.clash r' r = false) ↔ (groups.map (·.rank)).Nodup := by
    rw [List.pairwise_map, List.pairwise_map, List.Nodup, List.pairwise_map]
    simp only [hclash]
  have hcomplete : (∀ r ∈ (groups.map (run, ·)).map groupRecord, ∀ c ∈ nodeSetTable.required,
      (valueIn r c).isNull = false) ↔ ∀ g ∈ groups, ∀ x ∈ g.totals, x.isNaN = false := by
    simp only [List.forall_mem_map, groupRecord_complete_iff]
  constructor
  · exact fun h => ⟨hdistinct.1 h.distinct, hcomplete.1 h.complete⟩
  · rintro ⟨hranks, hnumbers⟩
    refine ⟨hcomplete.2 hnumbers, ?_, hdistinct.2 hranks⟩
    simp only [List.forall_mem_map]
    intro g _ e he
    rw [Bool.eq_false_iff, ne_eq, groupRecord_clash]
    exact fun h => hold e he h.1.symm

/-! ## Parts of groups -/

/-- A part of a group of a run: a member or a dependence, with its position. -/
structure Entry (α : Type) where
  run : Int
  rank : Int
  position : Int
  value : α

section
variable {α : Type}

/-- The entries of one group. -/
def entriesOf (part : Group Float → List α) (run : Int) (g : Group Float) : List (Entry α) :=
  (part g).zipIdx.map fun (x, i) => ⟨run, g.rank, i, x⟩

/-- The entries of the groups of a run. -/
def entries (part : Group Float → List α) (run : Int) (groups : List (Group Float)) :
    List (Entry α) :=
  groups.flatMap (entriesOf part run)

variable {part : Group Float → List α} {run : Int} {g : Group Float} {groups : List (Group Float)}
  {e : Entry α}

theorem mem_entriesOf (he : e ∈ entriesOf part run g) :
    e.run = run ∧ e.rank = g.rank ∧ e.value ∈ part g := by
  obtain ⟨⟨x, i⟩, hx, rfl⟩ := List.mem_map.1 he
  exact ⟨rfl, rfl, List.fst_mem_of_mem_zipIdx hx⟩

theorem map_value_entriesOf (part : Group Float → List α) (run : Int) (g : Group Float) :
    (entriesOf part run g).map (·.value) = part g := by
  rw [entriesOf, List.map_map]
  exact List.zipIdx_map_fst 0 (part g)

theorem run_of_mem_entries (he : e ∈ entries part run groups) : e.run = run := by
  obtain ⟨g, _, he⟩ := List.mem_flatMap.1 he
  exact (mem_entriesOf he).1

theorem forall_mem_entries {p : α → Prop} :
    (∀ e ∈ entries part run groups, p e.value) ↔ ∀ g ∈ groups, ∀ x ∈ part g, p x := by
  constructor
  · intro h g hg x hx
    rw [← map_value_entriesOf part run g] at hx
    obtain ⟨e, he, rfl⟩ := List.mem_map.1 hx
    exact h e (List.mem_flatMap.2 ⟨g, hg, he⟩)
  · intro h e he
    obtain ⟨g, hg, he⟩ := List.mem_flatMap.1 he
    exact h g hg e.value (mem_entriesOf he).2.2

theorem entriesOf_pairwise (part : Group Float → List α) (run : Int) (g : Group Float) :
    (entriesOf part run g).Pairwise fun e e' => e.position < e'.position :=
  List.pairwise_map.2 ((zipIdx_pairwise (part g)).imp fun h => Int.ofNat_lt.2 h)

theorem filter_entries (part : Group Float → List α) (run : Int)
    (hranks : (groups.map (·.rank)).Nodup) (hg : g ∈ groups) :
    (entries part run groups).filter (fun e => e.rank = g.rank) = entriesOf part run g :=
  filter_flatMap_of_nodup (fun _ _ _ he => (mem_entriesOf he).2.1) hranks hg

/-- A table of parts of groups, which are told apart by run, rank and position. -/
structure Positioned (new : Table) (record : Entry α → Record) : Prop where
  numbered_eq : new.numbered = none
  key_eq : new.key = ["run", "rank", "position"]
  run_eq : ∀ e, valueIn (record e) "run" = .integer e.run
  rank_eq : ∀ e, valueIn (record e) "rank" = .integer e.rank
  position_eq : ∀ e, valueIn (record e) "position" = .integer e.position

variable {new : Table} {record : Entry α → Record}

theorem Positioned.clash_iff (hnew : Positioned new record) (e e' : Entry α) :
    new.clash (record e) (record e') = true ↔
      e.run = e'.run ∧ e.rank = e'.rank ∧ e.position = e'.position := by
  simp [Table.clash, Table.sameKey, hnew.key_eq, Row.get_eq, hnew.run_eq, hnew.rank_eq,
    hnew.position_eq, Datum.same]

/-- The records of the parts of a new run can be added if they are complete, given that no rank is
    repeated. -/
theorem Positioned.fits_iff (hnew : Positioned new record) {old : List (Entry α)}
    (hold : ∀ e ∈ old, e.run ≠ run) (hranks : (groups.map (·.rank)).Nodup) :
    new.Fits (old.map record) ((entries part run groups).map record) ↔
      ∀ e ∈ entries part run groups, ∀ c ∈ new.required, (valueIn (record e) c).isNull = false := by
  constructor
  · exact fun h => List.forall_mem_map.1 h.complete
  · intro hcomplete
    refine ⟨List.forall_mem_map.2 hcomplete, ?_, ?_⟩
    · simp only [List.forall_mem_map]
      intro e he e' he'
      rw [Bool.eq_false_iff, ne_eq, hnew.clash_iff]
      exact fun h => hold e' he' (h.1.symm.trans (run_of_mem_entries he))
    · rw [List.pairwise_map, entries, List.pairwise_flatMap]
      refine ⟨fun g _ => (entriesOf_pairwise part run g).imp fun {e e'} hlt => ?_, ?_⟩
      · rw [Bool.eq_false_iff, ne_eq, hnew.clash_iff]
        omega
      · refine (List.pairwise_map.1 hranks).imp fun {g g'} hne e he e' he' => ?_
        rw [Bool.eq_false_iff, ne_eq, hnew.clash_iff, (mem_entriesOf he).2.1,
          (mem_entriesOf he').2.1]
        exact fun h => hne h.2.1.symm

theorem Positioned.foldlM_insert {ε : Type} {t : Table} (hnew : Positioned new record)
    {old : List (Entry α)} (ht : t.Stores new record old) (hold : ∀ e ∈ old, e.run ≠ run)
    (part : Group Float → List α) (hranks : (groups.map (·.rank)).Nodup)
    (err : Entry α → TableError → ε) :
    SucceedsIff
      (∀ e ∈ entries part run groups, ∀ c ∈ new.required, (valueIn (record e) c).isNull = false)
      (Table.Stores · new record (old ++ entries part run groups))
      ((entries part run groups).foldlM (fun t e => (t.insert (record e)).mapError (err e)) t) :=
  (ht.foldlM_insert hnew.numbered_eq err _).congr (hnew.fits_iff hold hranks) fun _ => id

end

/-! ## Members -/

/-- The record of a member. -/
def memberRecord (e : Entry (MemberReport Float)) : Record :=
  memberCells e.run e.rank e.position e.value

theorem positioned_members : Positioned memberTable memberRecord :=
  ⟨rfl, rfl, fun _ => rfl, fun _ => rfl, fun _ => rfl⟩

theorem memberRecord_complete_iff (e : Entry (MemberReport Float)) :
    (∀ c ∈ memberTable.required, (valueIn (memberRecord e) c).isNull = false) ↔
      e.value.time.isNaN = false := by
  simp [memberTable, valueIn, memberRecord, memberCells, List.lookup_cons]

theorem memberOf_record (e : Entry (MemberReport Float)) (h : e.value.time.isNaN = false) :
    memberOf ⟨0, memberRecord e⟩ = e.value := by
  obtain ⟨run, rank, position, m⟩ := e
  change MemberReport.mk m.callee (Datum.ofText m.file).toText (Datum.ofNonzero m.line).toInt
    (Datum.ofFloat m.time).toFloat m.stores = m
  rw [Datum.toText_ofText, Datum.toInt_ofNonzero, Datum.toFloat_ofFloat h]

theorem insertMembers_eq (t : Table) (run : Int) (groups : List (Group Float)) :
    insertMembers t run groups = (do
      (t.checkWritten memberColumns).mapError .memberStatement
      (entries (·.members) run groups).foldlM (fun t e =>
        (t.insert (memberRecord e)).mapError (.member e.value.callee e.rank)) t) := by
  simp only [entries, entriesOf, foldlM_flatMap, List.foldlM_map]
  rfl

/-! ## Dependences -/

/-- The record of a dependence. -/
def dependenceRecord (e : Entry DependenceReport) : Record :=
  dependenceCells e.run e.rank e.position e.value

theorem positioned_dependences : Positioned dependenceTable dependenceRecord :=
  ⟨rfl, rfl, fun _ => rfl, fun _ => rfl, fun _ => rfl⟩

theorem dependenceRecord_complete (e : Entry DependenceReport) :
    ∀ c ∈ dependenceTable.required, (valueIn (dependenceRecord e) c).isNull = false := by
  simp [dependenceTable, valueIn, dependenceRecord, dependenceCells, List.lookup_cons]

theorem dependenceOf_record (e : Entry DependenceReport) (h : e.value.Separable) :
    dependenceOf ⟨0, dependenceRecord e⟩ = e.value := by
  obtain ⟨run, rank, position, d⟩ := e
  have hkinds : ((",".intercalate d.kinds).split ',').toList.map (·.copy) = d.kinds := by
    have hsplit := String.toList_split_intercalate h.2
    rwa [if_neg h.1] at hsplit
  change DependenceReport.mk d.callee (Datum.ofText d.own).toText (Datum.ofText d.foreign).toText
    (((",".intercalate d.kinds).split ',').toList.map (·.copy)) = d
  rw [Datum.toText_ofText, Datum.toText_ofText, hkinds]

theorem insertDependencies_eq (t : Table) (run : Int) (groups : List (Group Float)) :
    insertDependencies t run groups = (do
      (t.checkWritten dependenceColumns).mapError .dependenceStatement
      (entries (·.dependencies) run groups).foldlM (fun t e =>
        (t.insert (dependenceRecord e)).mapError (.dependence e.rank)) t) := by
  simp only [entries, entriesOf, foldlM_flatMap, List.foldlM_map]
  rfl

/-! ## Putting groups together -/

/-- Changes the group if it has a rank. -/
def changeRank (rank : Int) (change : Group Float → Group Float) (g : Group Float) : Group Float :=
  if g.rank = rank then change g else g

section
variable {groups : List (Group Float)}

theorem rank_changeRank {change : Group Float → Group Float}
    (hchange : ∀ g, (change g).rank = g.rank) (rank : Int) (g : Group Float) :
    (changeRank rank change g).rank = g.rank := by
  unfold changeRank
  split_ifs
  · exact hchange g
  · rfl

theorem updateLast_eq_none {rank : Int} (h : ∀ g ∈ groups, g.rank ≠ rank)
    (change : Group Float → Group Float) : updateLast groups rank change = none := by
  induction groups with
  | nil => rfl
  | cons g groups ih =>
    obtain ⟨hg, hgroups⟩ := List.forall_mem_cons.1 h
    rw [updateLast, ih hgroups]
    exact if_neg hg

/-- The last group with a rank is the only one, if no rank is repeated. -/
theorem updateLast_eq_some (hranks : (groups.map (·.rank)).Nodup) {g : Group Float}
    (hg : g ∈ groups) (change : Group Float → Group Float) :
    updateLast groups g.rank change = some (groups.map (changeRank g.rank change)) := by
  induction groups with
  | nil => simp at hg
  | cons g' groups ih =>
    obtain ⟨hg', hranks⟩ := List.nodup_cons.1 hranks
    rw [updateLast]
    rcases List.mem_cons.1 hg with rfl | hg
    · have hother : ∀ g' ∈ groups, g'.rank ≠ g.rank := fun g' hmem heq =>
        hg' (List.mem_map.2 ⟨g', hmem, heq⟩)
      have hrest : groups.map (changeRank g.rank change) = groups := by
        refine (List.map_congr_left fun g' hmem => ?_).trans (List.map_id groups)
        exact if_neg (hother g' hmem)
      rw [updateLast_eq_none hother, List.map_cons, hrest, changeRank]
      simp only [if_true]
    · have hne : g'.rank ≠ g.rank := fun heq => hg' (List.mem_map.2 ⟨g, hg, heq.symm⟩)
      rw [ih hranks hg, List.map_cons, changeRank]
      simp only [hne, if_false]

/-- Every row goes to the group of its rank. -/
theorem addRows_eq {rows : List Row} {change : Row → Group Float → Group Float}
    (stray : Int → NodeSetsError) (hchange : ∀ r g, (change r g).rank = g.rank)
    (hranks : (groups.map (·.rank)).Nodup)
    (hrows : ∀ r ∈ rows, ∃ g ∈ groups, g.rank = (r.get "rank").toInt) :
    addRows rows change stray groups = .ok (groups.map fun g =>
      (rows.filter fun r => (r.get "rank").toInt = g.rank).foldl (fun g r => change r g) g) := by
  induction rows generalizing groups with
  | nil => simp [addRows, pure, Except.pure]
  | cons r rows ih =>
    obtain ⟨⟨g, hg, hrank⟩, hrows⟩ := List.forall_mem_cons.1 hrows
    have hsame := rank_changeRank (hchange r) g.rank
    have hmap : (groups.map (changeRank g.rank (change r))).map (·.rank) =
        groups.map (·.rank) := by
      rw [List.map_map]
      exact List.map_congr_left fun g' _ => hsame g'
    have hfirst : addRows (r :: rows) change stray groups =
        addRows rows change stray (groups.map (changeRank g.rank (change r))) := by
      unfold addRows
      rw [List.foldlM_cons]
      dsimp only
      rw [← hrank, updateLast_eq_some hranks hg]
      rfl
    rw [hfirst, ih (hmap ▸ hranks), List.map_map]
    · refine congrArg Except.ok (List.map_congr_left fun g' _ => ?_)
      rw [Function.comp_apply, hsame, List.filter_cons, ← hrank, changeRank]
      by_cases heq : g'.rank = g.rank
      · simp [heq]
      · simp [heq, Ne.symm heq]
    · intro r' hr'
      obtain ⟨g', hg', hrank'⟩ := hrows r' hr'
      exact ⟨_, List.mem_map_of_mem hg', (hsame g').trans hrank'⟩

end

section
variable {α : Type} {part : Group Float → List α} {new t : Table} {record : Entry α → Record}
  {stored : List (Entry α)} {run : Int} {groups sorted : List (Group Float)}

theorem Positioned.rowsWith_eq (hnew : Positioned new record) (ht : t.Stores new record stored)
    (hstored : stored.filter (fun e => e.run = run) = entries part run groups) :
    (t.rowsWith "run" run ["rank", "position"]).map (·.cells) =
      (Table.sortByKeys [Entry.rank, Entry.position] (entries part run groups)).map record := by
  rw [← hstored]
  exact ht.rowsWith_eq hnew.run_eq [("rank", Entry.rank), ("position", Entry.position)]
    (by simp [hnew.rank_eq, hnew.position_eq]) run

/-- The rows of a run with the rank of a group are those of the parts of the group. -/
theorem Positioned.filter_rowsWith (hnew : Positioned new record) (ht : t.Stores new record stored)
    (hstored : stored.filter (fun e => e.run = run) = entries part run groups)
    (hranks : (groups.map (·.rank)).Nodup) {g : Group Float} (hg : g ∈ groups) :
    ((t.rowsWith "run" run ["rank", "position"]).filter fun r =>
        (r.get "rank").toInt = g.rank).map (·.cells) = (entriesOf part run g).map record := by
  have hfilter := congrArg (List.filter fun r => (valueIn r "rank").toInt = g.rank)
    (hnew.rowsWith_eq ht hstored)
  rw [List.filter_map, List.filter_map] at hfilter
  refine hfilter.trans (congrArg _ ?_)
  have hrank : ∀ e ∈ Table.sortByKeys [Entry.rank, Entry.position] (entries part run groups),
      ((fun r => decide ((valueIn r "rank").toInt = g.rank)) ∘ record) e =
        decide (e.rank = g.rank) := by
    intro e _
    rw [Function.comp_apply, hnew.rank_eq]
    rfl
  have hentries := filter_entries part run hranks hg
  rw [List.filter_congr hrank, Table.filter_sortByKeys, hentries]
  rw [hentries]
  simp only [List.forall_mem_cons, List.not_mem_nil, false_imp_iff, implies_true, and_true]
  constructor
  · refine List.Pairwise.imp_of_mem (fun {e e'} he he' _ => ?_) (entriesOf_pairwise part run g)
    exact Int.le_of_eq ((mem_entriesOf he).2.1.trans (mem_entriesOf he').2.1.symm)
  · exact (entriesOf_pairwise part run g).imp fun hlt => Int.le_of_lt hlt

/-- The rows of the parts of a group are read as these parts. -/
theorem map_decode_eq {decode : Row → α} (hdecode : ∀ r, decode r = decode ⟨0, r.cells⟩)
    {g : Group Float} {rows : List Row}
    (hcells : rows.map (·.cells) = (entriesOf part run g).map record)
    (hvalue : ∀ e ∈ entriesOf part run g, decode ⟨0, record e⟩ = e.value) :
    rows.map decode = part g := by
  calc rows.map decode
      = (rows.map (·.cells)).map (fun c => decode ⟨0, c⟩) := by
        rw [List.map_map]
        exact List.map_congr_left fun r _ => hdecode r
    _ = (entriesOf part run g).map (·.value) := by
        rw [hcells, List.map_map]
        exact List.map_congr_left hvalue
    _ = part g := map_value_entriesOf part run g

/-- A way to give a group more parts: the parts it gets add up. -/
structure Extends (extend : Group Float → List α → Group Float) : Prop where
  nil : ∀ g, extend g [] = g
  append : ∀ g xs ys, extend (extend g xs) ys = extend g (xs ++ ys)
  rank_eq : ∀ g xs, (extend g xs).rank = g.rank

theorem Extends.foldl_eq {extend : Group Float → List α → Group Float} (hextend : Extends extend)
    (decode : Row → α) (rows : List Row) (g : Group Float) :
    rows.foldl (fun g r => extend g [decode r]) g = extend g (rows.map decode) := by
  induction rows generalizing g with
  | nil => exact (hextend.nil g).symm
  | cons r rows ih => rw [List.foldl_cons, ih, hextend.append, List.map_cons, List.singleton_append]

/-- **Reading gives every group its parts**: the rows of a run go to the groups of their ranks, in
    the order of their positions. -/
theorem Positioned.addRows_eq (hnew : Positioned new record) (ht : t.Stores new record stored)
    (hstored : stored.filter (fun e => e.run = run) = entries part run groups)
    (hranks : (groups.map (·.rank)).Nodup) (hsorted : sorted.Perm groups)
    {decode : Row → α} (hdecode : ∀ r, decode r = decode ⟨0, r.cells⟩)
    (hvalue : ∀ e ∈ entries part run groups, decode ⟨0, record e⟩ = e.value)
    {extend : Group Float → List α → Group Float} (hextend : Extends extend)
    (before : Group Float → Group Float) (hbefore : ∀ g, (before g).rank = g.rank)
    (stray : Int → NodeSetsError) :
    addRows (t.rowsWith "run" run ["rank", "position"]) (fun r g => extend g [decode r]) stray
        (sorted.map before) =
      .ok (sorted.map fun g => extend (before g) (part g)) := by
  have hmap : (sorted.map before).map (·.rank) = sorted.map (·.rank) := by
    rw [List.map_map]
    exact List.map_congr_left fun g _ => hbefore g
  rw [Store.addRows_eq stray fun r g => hextend.rank_eq g _]
  · refine congrArg Except.ok ?_
    rw [List.map_map]
    refine List.map_congr_left fun g hg => ?_
    have hg := hsorted.mem_iff.1 hg
    rw [Function.comp_apply, hbefore, hextend.foldl_eq]
    refine congrArg (extend (before g)) ?_
    exact map_decode_eq hdecode (hnew.filter_rowsWith ht hstored hranks hg) fun e he =>
      hvalue e (List.mem_flatMap.2 ⟨g, hg, he⟩)
  · rw [hmap]
    exact (hsorted.map _).nodup_iff.2 hranks
  · intro r hr
    have hr := List.mem_map_of_mem (f := (·.cells)) hr
    rw [hnew.rowsWith_eq ht hstored] at hr
    obtain ⟨e, he, hcells⟩ := List.mem_map.1 hr
    obtain ⟨g, hg, he⟩ := List.mem_flatMap.1 (Table.mem_sortByKeys.1 he)
    refine ⟨before g, List.mem_map_of_mem (hsorted.mem_iff.2 hg), ?_⟩
    rw [hbefore, Row.get_eq, ← hcells, hnew.rank_eq]
    exact (mem_entriesOf he).2.1.symm

end

theorem extends_members :
    Extends fun (g : Group Float) xs => { g with members := g.members ++ xs } where
  nil g := by simp
  append g xs ys := by simp
  rank_eq _ _ := rfl

theorem extends_dependences :
    Extends fun (g : Group Float) xs => { g with dependencies := g.dependencies ++ xs } where
  nil g := by simp
  append g xs ys := by simp
  rank_eq _ _ := rfl

end Overlap.Store
