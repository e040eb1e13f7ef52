/-
  The runs of a database.

  Runs are written one after the other (`Database.writeAll`).  A run is refused
  if it repeats a rank or has a NaN among its numbers, and then it leaves no
  trace; all others get the numbers 1, 2, 3, ... and are read back as they were.

  * `Database.Stores`: the rows of all tables, for the runs that were accepted;
  * `Stores.write` and `Stores.attempt`: one run; `Stores.writeAll`: any number
    of them;
  * `Stores.readNodeSets_eq` and `Stores.listRuns_eq`: what is read;
  * `writeAll_reads_back`: what every run of a sequence comes to.
-/
import Overlap.Proofs.ReportedGroups
import Overlap.Proofs.RunRecords
import Overlap.Proofs.Timestamps

namespace Overlap.Store

/-! ## Runs -/

/-- A run that is to be stored. -/
structure NewRun where
  root : String
  mainTime : Float
  created : Instant
  groups : List (Group Float)

namespace NewRun

/-- Whether a run can be stored: no rank is repeated, and no number is NaN. -/
structure Storable (c : NewRun) : Prop where
  mainTime_ok : c.mainTime.isNaN = false
  ranks_nodup : (c.groups.map (·.rank)).Nodup
  numbers_ok : ∀ g ∈ c.groups, ∀ x ∈ g.numbers, x.isNaN = false

instance (c : NewRun) : Decidable c.Storable :=
  decidable_of_iff (c.mainTime.isNaN = false ∧ (c.groups.map (·.rank)).Nodup ∧
      ∀ g ∈ c.groups, ∀ x ∈ g.numbers, x.isNaN = false)
    ⟨fun h => ⟨h.1, h.2.1, h.2.2⟩, fun h => ⟨h.mainTime_ok, h.ranks_nodup, h.numbers_ok⟩⟩

theorem storable_iff (c : NewRun) :
    c.Storable ↔ c.mainTime.isNaN = false ∧
      ((c.groups.map (·.rank)).Nodup ∧ ∀ g ∈ c.groups, ∀ x ∈ g.totals, x.isNaN = false) ∧
      ∀ g ∈ c.groups, ∀ m ∈ g.members, m.time.isNaN = false := by
  constructor
  · rintro ⟨htime, hranks, hnumbers⟩
    refine ⟨htime, ⟨hranks, fun g hg x hx => ?_⟩, fun g hg m hm => ?_⟩
    · exact hnumbers g hg x (List.mem_append_left _ hx)
    · exact hnumbers g hg m.time (List.mem_append_right _ (List.mem_map_of_mem hm))
  · rintro ⟨htime, ⟨hranks, htotals⟩, hmembers⟩
    refine ⟨htime, hranks, fun g hg x hx => ?_⟩
    rcases List.mem_append.1 hx with hx | hx
    · exact htotals g hg x hx
    · obtain ⟨m, hm, rfl⟩ := List.mem_map.1 hx
      exact hmembers g hg m hm

/-- Whether the kinds of all dependences are told apart when they are joined by commas. -/
def Separable (c : NewRun) : Prop := ∀ g ∈ c.groups, ∀ d ∈ g.dependencies, d.Separable

instance (c : NewRun) : Decidable c.Separable :=
  inferInstanceAs (Decidable (∀ g ∈ c.groups, ∀ d ∈ g.dependencies, d.Separable))

/-- The groups by rank. -/
def ranked (c : NewRun) : List (Group Float) := c.groups.mergeSort fun g g' => g.rank ≤ g'.rank

theorem ranked_perm (c : NewRun) : c.ranked.Perm c.groups := List.mergeSort_perm ..

/-- The row of the run at a position among the runs. -/
def row (c : NewRun) (i : Nat) : Row :=
  ⟨i + 1, ("id", .integer (i + 1 : Nat)) :: runCells c.root c.mainTime c.created.text⟩

/-- The run as it is listed. -/
def listed (n : Int) (c : NewRun) : Run := ⟨n, c.root, c.mainTime, c.created.text⟩

end NewRun

/-- Runs with their numbers. -/
def numbered (runs : List NewRun) : List (Int × NewRun) :=
  runs.zipIdx.map fun (c, i) => (((i + 1 : Nat) : Int), c)

theorem numbered_concat (runs : List NewRun) (c : NewRun) :
    numbered (runs ++ [c]) = numbered runs ++ [(((runs.length + 1 : Nat) : Int), c)] := by
  simp [numbered, List.zipIdx_append]

theorem nodup_numbered (runs : List NewRun) : ((numbered runs).map (·.1)).Nodup := by
  have hnumbers : (numbered runs).map (·.1) =
      (runs.zipIdx.map (·.2)).map fun i => ((i + 1 : Nat) : Int) := by
    rw [numbered, List.map_map, List.map_map]
    rfl
  rw [hnumbers, List.zipIdx_map_snd]
  exact List.Nodup.map (fun i j h => by omega) (List.nodup_range' ..)

theorem mem_numbered_append (before after : List NewRun) (c : NewRun) :
    (((before.length + 1 : Nat) : Int), c) ∈ numbered (before ++ c :: after) :=
  List.mem_map.2 ⟨(c, before.length), List.mk_mem_zipIdx_iff_getElem?.2 (by simp), rfl⟩

theorem mem_of_mem_numbered {runs : List NewRun} {n : Int} {c : NewRun}
    (h : (n, c) ∈ numbered runs) : c ∈ runs := by
  obtain ⟨⟨c', i⟩, hi, heq⟩ := List.mem_map.1 h
  cases heq
  exact List.fst_mem_of_mem_zipIdx hi

/-- What belongs to stored runs does not belong to the next one. -/
theorem key_ne_of_mem_numbered {α : Type} {runs : List NewRun} {part : Int × NewRun → List α}
    {key : α → Int} (hkey : ∀ e, ∀ x ∈ part e, key x = e.1) :
    ∀ x ∈ (numbered runs).flatMap part, key x ≠ ((runs.length + 1 : Nat) : Int) := by
  intro x hx
  obtain ⟨e, he, hx⟩ := List.mem_flatMap.1 hx
  obtain ⟨⟨c, i⟩, hi, rfl⟩ := List.mem_map.1 he
  have := (List.mem_zipIdx hi).2.1
  rw [hkey _ x hx]
  dsimp only
  omega

/-- What belongs to one of the stored runs. -/
theorem filter_numbered {α : Type} {runs : List NewRun} {part : Int × NewRun → List α}
    {key : α → Int} (hkey : ∀ e, ∀ x ∈ part e, key x = e.1) {e : Int × NewRun}
    (he : e ∈ numbered runs) :
    ((numbered runs).flatMap part).filter (fun x => key x = e.1) = part e :=
  filter_flatMap_of_nodup (fun e _ => hkey e) (nodup_numbered runs) he

/-- The groups of a run, with its number. -/
def groupsOf (e : Int × NewRun) : List (Int × Group Float) := e.2.groups.map (e.1, ·)

theorem fst_of_mem_groupsOf (e : Int × NewRun) (x : Int × Group Float) (hx : x ∈ groupsOf e) :
    x.1 = e.1 := by
  obtain ⟨g, _, rfl⟩ := List.mem_map.1 hx
  rfl

/-- The table of some runs. -/
def tableOf (runs : List NewRun) : Table :=
  { runTable with rows := runs.zipIdx.map fun (c, i) => c.row i }

theorem rows_tableOf_concat (runs : List NewRun) (c : NewRun) :
    (tableOf (runs ++ [c])).rows = (tableOf runs).rows ++ [c.row runs.length] := by
  simp [tableOf, List.zipIdx_append]

theorem lastNumber_tableOf (runs : List NewRun) : (tableOf runs).lastNumber = runs.length := by
  induction runs using List.reverseRecOn with
  | nil => rfl
  | append_singleton runs c ih =>
    unfold Table.lastNumber at ih ⊢
    rw [rows_tableOf_concat, List.foldl_append, ih, List.length_append]
    exact Nat.max_eq_right (Nat.le_succ _)

/-- A run is added to the table of runs unless its time is NaN. -/
theorem insert_tableOf (runs : List NewRun) (c : NewRun) :
    SucceedsIff (c.mainTime.isNaN = false) (· = tableOf (runs ++ [c]))
      ((tableOf runs).insert (runCells c.root c.mainTime c.created.text)) := by
  have hrow : (tableOf runs).newRow (runCells c.root c.mainTime c.created.text) =
      c.row runs.length := by
    unfold Table.newRow
    rw [lastNumber_tableOf]
    rfl
  have hmissing : ((tableOf runs).required.find? fun col => ((c.row runs.length).get col).isNull) =
      if c.mainTime.isNaN then some "main_time" else none := by
    simp only [tableOf, runTable, NewRun.row, runCells, Row.get_eq, valueIn, List.find?,
      List.lookup_cons, String.reduceBEq, Option.getD_some, Datum.isNull_text, Datum.isNull_ofFloat]
    cases c.mainTime.isNaN <;> rfl
  have hkey : (tableOf runs).rows.any ((tableOf runs).sameKey (c.row runs.length)) = false :=
    List.any_eq_false.2 fun r _ => Bool.false_ne_true
  unfold Table.insert
  dsimp only
  rw [hrow, hmissing, hkey]
  cases hnan : c.mainTime.isNaN with
  | true => exact .error Bool.false_ne_true.symm
  | false =>
    refine .ok rfl ?_
    change { runTable with rows := (tableOf runs).rows ++ [c.row runs.length] } =
      tableOf (runs ++ [c])
    rw [← rows_tableOf_concat]
    rfl

/-! ## Writing -/

theorem insertNodeSets_succeedsIff {t : Table} {old : List (Int × Group Float)} {run : Int}
    (ht : t.Stores nodeSetTable groupRecord old) (hold : ∀ e ∈ old, e.1 ≠ run)
    (groups : List (Group Float)) :
    SucceedsIff ((groups.map (·.rank)).Nodup ∧ ∀ g ∈ groups, ∀ x ∈ g.totals, x.isNaN = false)
      (Table.Stores · nodeSetTable groupRecord (old ++ groups.map (run, ·)))
      (insertNodeSets t run groups) := by
  have hcheck : nodeSetTable.checkWritten nodeSetColumns = .ok () := rfl
  have hinsert := ht.foldlM_insert rfl (fun e => WriteError.nodeSet e.2.rank) (groups.map (run, ·))
  rw [List.foldlM_map] at hinsert
  unfold insertNodeSets
  rw [ht.checkWritten_eq, hcheck]
  exact hinsert.congr (groupRecord_fits_iff hold groups) fun _ => id

theorem insertMembers_succeedsIff {t : Table} {old : List (Entry (MemberReport Float))} {run : Int}
    (ht : t.Stores memberTable memberRecord old) (hold : ∀ e ∈ old, e.run ≠ run)
    {groups : List (Group Float)} (hranks : (groups.map (·.rank)).Nodup) :
    SucceedsIff (∀ g ∈ groups, ∀ m ∈ g.members, m.time.isNaN = false)
      (Table.Stores · memberTable memberRecord (old ++ entries (·.members) run groups))
      (insertMembers t run groups) := by
  have hcheck : memberTable.checkWritten memberColumns = .ok () := rfl
  have hinsert := positioned_members.foldlM_insert ht hold (·.members) hranks
    fun e => WriteError.member e.value.callee e.rank
  rw [insertMembers_eq, ht.checkWritten_eq, hcheck]
  refine hinsert.congr ?_ fun _ => id
  simp only [memberRecord_complete_iff]
  exact forall_mem_entries (p := fun m : MemberReport Float => m.time.isNaN = false)

theorem insertDependencies_ok {t : Table} {old : List (Entry DependenceReport)} {run : Int}
    (ht : t.Stores dependenceTable dependenceRecord old) (hold : ∀ e ∈ old, e.run ≠ run)
    {groups : List (Group Float)} (hranks : (groups.map (·.rank)).Nodup) :
    ∃ t', insertDependencies t run groups = .ok t' ∧
      t'.Stores dependenceTable dependenceRecord (old ++ entries (·.dependencies) run groups) := by
  have hcheck : dependenceTable.checkWritten dependenceColumns = .ok () := rfl
  have hinsert := positioned_dependences.foldlM_insert ht hold (·.dependencies) hranks
    fun e => WriteError.dependence e.rank
  rw [insertDependencies_eq, ht.checkWritten_eq, hcheck]
  exact hinsert.exists_ok fun e _ => dependenceRecord_complete e

namespace Database

/-- Writes a run. -/
def write (db : Database) (c : NewRun) : Except WriteError (Int × Database) :=
  db.writeRun c.root c.mainTime c.created.text c.groups

/-- The database after an attempt to write a run. -/
def attempt (db : Database) (c : NewRun) : Database :=
  db.afterWrite c.root c.mainTime c.created.text c.groups

/-- The database after attempts to write some runs. -/
def writeAll (db : Database) (runs : List NewRun) : Database := runs.foldl attempt db

/-- The database holds the runs, which were written in this order. -/
structure Stores (db : Database) (runs : List NewRun) : Prop where
  storable : ∀ c ∈ runs, c.Storable
  runs_eq : db.runs = tableOf runs
  nodeSets : db.nodeSets.Stores nodeSetTable groupRecord
    ((numbered runs).flatMap groupsOf)
  members : db.members.Stores memberTable memberRecord
    ((numbered runs).flatMap fun e => entries (·.members) e.1 e.2.groups)
  dependencies : db.dependencies.Stores dependenceTable dependenceRecord
    ((numbered runs).flatMap fun e => entries (·.dependencies) e.1 e.2.groups)

theorem stores_empty : empty.Stores [] where
  storable := by simp
  runs_eq := rfl
  nodeSets := Table.stores_new rfl _
  members := Table.stores_new rfl _
  dependencies := Table.stores_new rfl _

variable {db : Database} {runs : List NewRun}

/-- A run is written exactly if it is storable, under the next number. -/
theorem Stores.write (h : db.Stores runs) (c : NewRun) :
    SucceedsIff c.Storable
      (fun x => x.1 = ((runs.length + 1 : Nat) : Int) ∧ x.2.Stores (runs ++ [c])) (db.write c) := by
  have hcheck : db.runs.checkWritten ((runCells c.root c.mainTime c.created.text).map (·.1)) =
      .ok () := by
    rw [h.runs_eq]
    rfl
  have hnumber : (tableOf (runs ++ [c])).lastNumber = runs.length + 1 := by
    rw [lastNumber_tableOf, List.length_append, List.length_singleton]
  unfold Database.write writeRun
  dsimp only
  rw [hcheck, h.runs_eq]
  -- one condition for each table that may refuse a record
  refine SucceedsIff.congr ?_ c.storable_iff.symm fun _ => id
  refine ((insert_tableOf runs c).mapError _).bind ?_
  rintro _ hnan rfl
  rw [hnumber]
  refine (insertNodeSets_succeedsIff h.nodeSets (key_ne_of_mem_numbered fst_of_mem_groupsOf)
    c.groups).bind fun sets hsets hstoredSets => ?_
  refine (insertMembers_succeedsIff h.members
    (key_ne_of_mem_numbered fun e _ => run_of_mem_entries) hsets.1).bind_ok
      fun members hmembers hstoredMembers => ?_
  obtain ⟨dependences, hinsert, hstoredDependences⟩ := insertDependencies_ok h.dependencies
    (key_ne_of_mem_numbered fun e _ => run_of_mem_entries) hsets.1
  rw [hinsert]
  refine ⟨_, rfl, rfl, ?_, rfl, ?_, ?_, ?_⟩
  · intro c' hc'
    rcases List.mem_append.1 hc' with hc' | hc'
    · exact h.storable c' hc'
    · rw [List.mem_singleton.1 hc']
      exact c.storable_iff.2 ⟨hnan, hsets, hmembers⟩
  · rwa [numbered_concat, List.flatMap_append, List.flatMap_singleton]
  · rwa [numbered_concat, List.flatMap_append, List.flatMap_singleton]
  · rwa [numbered_concat, List.flatMap_append, List.flatMap_singleton]

theorem attempt_eq (db : Database) (c : NewRun) :
    db.attempt c = match db.write c with
      | .ok (_, db') => db'
      | .error _ => db := rfl

theorem Stores.write_of_storable (h : db.Stores runs) {c : NewRun} (hc : c.Storable) :
    db.write c = .ok (((runs.length + 1 : Nat) : Int), db.attempt c) ∧
      (db.attempt c).Stores (runs ++ [c]) := by
  obtain ⟨⟨n, db'⟩, hwrite, hn, hdb'⟩ := (h.write c).exists_ok hc
  rw [attempt_eq, hwrite, ← hn]
  exact ⟨rfl, hdb'⟩

theorem Stores.write_of_not_storable (h : db.Stores runs) {c : NewRun} (hc : ¬c.Storable) :
    (∃ e, db.write c = .error e) ∧ db.attempt c = db := by
  obtain ⟨e, he⟩ := (h.write c).exists_error hc
  rw [attempt_eq, he]
  exact ⟨⟨e, rfl⟩, rfl⟩

theorem Stores.attempt (h : db.Stores runs) (c : NewRun) :
    (db.attempt c).Stores (runs ++ [c].filter (·.Storable)) := by
  by_cases hc : c.Storable
  · have hkept : [c].filter (·.Storable) = [c] := List.filter_cons_of_pos (decide_eq_true hc)
    rw [hkept]
    exact (h.write_of_storable hc).2
  · have hdropped : [c].filter (·.Storable) = [] := List.filter_cons_of_neg (by simpa using hc)
    rw [hdropped, List.append_nil, (h.write_of_not_storable hc).2]
    exact h

theorem Stores.writeAll (h : db.Stores runs) (calls : List NewRun) :
    (db.writeAll calls).Stores (runs ++ calls.filter (·.Storable)) := by
  induction calls generalizing db runs with
  | nil =>
    rw [List.filter_nil, List.append_nil]
    exact h
  | cons c calls ih =>
    have hrest := ih (h.attempt c)
    rwa [List.append_assoc, ← List.filter_append] at hrest

/-! ## Reading -/

theorem Stores.nodeSets_eq (h : db.Stores runs) {n : Int} {c : NewRun}
    (hc : (n, c) ∈ numbered runs) :
    (db.nodeSets.rowsWith "run" n ["rank"]).map groupOf = c.ranked.map Group.bare := by
  have hnumbers := (c.storable_iff.1 (h.storable c (mem_of_mem_numbered hc))).2.1.2
  have hown := filter_numbered fst_of_mem_groupsOf hc
  have hrows := h.nodeSets.rowsWith_eq groupRecord_run [("rank", fun x => x.2.rank)]
    (by simp [groupRecord_rank]) n
  rw [hown] at hrows
  have hsort : c.ranked.map (n, ·) =
      Table.sortByKeys [fun x : Int × Group Float => x.2.rank] (c.groups.map (n, ·)) :=
    List.map_mergeSort fun _ _ _ _ => rfl
  calc (db.nodeSets.rowsWith "run" n ["rank"]).map groupOf
      = ((db.nodeSets.rowsWith "run" n ["rank"]).map (·.cells)).map fun r => groupOf ⟨0, r⟩ := by
        rw [List.map_map]
        rfl
    _ = ((c.ranked.map (n, ·)).map groupRecord).map fun r => groupOf ⟨0, r⟩ := by
        rw [hsort]
        exact congrArg _ hrows
    _ = c.ranked.map Group.bare := by
        rw [List.map_map, List.map_map]
        refine List.map_congr_left fun g hg => ?_
        exact groupOf_record (n, g) (hnumbers g (List.mem_mergeSort.1 hg))

theorem Stores.addMembers_eq (h : db.Stores runs) {n : Int} {c : NewRun}
    (hc : (n, c) ∈ numbered runs) :
    addRows (db.members.rowsWith "run" n ["rank", "position"])
        (fun r g => { g with members := g.members ++ [memberOf r] }) (.strayMember n)
        (c.ranked.map Group.bare) =
      .ok (c.ranked.map fun g => { g with dependencies := [] }) := by
  have hstorable := h.storable c (mem_of_mem_numbered hc)
  have htimes := (c.storable_iff.1 hstorable).2.2
  refine positioned_members.addRows_eq h.members
    (filter_numbered (fun e x hx => run_of_mem_entries hx) hc) hstorable.ranks_nodup
    c.ranked_perm (fun _ => rfl) (fun e he => memberOf_record e ?_) extends_members
    Group.bare (fun _ => rfl) _
  exact (forall_mem_entries (p := fun m : MemberReport Float => m.time.isNaN = false)).2 htimes e he

theorem Stores.addDependences_eq (h : db.Stores runs) {n : Int} {c : NewRun}
    (hc : (n, c) ∈ numbered runs) (hkinds : c.Separable) :
    addRows (db.dependencies.rowsWith "run" n ["rank", "position"])
        (fun r g => { g with dependencies := g.dependencies ++ [dependenceOf r] })
        (.strayDependence n) (c.ranked.map fun g => { g with dependencies := [] }) =
      .ok c.ranked := by
  have hstorable := h.storable c (mem_of_mem_numbered hc)
  have hread := positioned_dependences.addRows_eq h.dependencies
    (filter_numbered (fun e x hx => run_of_mem_entries hx) hc) hstorable.ranks_nodup
    c.ranked_perm (fun _ => rfl)
    (fun e he => dependenceOf_record e (forall_mem_entries.2 hkinds e he)) extends_dependences
    (fun g => { g with dependencies := [] }) (fun _ => rfl) (.strayDependence n)
  exact hread.trans (congrArg Except.ok (List.map_id c.ranked))

/-- A stored run is read back: its groups by rank, with their members and dependences in order. -/
theorem Stores.readNodeSets_eq (h : db.Stores runs) {n : Int} {c : NewRun}
    (hc : (n, c) ∈ numbered runs) (hkinds : c.Separable) : db.readNodeSets n = .ok c.ranked := by
  have hsets : db.nodeSets.checkRead (nodeSetColumns.drop 1 ++ ["run"]) = .ok () := by
    rw [h.nodeSets.checkRead_eq]
    rfl
  have hmembers : db.members.checkRead
      (["rank"] ++ memberColumns.drop 3 ++ ["run", "position"]) = .ok () := by
    rw [h.members.checkRead_eq]
    rfl
  have hdependences : db.dependencies.checkRead
      (["rank"] ++ dependenceColumns.drop 3 ++ ["run", "position"]) = .ok () := by
    rw [h.dependencies.checkRead_eq]
    rfl
  unfold Database.readNodeSets
  dsimp only
  rw [hsets, hmembers, hdependences, h.nodeSets_eq hc, h.addMembers_eq hc]
  exact h.addDependences_eq hc hkinds

/-- The stored runs are listed, the latest one first. -/
theorem Stores.listRuns_eq (h : db.Stores runs) :
    db.listRuns = .ok ((numbered runs).reverse.map fun e => e.2.listed e.1) := by
  have hcheck : db.runs.checkRead ["id", "root", "main_time", "created"] = .ok () := by
    rw [h.runs_eq]
    rfl
  have hsort : (db.runs.rows.mergeSort fun a b => (b.get "id").le (a.get "id")) =
      runs.zipIdx.reverse.map fun p => p.1.row p.2 := by
    rw [h.runs_eq, ← mergeSort_zipIdx]
    refine (List.map_mergeSort fun p _ q _ => ?_).symm
    change _ = decide (((q.2 + 1 : Nat) : Int) ≤ ((p.2 + 1 : Nat) : Int))
    simp
  have hlisted : (numbered runs).reverse.map (fun e => e.2.listed e.1) =
      runs.zipIdx.reverse.map fun p => p.1.listed ((p.2 + 1 : Nat) : Int) := by
    rw [numbered, ← List.map_reverse, List.map_map]
    rfl
  unfold Database.listRuns
  dsimp only
  rw [hcheck, hsort, hlisted]
  change List.mapM _ (runs.zipIdx.reverse.map _) = _
  rw [List.mapM_map]
  refine mapM_ok fun p hp => ?_
  have htime := (h.storable p.1 (List.fst_mem_of_mem_zipIdx (List.mem_reverse.1 hp))).mainTime_ok
  have hcreated : ((p.1.row p.2).get "created").toText = p.1.created.text := rfl
  rw [Function.comp_apply, hcreated, p.1.created.check_text]
  change Except.ok (Run.mk _ _ (Datum.ofFloat p.1.mainTime).toFloat _) = _
  rw [Datum.toFloat_ofFloat htime]
  rfl

end Database

/-! ## Ranks of reported groups -/

/-- The groups of a result are told apart by their ranks. -/
theorem nodup_ranks_groups {τ : Type} [Quantity τ] (r : Result τ) (P : Ssa.Program)
    (opts : ReportOptions τ) : ((r.groups P opts).map (·.rank)).Nodup :=
  (r.pairwise_rank_groups P opts).imp Int.ne_of_lt

/-! ## Sequences of runs -/

namespace Database

/-- **Every run of a sequence is stored and read back, or leaves no trace.** A run that repeats a
    rank or has a NaN among its numbers is refused, and the database stays as it is. Any other run
    gets the next number, under which its groups are read by rank, whatever runs are written before
    or after it. The runs that were not refused are listed, the latest one first; reported groups
    never repeat a rank. -/
theorem writeAll_reads_back :
    (∀ (before after : List NewRun) (c : NewRun),
      let db := empty.writeAll before
      let n : Int := ((before.filter (·.Storable)).length + 1 : Nat)
      (¬c.Storable → (∃ e, db.write c = .error e) ∧ db.attempt c = db) ∧
      (c.Storable → db.write c = .ok (n, db.attempt c) ∧
        (c.Separable → (empty.writeAll (before ++ c :: after)).readNodeSets n = .ok c.ranked))) ∧
    (∀ calls : List NewRun, (empty.writeAll calls).listRuns =
      .ok ((numbered (calls.filter (·.Storable))).reverse.map fun e => e.2.listed e.1)) ∧
    ∀ (τ : Type) [Quantity τ] (r : Result τ) (P : Ssa.Program) (opts : ReportOptions τ),
      ((r.groups P opts).map (·.rank)).Nodup := by
  have hstores : ∀ calls : List NewRun,
      (empty.writeAll calls).Stores (calls.filter (·.Storable)) := stores_empty.writeAll
  refine ⟨fun before after c => ⟨fun hc => ?_, fun hc => ⟨?_, fun hkinds => ?_⟩⟩, fun calls => ?_,
    fun τ _ r P opts => nodup_ranks_groups r P opts⟩
  · exact (hstores before).write_of_not_storable hc
  · exact ((hstores before).write_of_storable hc).1
  · have hkept : (c :: after).filter (·.Storable) = c :: after.filter (·.Storable) :=
      List.filter_cons_of_pos (decide_eq_true hc)
    refine (hstores _).readNodeSets_eq ?_ hkinds
    rw [List.filter_append, hkept]
    exact mem_numbered_append ..
  · exact (hstores calls).listRuns_eq

/-- A group of some rank, with a member in no known file and two kinds of one dependence. -/
def sampleGroup (rank : Int) : Group Float where
  rank := rank
  parent := "main.main"
  parentFile := ""
  members := [⟨"main.work", "main.go", 7, 1.5, 2⟩, ⟨"main.log", "", 0, 0.25, 0⟩]
  dependencies := [⟨"main.log", "x", "", ["true", "anti"]⟩]
  flowDeps := 1
  antiDeps := 1
  outputDeps := 0
  controlDeps := 0
  noDominateDeps := 0
  cost := 2
  score := 0.5
  minSaving := 0.25
  maxSaving := 1.5
  minPercent := 12.5
  maxPercent := 75
  stores := 2

/-- A run with groups of some ranks. -/
def sampleRun (ranks : List Int) : NewRun where
  root := "main"
  mainTime := 2
  created := { year := 2024, month := 2, day := 29, hour := 23, minute := 59, second := 1 }
  groups := ranks.map sampleGroup

/-- The second of four runs repeats a rank; the third one is the second that is stored. -/
theorem writeAll_reads_back_sample :
    (sampleRun [2, 1]).Storable ∧ (sampleRun [2, 1]).Separable ∧ ¬(sampleRun [3, 3]).Storable ∧
      (empty.writeAll [sampleRun [1]]).attempt (sampleRun [3, 3]) =
        empty.writeAll [sampleRun [1]] ∧
      (empty.writeAll ([sampleRun [1], sampleRun [3, 3]] ++
        sampleRun [2, 1] :: [sampleRun []])).readNodeSets 2 = .ok (sampleRun [2, 1]).ranked := by
  have hstorable : (sampleRun [2, 1]).Storable := by decide
  have hseparable : (sampleRun [2, 1]).Separable := by decide
  have hrepeated : ¬(sampleRun [3, 3]).Storable := by decide
  have hnumber : ([sampleRun [1], sampleRun [3, 3]].filter (·.Storable)).length = 1 := by decide
  refine ⟨hstorable, hseparable, hrepeated, ?_, ?_⟩
  · exact ((writeAll_reads_back.1 [sampleRun [1]] [] _).1 hrepeated).2
  · have hread := ((writeAll_reads_back.1 [sampleRun [1], sampleRun [3, 3]] [sampleRun []] _).2
      hstorable).2 hseparable
    rwa [hnumber] at hread

end Database

end Overlap.Store
