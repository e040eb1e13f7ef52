/-
  Tables after insertions.

  A table is described by the records that its rows hold (`Table.Stores`); no
  answer depends on the numbers of rows, except in a table that shows them.

  * `SucceedsIff`: a computation with the condition under which it succeeds;
  * `Stores.insert` and `Stores.foldlM_insert`: an insertion succeeds exactly if
    the record is complete and its key is new (`Table.Fits`);
  * `Stores.rowsWith_eq`: what a query selects, and in which order.
-/
import Overlap.Proofs.Lists
import Overlap.Store.Table

namespace Overlap.Store

/-! ## Computations that succeed under a condition -/

/-- A computation that succeeds exactly if `P` holds, and then with a result that satisfies `Q`. -/
inductive SucceedsIff {ε α : Type} (P : Prop) (Q : α → Prop) : Except ε α → Prop
  | ok {x : α} (hP : P) (hQ : Q x) : SucceedsIff P Q (.ok x)
  | error {e : ε} (hP : ¬P) : SucceedsIff P Q (.error e)

namespace SucceedsIff

variable {ε ε' α β : Type} {P P' : Prop} {Q : α → Prop} {x : Except ε α}

theorem congr {Q' : α → Prop} (h : SucceedsIff P Q x) (hP : P ↔ P') (hQ : ∀ a, Q a → Q' a) :
    SucceedsIff P' Q' x := by
  cases h with
  | ok hp hq => exact .ok (hP.1 hp) (hQ _ hq)
  | error hp => exact .error (mt hP.2 hp)

theorem mapError (h : SucceedsIff P Q x) (f : ε → ε') : SucceedsIff P Q (x.mapError f) := by
  cases h with
  | ok hp hq => exact .ok hp hq
  | error hp => exact .error hp

theorem bind {Q' : β → Prop} {k : α → Except ε β} (h : SucceedsIff P Q x)
    (hk : ∀ a, P → Q a → SucceedsIff P' Q' (k a)) : SucceedsIff (P ∧ P') Q' (x >>= k) := by
  cases h with
  | ok hp hq => exact (hk _ hp hq).congr (iff_and_self.2 fun _ => hp) fun _ => id
  | error hp => exact .error fun h => hp h.1

theorem bind_ok {Q' : β → Prop} {k : α → Except ε β} (h : SucceedsIff P Q x)
    (hk : ∀ a, P → Q a → ∃ b, k a = .ok b ∧ Q' b) : SucceedsIff P Q' (x >>= k) := by
  cases h with
  | ok hp hq =>
    obtain ⟨b, hb, hq'⟩ := hk _ hp hq
    exact (congrArg (SucceedsIff P Q') hb).mpr (.ok hp hq')
  | error hp => exact .error hp

theorem exists_ok (h : SucceedsIff P Q x) (hP : P) : ∃ a, x = .ok a ∧ Q a := by
  cases h with
  | ok _ hq => exact ⟨_, rfl, hq⟩
  | error hp => exact absurd hP hp

theorem exists_error (h : SucceedsIff P Q x) (hP : ¬P) : ∃ e, x = .error e := by
  cases h with
  | ok hp _ => exact absurd hp hP
  | error _ => exact ⟨_, rfl⟩

end SucceedsIff

/-! ## Records -/

/-- What a row holds: its values by column. -/
abbrev Record : Type := List (String × Datum)

/-- The value of a record in a column, absent if there is none. -/
def valueIn (r : Record) (column : String) : Datum := (r.lookup column).getD .null

theorem Row.get_eq (r : Row) (column : String) : r.get column = valueIn r.cells column := rfl

namespace Table

variable {α : Type} {t new : Table} {cells : α → Record} {xs : List α}

/-- Whether two records have the same key. -/
def clash (t : Table) (r r' : Record) : Bool := t.sameKey ⟨0, r⟩ ⟨0, r'⟩

/-- Records that can be added to others one after the other. -/
structure Fits (t : Table) (old added : List Record) : Prop where
  complete : ∀ r ∈ added, ∀ c ∈ t.required, (valueIn r c).isNull = false
  fresh : ∀ r ∈ added, ∀ r' ∈ old, t.clash r r' = false
  distinct : added.Pairwise fun r r' => t.clash r' r = false

theorem fits_cons {old added : List Record} {r : Record} :
    t.Fits old (r :: added) ↔ t.Fits old [r] ∧ t.Fits (old ++ [r]) added := by
  constructor
  · rintro ⟨hcomplete, hfresh, hdistinct⟩
    obtain ⟨hr, hdistinct⟩ := List.pairwise_cons.1 hdistinct
    refine ⟨⟨by simpa using hcomplete r (List.mem_cons_self ..), ?_, List.pairwise_singleton ..⟩,
      fun r' hr' => hcomplete r' (List.mem_cons_of_mem _ hr'), fun r' hr' q hq => ?_, hdistinct⟩
    · simpa using hfresh r (List.mem_cons_self ..)
    · rcases List.mem_append.1 hq with hq | hq
      · exact hfresh r' (List.mem_cons_of_mem _ hr') q hq
      · rw [List.mem_singleton.1 hq]
        exact hr r' hr'
  · rintro ⟨hr, hadded⟩
    refine ⟨?_, ?_, List.pairwise_cons.2 ⟨fun r' hr' => ?_, hadded.distinct⟩⟩
    · rintro r' (_ | ⟨_, hr'⟩)
      · exact hr.complete r (List.mem_singleton_self r)
      · exact hadded.complete r' hr'
    · rintro r' (_ | ⟨_, hr'⟩) q hq
      · exact hr.fresh r (List.mem_singleton_self r) q hq
      · exact hadded.fresh r' hr' q (List.mem_append_left _ hq)
    · exact hadded.fresh r' hr' r (by simp)

/-! ## Insertions -/

/-- The table has the rules of a new one, and its rows hold the records of `xs`. -/
structure Stores (t new : Table) (cells : α → Record) (xs : List α) : Prop where
  rules_eq : t = { new with rows := t.rows }
  cells_eq : t.rows.map (·.cells) = xs.map cells

theorem stores_new (hrows : new.rows = []) (cells : α → Record) : new.Stores new cells [] :=
  ⟨rfl, by rw [hrows]; rfl⟩

theorem Stores.checkWritten_eq (h : t.Stores new cells xs) (columns : List String) :
    t.checkWritten columns = new.checkWritten columns := by
  rw [h.rules_eq]
  rfl

theorem Stores.checkRead_eq (h : t.Stores new cells xs) (columns : List String) :
    t.checkRead columns = new.checkRead columns := by
  rw [h.rules_eq]
  rfl

theorem Stores.insert (h : t.Stores new cells xs) (hnew : new.numbered = none) (x : α) :
    SucceedsIff (new.Fits (xs.map cells) [cells x]) (Stores · new cells (xs ++ [x]))
      (t.insert (cells x)) := by
  obtain ⟨rows, rfl⟩ : ∃ rows, t = { new with rows } := ⟨_, h.rules_eq⟩
  have hcells : rows.map (·.cells) = xs.map cells := h.cells_eq
  have hrow : ({ new with rows } : Table).newRow (cells x) =
      ⟨({ new with rows } : Table).lastNumber + 1, cells x⟩ := by
    simp [newRow, hnew]
  unfold Table.insert
  rw [hrow]
  dsimp only
  split
  case h_1 c hc =>
    refine .error fun hfits => ?_
    have hnull := hfits.complete _ (List.mem_singleton_self _) c (List.mem_of_find?_eq_some hc)
    exact absurd (List.find?_some hc) (by simpa [Row.get_eq] using hnull)
  case h_2 hnone =>
    split_ifs with hkey
    · obtain ⟨r, hr, hsame⟩ := List.any_eq_true.1 hkey
      refine .error fun hfits => ?_
      have hfresh := hfits.fresh _ (List.mem_singleton_self _) r.cells
        (hcells ▸ List.mem_map_of_mem hr)
      exact absurd (hsame.symm.trans hfresh) (by decide)
    · refine .ok ⟨?_, ?_, List.pairwise_singleton ..⟩ ⟨rfl, ?_⟩
      · intro r hr c hc
        rw [List.mem_singleton.1 hr]
        simpa [Row.get_eq] using List.find?_eq_none.1 hnone c hc
      · intro r hr r' hr'
        rw [List.mem_singleton.1 hr]
        obtain ⟨row, hrow', rfl⟩ := List.mem_map.1 (hcells ▸ hr')
        exact Bool.eq_false_iff.2 fun hsame => hkey (List.any_eq_true.2 ⟨row, hrow', hsame⟩)
      · rw [List.map_append, List.map_append, hcells]
        rfl

theorem Stores.foldlM_insert {ε : Type} (h : t.Stores new cells xs) (hnew : new.numbered = none)
    (err : α → TableError → ε) (ys : List α) :
    SucceedsIff (new.Fits (xs.map cells) (ys.map cells)) (Stores · new cells (xs ++ ys))
      (ys.foldlM (fun t y => (t.insert (cells y)).mapError (err y)) t) := by
  induction ys generalizing t xs with
  | nil =>
    rw [List.append_nil]
    exact .ok ⟨by simp, by simp, .nil⟩ h
  | cons y ys ih =>
    rw [List.foldlM_cons]
    refine (((h.insert hnew y).mapError (err y)).bind fun t' _ ht' => ih ht').congr ?_ ?_
    · rw [List.map_append, List.map_singleton, List.map_cons, ← fits_cons]
    · intro t' ht'
      rwa [List.append_assoc] at ht'

/-! ## Queries -/

/-- A list in the order of several keys, of which the first one decides. -/
def sortByKeys (keys : List (α → Int)) (xs : List α) : List α :=
  keys.reverse.foldl (fun xs key => xs.mergeSort fun a b => key a ≤ key b) xs

theorem mem_sortByKeys {keys : List (α → Int)} {x : α} : x ∈ sortByKeys keys xs ↔ x ∈ xs := by
  unfold sortByKeys
  induction keys.reverse generalizing xs with
  | nil => rfl
  | cons key keys ih => rw [List.foldl_cons, ih, List.mem_mergeSort]

/-- Elements that are in the order of all keys stay as they are. -/
theorem filter_sortByKeys {keys : List (α → Int)} {p : α → Bool}
    (h : ∀ key ∈ keys, (xs.filter p).Pairwise fun a b => key a ≤ key b) :
    (sortByKeys keys xs).filter p = xs.filter p := by
  replace h : ∀ key ∈ keys.reverse, (xs.filter p).Pairwise fun a b => key a ≤ key b :=
    fun key hkey => h key (List.mem_reverse.1 hkey)
  unfold sortByKeys
  generalize keys.reverse = keys at h ⊢
  induction keys generalizing xs with
  | nil => rfl
  | cons key keys ih =>
    have hfirst := filter_mergeSort (h key (List.mem_cons_self ..))
    rw [List.foldl_cons, ih, hfirst]
    intro key' hkey'
    rw [hfirst]
    exact h key' (List.mem_cons_of_mem _ hkey')

/-- A query selects the records with a number in a column, sorted by numbers in other columns. -/
theorem Stores.rowsWith_eq (h : t.Stores new cells xs) {column : String} {key : α → Int}
    (hkey : ∀ x, valueIn (cells x) column = .integer (key x)) (order : List (String × (α → Int)))
    (horder : ∀ p ∈ order, ∀ x, valueIn (cells x) p.1 = .integer (p.2 x)) (n : Int) :
    (t.rowsWith column n (order.map (·.1))).map (·.cells) =
      (sortByKeys (order.map (·.2)) (xs.filter fun x => key x = n)).map cells := by
  have hfilter : (t.rows.filter fun r => (r.get column).same (.integer n)).map (·.cells) =
      (xs.filter fun x => key x = n).map cells := by
    have hrows := congrArg (List.filter fun r => (valueIn r column).same (.integer n)) h.cells_eq
    rw [List.filter_map, List.filter_map] at hrows
    refine hrows.trans (congrArg _ (List.filter_congr fun x _ => ?_))
    simp only [Function.comp_apply, hkey]
    rfl
  unfold Table.rowsWith sortByKeys
  rw [← List.map_reverse, ← List.map_reverse]
  replace horder : ∀ p ∈ order.reverse, ∀ x, valueIn (cells x) p.1 = .integer (p.2 x) :=
    fun p hp => horder p (List.mem_reverse.1 hp)
  -- the rows and the records are sorted in step
  generalize order.reverse = order at horder ⊢
  generalize (t.rows.filter fun r => (r.get column).same (.integer n)) = rows at hfilter ⊢
  generalize (xs.filter fun x => key x = n) = ys at hfilter ⊢
  induction order generalizing rows ys with
  | nil => exact hfilter
  | cons p order ih =>
    simp only [List.map_cons, List.foldl_cons]
    refine ih (fun q hq => horder q (List.mem_cons_of_mem _ hq)) _ _ ?_
    have hp := horder p (List.mem_cons_self ..)
    calc (rows.mergeSort fun a b => (a.get p.1).le (b.get p.1)).map (·.cells)
        = (rows.map (·.cells)).mergeSort fun a b => (valueIn a p.1).le (valueIn b p.1) :=
          List.map_mergeSort fun _ _ _ _ => rfl
      _ = (ys.map cells).mergeSort fun a b => (valueIn a p.1).le (valueIn b p.1) := by rw [hfilter]
      _ = (ys.mergeSort fun a b => p.2 a ≤ p.2 b).map cells := by
          refine (List.map_mergeSort fun a _ b _ => ?_).symm
          rw [hp a, hp b]
          rfl

end Table

end Overlap.Store
