/-
  What the collected accesses to global variables are.

  Functions form a graph, with the functions called at their resolved sites as
  successors (`Source.calledFunctions`).  Each global is looked at on its own:
  the accesses to it are a column of the table (`Source.column`).

  * accesses are ordered by strength, with `Access.max` as their join;
  * `collect_gathers`: what `Source.collect` does is an evaluation of the graph
    of calls for each global (`Gathers`);
  * `collect_globalAccesses`: it never runs out of fuel;
  * `globalAccesses_isGreatest`: the access of a function to a global is the
    strongest one made by the instructions of any function it can reach;
  * `isGreatest_known`: with any table it is the strongest one known on chains of
    calls that end at the first function with an entry;
  * `globalAccesses_eq_fresh_iff`: the accesses after other questions are those
    without them if and only if these chains miss none, as is the case where no
    recursion is reached; in `globalAccesses_after_recursion` they do miss one.
-/
import Mathlib.Order.BoundedOrder.Basic
import Mathlib.Order.Lattice
import Overlap.GlobalAccess
import Overlap.Proofs.Gather
import Overlap.Proofs.Program

namespace Overlap

open Ssa Graph Function

/-! ## The order of accesses -/

namespace Access

/-- Absent, read and change in this order. -/
def rank : Access → Nat
  | .absent => 0
  | .read => 1
  | .change => 2

theorem rank_injective : Injective rank := by
  intro a b h
  cases a <;> cases b <;> simp_all [rank]

instance : LinearOrder Access := .lift' rank rank_injective

instance : OrderTop Access where
  top := .change
  le_top a := by cases a <;> decide

theorem max_eq_sup (a b : Access) : a.max b = a ⊔ b := by
  cases a <;> cases b <;> rfl

/-- An access that is the join of some accesses is one of them. -/
theorem isGreatest_of_isLUB {s : Set Access} {a : Access} (h : IsLUB s a) (hs : s.Nonempty) :
    IsGreatest s a := by
  refine ⟨?_, h.1⟩
  by_contra hmem
  have hlt : ∀ b ∈ s, b < a := fun b hb =>
    lt_of_le_of_ne (h.1 hb) fun heq => hmem (heq ▸ hb)
  obtain ⟨b, hb⟩ := hs
  cases a with
  | absent => exact absurd (hlt b hb) (by cases b <;> decide)
  | read =>
    have hle : Access.read ≤ .absent := h.2 fun c hc => by
      have := hlt c hc
      revert this
      cases c <;> decide
    exact absurd hle (by decide)
  | change =>
    have hle : Access.change ≤ .read := h.2 fun c hc => by
      have := hlt c hc
      revert this
      cases c <;> decide
    exact absurd hle (by decide)

end Access

namespace Accesses

theorem get_join {a b : Accesses} (h : a.size = b.size) (g : Nat) :
    (a.join b).get g = a.get g ⊔ b.get g := by
  unfold get join
  rw [Array.getElem?_zipWith]
  by_cases hg : g < a.size
  · simp [hg, h ▸ hg, Access.max_eq_sup]
  · have ha : a[g]? = none := Array.getElem?_eq_none (Nat.le_of_not_lt hg)
    have hb : b[g]? = none := Array.getElem?_eq_none (h ▸ Nat.le_of_not_lt hg)
    rw [ha, hb]
    rfl

@[simp] theorem size_empty (P : Program) : (empty P).size = P.globals.size := Array.size_replicate

@[simp] theorem size_add (a : Accesses) (g : Nat) (x : Access) : (a.add g x).size = a.size :=
  Array.size_modify

theorem size_join {a b : Accesses} (h : a.size = b.size) : (a.join b).size = a.size := by
  simp [join, Array.size_zipWith, h]

theorem ext_get {a b : Accesses} (hsize : a.size = b.size) (h : ∀ g, a.get g = b.get g) :
    a = b := by
  refine Array.ext hsize fun g ha hb => ?_
  have hg := h g
  simpa [get, ha, hb] using hg

end Accesses

namespace Effect.Source

variable {S : Source} {memo memo' : AccessMemo} {f g h : Nat}

/-! ## Tables of accesses -/

theorem size_callAccesses (S : Source) (site : Loc) (c : Call) (a : Accesses) :
    (S.callAccesses site c a).size = a.size := by
  unfold callAccesses
  generalize c.allArgs.zipIdx = args
  induction args generalizing a with
  | nil => rfl
  | cons arg args ih =>
    obtain ⟨arg, i⟩ := arg
    rw [List.foldl_cons, ih]
    dsimp only
    split
    · split_ifs
      · exact Accesses.size_add ..
      · rfl
    · rfl

theorem size_instrAccesses (S : Source) (a : Accesses) (l : Loc) :
    (S.instrAccesses a l).size = a.size := by
  unfold instrAccesses
  dsimp only
  split
  case h_4 =>
    split_ifs
    · exact size_callAccesses ..
    · rfl
  case h_5 => rfl
  all_goals
    split
    · exact Accesses.size_add ..
    · rfl

theorem size_direct (S : Source) (f : Nat) : (S.direct f).size = S.program.globals.size := by
  unfold direct
  suffices ∀ ls (a : Accesses), (List.foldl S.instrAccesses a ls).size = a.size by
    rw [this, Accesses.size_empty]
  intro ls
  induction ls with
  | nil => exact fun a => rfl
  | cons l ls ih => exact fun a => (ih _).trans (size_instrAccesses ..)

/-- The entries of a table hold one access for each global. -/
def Fits (S : Source) (memo : AccessMemo) : Prop :=
  ∀ (f : Nat) (a : Accesses), memo[f]? = some a → a.size = S.program.globals.size

theorem Fits.insert {a : Accesses} (hm : S.Fits memo) (ha : a.size = S.program.globals.size) :
    S.Fits (memo.insert f a) := by
  intro h b hb
  rw [Std.HashMap.getElem?_insert] at hb
  split_ifs at hb
  · cases hb; exact ha
  · exact hm h b hb

theorem Fits.size_entry (hm : S.Fits memo) (f : Nat) :
    (S.entry memo f).size = S.program.globals.size := by
  unfold entry
  cases hf : memo[f]? with
  | some a => exact hm f a hf
  | none => exact Accesses.size_empty _

theorem Fits.joinInto (hm : S.Fits memo) (f h : Nat) : S.Fits (S.joinInto f h memo) := by
  refine hm.insert ?_
  rw [Accesses.size_join (by rw [hm.size_entry, hm.size_entry])]
  exact hm.size_entry f

/-- The accesses to one global in a table. -/
def column (g : Nat) (memo : AccessMemo) (f : Nat) : Option Access :=
  (entries memo f).map (·.get g)

theorem column_empty (g : Nat) : column g ∅ = fun _ => .none := by
  funext f
  rw [column, entries_empty]
  rfl

theorem column_insert (g : Nat) (memo : AccessMemo) (f : Nat) (a : Accesses) :
    column g (memo.insert f a) = update (column g memo) f (some (a.get g)) := by
  funext h
  unfold column
  rw [entries_insert]
  by_cases hh : h = f
  · subst hh
    simp
  · rw [update_of_ne hh, update_of_ne hh]

theorem get_entry_of_column {x : Access} (hx : column g memo f = some x) :
    (S.entry memo f).get g = x := by
  obtain ⟨a, ha, rfl⟩ := Option.map_eq_some_iff.1 hx
  rw [entry, show memo[f]? = some a from ha, Option.getD_some]

theorem column_joinInto (hm : S.Fits memo) {x y : Access} (hf : column g memo f = some x)
    (hh : column g memo h = some y) :
    column g (S.joinInto f h memo) = update (column g memo) f (some (x ⊔ y)) := by
  unfold joinInto
  rw [column_insert, Accesses.get_join (by rw [hm.size_entry, hm.size_entry]),
    get_entry_of_column hf, get_entry_of_column hh]

/-! ## Collecting is an evaluation -/

/-- The access to `g` by the instructions of a function. -/
def directAt (S : Source) (g h : Nat) : Access := (S.direct h).get g

/-- A way to collect accesses keeps tables well formed and evaluates the graph of calls, global by
    global. -/
def Collects (S : Source) (visit : Nat → AccessMemo → Option AccessMemo) : Prop :=
  ∀ f memo memo', S.Fits memo → visit f memo = some memo' → S.Fits memo' ∧
    ∀ g, ∃ x, Gathers S.calledFunctions (S.directAt g) (.ask f) (column g memo) x (column g memo')

variable {visit : Nat → AccessMemo → Option AccessMemo}

/-- The callees of `f` are swept one after the other; the entry of `f` holds what has been found
    so far, at the end the result. -/
theorem foldlM_gathers (hvisit : S.Collects visit) {hs : List Nat} (hm : S.Fits memo)
    (h : hs.foldlM (fun memo h => (visit h memo).map (S.joinInto f h)) memo = some memo') :
    S.Fits memo' ∧ ∀ g x, column g memo f = some x →
      ∃ y, Gathers S.calledFunctions (S.directAt g) (.sweep f hs x) (column g memo) y
        (column g memo') ∧ column g memo' f = some y := by
  induction hs generalizing memo with
  | nil =>
    cases h
    exact ⟨hm, fun g x hx => ⟨x, .done, hx⟩⟩
  | cons h₀ hs ih =>
    simp only [List.foldlM_cons, Option.bind_eq_bind, Option.bind_eq_some_iff,
      Option.map_eq_some_iff] at h
    obtain ⟨_, ⟨memo₁, h₁, rfl⟩, h⟩ := h
    obtain ⟨hm₁, hask⟩ := hvisit h₀ memo memo₁ hm h₁
    obtain ⟨hm', hsweep⟩ := ih (hm₁.joinInto f h₀) h
    refine ⟨hm', fun g x hx => ?_⟩
    obtain ⟨v, hask⟩ := hask g
    -- the entry of `f` outlasts the visit of a callee, also of one that leads back to `f`
    have hf : column g memo₁ f = some x := hask.preserves not_false hx
    have hjoin := column_joinInto hm₁ hf hask.ask_entry
    obtain ⟨y, hy, hfinal⟩ := hsweep g (x ⊔ v) (by rw [hjoin, update_self])
    rw [hjoin] at hy
    exact ⟨y, .sub hask (.publish le_rfl hy), hfinal⟩

/-- **Collecting accesses evaluates the graph of calls.** -/
theorem collect_gathers (fuel : Nat) : S.Collects (S.collect fuel) := by
  induction fuel with
  | zero => rintro f memo memo' - ⟨⟩
  | succ fuel ih =>
    intro f memo memo' hm h
    unfold collect at h
    split_ifs at h with hf
    · cases h
      obtain ⟨a, ha⟩ := Option.isSome_iff_exists.1 (by simpa using hf : (memo[f]?).isSome)
      exact ⟨hm, fun g => ⟨a.get g, .known (by simp [column, entries, ha])⟩⟩
    · obtain ⟨hm', hsweep⟩ := foldlM_gathers ih (hm.insert (size_direct S f)) h
      refine ⟨hm', fun g => ?_⟩
      have hnone : column g memo f = .none := by simpa [column, entries] using hf
      obtain ⟨y, hy, hfinal⟩ := hsweep g (S.directAt g f) (by rw [column_insert, update_self]; rfl)
      rw [column_insert] at hy
      have := Gathers.visit hnone le_rfl hy
      -- the entry that the sweep leaves is the result already
      rw [← hfinal, update_eq_self] at this
      exact ⟨y, this⟩

/-! ## Fuel -/

/-- The number of functions without an entry in a table. -/
def uncollected (S : Source) (memo : AccessMemo) : Nat :=
  Gathers.pending (List.range S.program.functions.size) (entries memo)

theorem uncollected_insert_le (memo : AccessMemo) (f : Nat) (a : Accesses) :
    S.uncollected (memo.insert f a) ≤ S.uncollected memo := by
  unfold uncollected
  rw [entries_insert]
  exact Gathers.pending_update_le ..

theorem uncollected_insert_lt {a : Accesses} (hf : f < S.program.functions.size)
    (hm : memo[f]? = .none) : S.uncollected (memo.insert f a) < S.uncollected memo := by
  unfold uncollected
  rw [entries_insert]
  exact Gathers.pending_update_lt (List.mem_range.2 hf) hm

theorem calledFunctions_eq_nil (hf : S.program.functions.size ≤ f) : S.calledFunctions f = [] := by
  have hsites : S.program.callSites f = [] := by
    refine List.eq_nil_iff_forall_not_mem.2 fun l hl => ?_
    obtain ⟨rfl, hcall⟩ := Program.mem_callSites_iff.1 hl
    have hfn : S.program.function? l.func = .none := Array.getElem?_eq_none hf
    simp [Program.call?, Program.instr?, Program.blocks, hfn] at hcall
  rw [calledFunctions, hsites, List.filterMap_nil]

/-- A way to collect accesses has a result, as long as at most `n` functions have no entry. -/
def CollectsAll (S : Source) (visit : Nat → AccessMemo → Option AccessMemo) (n : Nat) : Prop :=
  ∀ f memo, S.uncollected memo ≤ n → ∃ memo', visit f memo = some memo' ∧ S.uncollected memo' ≤ n

theorem foldlM_total {n : Nat} (hvisit : S.CollectsAll visit n) (hs : List Nat)
    (hn : S.uncollected memo ≤ n) :
    ∃ memo', hs.foldlM (fun memo h => (visit h memo).map (S.joinInto f h)) memo = some memo' ∧
      S.uncollected memo' ≤ n := by
  induction hs generalizing memo with
  | nil => exact ⟨memo, rfl, hn⟩
  | cons h hs ih =>
    obtain ⟨memo₁, h₁, hn₁⟩ := hvisit h memo hn
    simp only [List.foldlM_cons, h₁, Option.map_some, Option.bind_eq_bind, Option.bind_some]
    exact ih ((uncollected_insert_le ..).trans hn₁)

theorem collect_total {fuel n : Nat} (hn : n < fuel) : S.CollectsAll (S.collect fuel) n := by
  induction fuel generalizing n with
  | zero => omega
  | succ fuel ih =>
    intro f memo hmemo
    unfold collect
    split_ifs with hf
    · exact ⟨memo, rfl, hmemo⟩
    · have hnone : memo[f]? = .none := by simpa using hf
      by_cases hsize : f < S.program.functions.size
      · have hlt := uncollected_insert_lt (a := S.direct f) hsize hnone
        obtain ⟨memo', h, hn'⟩ := foldlM_total (n := n - 1) (ih (by omega)) (S.calledFunctions f)
          (Nat.le_sub_one_of_lt (hlt.trans_le hmemo))
        exact ⟨memo', h, by omega⟩
      · rw [calledFunctions_eq_nil (Nat.le_of_not_lt hsize)]
        exact ⟨_, rfl, (uncollected_insert_le ..).trans hmemo⟩

/-- **Collecting does not run out of fuel.** -/
theorem collect_globalAccesses (S : Source) (f : Nat) (memo : AccessMemo) :
    S.collect (S.program.functions.size + 1) f memo = some (S.globalAccesses f memo).2 := by
  have hn : S.uncollected memo ≤ S.program.functions.size :=
    List.countP_le_length.trans_eq List.length_range
  obtain ⟨memo', h, -⟩ := collect_total (Nat.lt_succ_self _) f memo hn
  simp [globalAccesses, h]

/-! ## Accesses of a function -/

/-- The table after the accesses of some functions have been asked for. -/
def collected (S : Source) (asked : List Nat) : AccessMemo :=
  asked.foldl (fun memo f => (S.globalAccesses f memo).2) ∅

theorem globalAccesses_gathers (hm : S.Fits memo) (f g : Nat) :
    Gathers S.calledFunctions (S.directAt g) (.ask f) (column g memo)
      ((S.globalAccesses f memo).1.get g) (column g (S.globalAccesses f memo).2) := by
  obtain ⟨x, hx⟩ := (collect_gathers _ f memo _ hm (collect_globalAccesses S f memo)).2 g
  have : (S.globalAccesses f memo).1.get g = x := get_entry_of_column hx.ask_entry
  rwa [this]

/-- A table is well formed and holds no access that is not there. -/
structure SoundTable (S : Source) (memo : AccessMemo) : Prop where
  fits : S.Fits memo
  sound : ∀ g, Gathers.Sound S.calledFunctions (S.directAt g) (column g memo)

theorem soundTable_empty : S.SoundTable ∅ where
  fits f a ha := by simp at ha
  sound g := by rw [column_empty]; exact nofun

theorem SoundTable.globalAccesses (hm : S.SoundTable memo) (f : Nat) :
    S.SoundTable (S.globalAccesses f memo).2 where
  fits := (collect_gathers _ f memo _ hm.fits (collect_globalAccesses S f memo)).1
  sound g := (globalAccesses_gathers hm.fits f g).sound (hm.sound g)

theorem soundTable_collected (asked : List Nat) : S.SoundTable (S.collected asked) :=
  List.foldlRecOn asked _ soundTable_empty fun _ hm f _ => hm.globalAccesses f

/-! ## Accesses with any table -/

/-- What is known of a function: its entry in a table, or else the accesses of its own
    instructions. -/
def knownAccesses (S : Source) (memo : AccessMemo) (f : Nat) : Accesses :=
  (memo[f]?).getD (S.direct f)

theorem openNext_column (next : Nat → List Nat) (g : Nat) (memo : AccessMemo) :
    Gathers.openNext next (column g memo) = Gathers.openNext next (entries memo) := by
  funext f
  simp [Gathers.openNext, column]

theorem knownOr_column (g : Nat) (memo : AccessMemo) (f : Nat) :
    Gathers.knownOr (S.directAt g) (column g memo) f = (S.knownAccesses memo f).get g := by
  unfold Gathers.knownOr column knownAccesses entries
  cases memo[f]? <;> rfl

/-- **The accesses of a function with any table** are the strongest known ones on chains of calls
    that end at the first function with an entry. -/
theorem isGreatest_known (hm : S.Fits memo) (f g : Nat) :
    IsGreatest {a | ∃ h, Reaches (Gathers.openNext S.calledFunctions (entries memo)) f h ∧
      (S.knownAccesses memo h).get g = a} ((S.globalAccesses f memo).1.get g) := by
  have h := (globalAccesses_gathers hm f g).isLUB
  simp only [openNext_column, knownOr_column] at h
  exact Access.isGreatest_of_isLUB h ⟨_, f, .refl f, rfl⟩

/-- With an empty table they are the strongest ones of all functions that can be reached. -/
theorem isGreatest_fresh (S : Source) (f g : Nat) :
    IsGreatest {a | ∃ h, Reaches S.calledFunctions f h ∧ (S.direct h).get g = a}
      ((S.globalAccesses f ∅).1.get g) := by
  have h := isGreatest_known (S := S) soundTable_empty.fits f g
  rw [entries_empty, Gathers.openNext_empty] at h
  simpa only [knownAccesses, Std.HashMap.getElem?_empty, Option.getD_none] using h

theorem get_globalAccesses_le (asked : List Nat) (f g : Nat) :
    (S.globalAccesses f (S.collected asked)).1.get g ≤ (S.globalAccesses f ∅).1.get g := by
  have hm := soundTable_collected (S := S) asked
  have h := globalAccesses_gathers hm.fits f g
  exact h.sound (hm.sound g) f _ h.ask_entry _ fun r hr => (isGreatest_fresh S f g).2 ⟨r, hr, rfl⟩

theorem size_globalAccesses (hm : S.SoundTable memo) (f : Nat) :
    (S.globalAccesses f memo).1.size = S.program.globals.size :=
  (hm.globalAccesses f).fits.size_entry f

theorem collected_calmComplete (asked : List Nat) (g : Nat) :
    Gathers.CalmComplete S.calledFunctions (S.directAt g) (fun _ => False)
      (column g (S.collected asked)) := by
  refine (List.foldlRecOn asked _ (motive := fun memo => S.Fits memo ∧
    Gathers.CalmComplete S.calledFunctions (S.directAt g) (fun _ => False) (column g memo))
    ⟨soundTable_empty.fits, ?_⟩ ?_).2
  · rw [column_empty]
    exact nofun
  · rintro memo ⟨hm, hcalm⟩ f -
    have h := globalAccesses_gathers hm f g
    refine ⟨?_, (h.complete_of_calm (by simp) (by rintro x ⟨⟩) hcalm).1⟩
    exact (collect_gathers _ f memo _ hm (collect_globalAccesses S f memo)).1

/-- The accesses of a function that reaches no recursion are complete. -/
theorem le_get_globalAccesses_of_calm (asked : List Nat) (hcalm : Calm S.calledFunctions f) {h : Nat}
    (hr : Reaches S.calledFunctions f h) :
    (S.direct h).get g ≤ (S.globalAccesses f (S.collected asked)).1.get g := by
  have hg := globalAccesses_gathers (soundTable_collected (S := S) asked).fits f g
  have hcomplete := hg.complete_of_calm (by simp) (by rintro x ⟨⟩) (collected_calmComplete asked g)
  exact hcomplete.2.2 f (List.mem_singleton_self f) hcalm h hr

theorem globalAccesses_eq_fresh (asked : List Nat)
    (h : ∀ g h, Reaches S.calledFunctions f h →
      (S.direct h).get g ≤ (S.globalAccesses f (S.collected asked)).1.get g) :
    (S.globalAccesses f (S.collected asked)).1 = (S.globalAccesses f ∅).1 := by
  refine Accesses.ext_get ?_ fun g => ?_
  · rw [size_globalAccesses (soundTable_collected asked), size_globalAccesses soundTable_empty]
  · obtain ⟨r, hr, hfresh⟩ := (isGreatest_fresh S f g).1
    exact le_antisymm (get_globalAccesses_le asked f g) (hfresh ▸ h g r hr)

/-- The accesses of a function that calls no others are those of its own instructions, after any
    questions. -/
theorem globalAccesses_of_leaf (asked : List Nat) (hf : S.calledFunctions f = []) :
    (S.globalAccesses f (S.collected asked)).1 = S.direct f := by
  have hself : ∀ h, Reaches S.calledFunctions f h → h = f := by
    intro h hr
    refine hr.closed (motive := (· = f)) ?_ rfl
    rintro _ rfl h' hh'
    simp [hf] at hh'
  have hcalm : Calm S.calledFunctions f := by
    rintro h hr ⟨h', hh', -⟩
    rw [hself h hr, hf] at hh'
    cases hh'
  refine Accesses.ext_get ?_ fun g => le_antisymm ?_ ?_
  · rw [size_globalAccesses (soundTable_collected asked), size_direct]
  · obtain ⟨h, hr, hfresh⟩ := (isGreatest_fresh S f g).1
    rw [← hself h hr, hfresh, hself h hr]
    exact get_globalAccesses_le asked f g
  · exact le_get_globalAccesses_of_calm asked hcalm (.refl f)

/-! ## Two functions that call each other, and a third one -/

/-- `start` calls `resume`, which calls `start` again, and then `finish`, which changes a global
    variable. -/
def startResume : Source where
  program := smallProgram #[⟨"total", some 0, .pointer (.basic "int")⟩] #[
    straightLine "start" #[] #[callTo 0 1 [], callTo 1 2 [], ⟨.ret [], .none, .none⟩],
    straightLine "resume" #[] #[callTo 0 0 [], ⟨.ret [], .none, .none⟩],
    straightLine "finish" #[] #[⟨.store (.global 0) (.const 0), .none, .none⟩,
      ⟨.ret [], .none, .none⟩]]
  resolve
    | ⟨0, 0, 0⟩ => some 1
    | ⟨0, 0, 1⟩ => some 2
    | ⟨1, 0, 0⟩ => some 0
    | _ => .none
  unknown := .none

/-! ## Accesses after other questions -/

/-- **When earlier questions do not matter.** The accesses of a function after any questions are at
    most those with an empty table. They are the same if and only if each access of a function that
    can be reached is also known on a chain of calls that ends at the first function with an entry;
    and they are the same whenever no recursion can be reached. -/
theorem globalAccesses_eq_fresh_iff (S : Source) (asked : List Nat) (f : Nat) :
    (∀ g, (S.globalAccesses f (S.collected asked)).1.get g ≤ (S.globalAccesses f ∅).1.get g) ∧
      ((S.globalAccesses f (S.collected asked)).1 = (S.globalAccesses f ∅).1 ↔
        ∀ g h, Reaches S.calledFunctions f h →
          ∃ r, Reaches (Gathers.openNext S.calledFunctions (entries (S.collected asked))) f r ∧
            (S.direct h).get g ≤ (S.knownAccesses (S.collected asked) r).get g) ∧
      (Calm S.calledFunctions f →
        (S.globalAccesses f (S.collected asked)).1 = (S.globalAccesses f ∅).1) := by
  have hknown := isGreatest_known (S := S) (soundTable_collected asked).fits f
  refine ⟨get_globalAccesses_le asked f, ⟨fun heq g h hr => ?_, fun h => ?_⟩, fun hcalm => ?_⟩
  · have hle : (S.direct h).get g ≤ (S.globalAccesses f ∅).1.get g :=
      (isGreatest_fresh S f g).2 ⟨h, hr, rfl⟩
    obtain ⟨r, hfr, hget⟩ := (hknown g).1
    exact ⟨r, hfr, by rw [hget, heq]; exact hle⟩
  · refine globalAccesses_eq_fresh asked fun g h' hr => ?_
    obtain ⟨r, hfr, hle⟩ := h g h' hr
    exact hle.trans ((hknown g).2 ⟨r, hfr, rfl⟩)
  · exact globalAccesses_eq_fresh asked fun g h hr => le_get_globalAccesses_of_calm asked hcalm hr

/-- A question about `start` leaves the change made by `finish` out of the accesses of `resume`,
    which is met while those of `start` are still being collected. -/
theorem globalAccesses_after_recursion :
    (startResume.globalAccesses 1 (startResume.collected [0])).1 = #[.absent] ∧
      (startResume.globalAccesses 1 ∅).1 = #[.change] := by
  have hstart : startResume.direct 0 = #[.absent] := by decide
  have hresume : startResume.direct 1 = #[.absent] := by decide
  have hfinish : startResume.direct 2 = #[.change] := by decide
  have hcalls₀ : startResume.calledFunctions 0 = [1, 2] := by decide
  have hcalls₁ : startResume.calledFunctions 1 = [0] := by decide
  have hcalls₂ : startResume.calledFunctions 2 = [] := by decide
  have hsize : startResume.program.functions.size = 3 := rfl
  have hnone : Accesses.join #[.absent] #[.absent] = #[.absent] := by
    simp [Accesses.join, Access.max]
  have hchange : Accesses.join #[.absent] #[.change] = #[.change] := by
    simp [Accesses.join, Access.max]
  simp [globalAccesses, collected, collect, hsize, hstart, hresume, hfinish, hcalls₀, hcalls₁,
    hcalls₂, joinInto, entry, hnone, hchange, Std.HashMap.getElem_insert]

end Effect.Source

end Overlap
