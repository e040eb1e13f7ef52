/-
  Depth-first evaluation with a table of earlier results.

  Each point of a directed graph has a value of its own, and its result is the
  join of the values of all points that can be reached from it.  A point is
  evaluated by joining its own value with the results of its successors, one
  after the other.  Results are kept in a table, and a point is entered in it
  before its result is known, so that evaluation ends on cycles; what the entry
  holds meanwhile is at most what has been found so far.

  * `Gathers` is this evaluation.  It leaves open how much an entry holds before
    its result is known, and whether successors are looked at once the greatest
    value has been found;
  * `Gathers.le_of_closed`: a result is at most any bound that is closed under
    successors, and so are the entries of the table;
  * `Gathers.isLUB`: a result is the join of the values and earlier entries on
    chains that end at the first earlier entry.  Without earlier entries it is
    the join of the values of all reachable points (`Gathers.isLUB_of_empty`);
  * `Gathers.complete_of_calm`: entries of points that reach no cycle hold the
    whole result, whatever was evaluated before.
-/
import Mathlib.Order.Bounds.Basic
import Mathlib.Order.BoundedOrder.Lattice
import Std.Data.HashMap
import Overlap.Proofs.Reach

namespace Overlap

open Graph Function

/-! ## Tables -/

section
variable {α β : Type} [DecidableEq α] [Hashable α]

/-- The entries of a table that is kept as a hash map. -/
def entries (memo : Std.HashMap α β) (x : α) : Option β := memo[x]?

theorem entries_empty : entries (∅ : Std.HashMap α β) = fun _ => none := by
  funext x
  simp [entries]

theorem entries_insert (memo : Std.HashMap α β) (x : α) (v : β) :
    entries (memo.insert x v) = update (entries memo) x (some v) := by
  funext y
  simp only [entries, update_apply, Std.HashMap.getElem?_insert, beq_iff_eq, eq_comm (a := x)]

end

/-! ## Evaluation -/

/-- What is left to do: to evaluate a point, or to join the results of some successors of `q`
    with what has been found for `q` so far. -/
inductive Task (α L : Type) where
  | ask (q : α)
  | sweep (q : α) (todo : List α) (found : L)

namespace Task

variable {α L : Type}

/-- The point whose result is wanted. -/
def point : Task α L → α
  | ask q => q
  | sweep q _ _ => q

/-- The points whose results are joined. -/
def todo : Task α L → List α
  | ask q => [q]
  | sweep _ ys _ => ys

/-- Whether a point has been entered in the table and waits for its result. -/
def Awaits : Task α L → α → Prop
  | ask _, _ => False
  | sweep q _ _, x => x = q

/-- What has been found so far is at most `e`. -/
def FoundLe [LE L] (e : L) : Task α L → Prop
  | ask _ => True
  | sweep _ _ a => a ≤ e

end Task

variable {α L : Type} [DecidableEq α] [SemilatticeSup L] [OrderTop L]

/-- `Gathers next own task t e t'`: with the table `t`, the result of `task` is `e`, and the table
    is `t'` afterwards. -/
inductive Gathers (next : α → List α) (own : α → L) :
    Task α L → (α → Option L) → L → (α → Option L) → Prop where
  | known {q t e} : t q = some e → Gathers next own (.ask q) t e t
  | visit {q t w e t'} : t q = none → w ≤ own q →
      Gathers next own (.sweep q (next q) (own q)) (update t q (some w)) e t' →
      Gathers next own (.ask q) t e (update t' q (some e))
  | done {q a t} : Gathers next own (.sweep q [] a) t a t
  | skip {q y ys t e t'} : Gathers next own (.sweep q ys ⊤) t e t' →
      Gathers next own (.sweep q (y :: ys) ⊤) t e t'
  | sub {q y ys a t v t₁ e t'} : Gathers next own (.ask y) t v t₁ →
      Gathers next own (.sweep q ys (a ⊔ v)) t₁ e t' → Gathers next own (.sweep q (y :: ys) a) t e t'
  | publish {q ys a t w e t'} : w ≤ a →
      Gathers next own (.sweep q ys a) (update t q (some w)) e t' →
      Gathers next own (.sweep q ys a) t e t'

namespace Gathers

variable {next : α → List α} {own : α → L} {task : Task α L} {t t' : α → Option L} {e : L} {q : α}

/-! ## Entries -/

/-- Entries stay as they are, apart from that of a point which awaits its result. -/
theorem preserves (h : Gathers next own task t e t') {x : α} {v : L} (hx : ¬ task.Awaits x)
    (ht : t x = some v) : t' x = some v := by
  induction h with
  | known | done => exact ht
  | @visit q t w e t' hq _ _ ih =>
    have hne : x ≠ q := by rintro rfl; rw [hq] at ht; cases ht
    rw [update_of_ne hne]
    exact ih hne (by rw [update_of_ne hne]; exact ht)
  | skip _ ih => exact ih hx ht
  | sub _ _ ih₁ ih₂ => exact ih₂ hx (ih₁ not_false ht)
  | publish _ _ ih => exact ih hx (by rw [update_of_ne hx]; exact ht)

/-- No entry is lost. -/
theorem isSome (h : Gathers next own task t e t') {x : α} (ht : (t x).isSome) : (t' x).isSome := by
  induction h with
  | known | done => exact ht
  | @visit q _ _ _ _ _ _ _ ih | @publish q _ _ _ _ _ _ _ _ ih =>
    by_cases hx : x = q <;> simp_all
  | skip _ ih => exact ih ht
  | sub _ _ ih₁ ih₂ => exact ih₂ (ih₁ ht)

theorem eq_none (h : Gathers next own task t e t') {x : α} (ht : t' x = none) : t x = none := by
  rw [← Option.not_isSome_iff_eq_none] at ht ⊢
  exact fun hx => ht (h.isSome hx)

/-- The result of a point is entered in the table. -/
theorem ask_entry (h : Gathers next own (.ask q) t e t') : t' q = some e := by
  cases h with
  | known hq => exact hq
  | visit => exact update_self ..

/-- Nothing more is looked at once the greatest value has been found. -/
theorem skips {ys rest : List α} (h : Gathers next own (.sweep q rest ⊤) t e t') :
    Gathers next own (.sweep q (ys ++ rest) ⊤) t e t' := by
  induction ys with
  | nil => exact h
  | cons y ys ih => exact .skip ih

/-! ## Points without an entry -/

/-- The number of points of a list that have no entry. -/
def pending (points : List α) (t : α → Option L) : Nat := points.countP fun x => (t x).isNone

omit [DecidableEq α] [SemilatticeSup L] [OrderTop L] in
theorem pending_le {points : List α} (h : ∀ x, (t x).isSome → (t' x).isSome) :
    pending points t' ≤ pending points t := by
  refine List.countP_mono_left fun x _ hx => ?_
  rw [Option.isNone_iff_eq_none, ← Option.not_isSome_iff_eq_none] at hx ⊢
  exact fun hx' => hx (h x hx')

omit [SemilatticeSup L] [OrderTop L] in
theorem pending_update_le (points : List α) (t : α → Option L) (q : α) (v : L) :
    pending points (update t q (some v)) ≤ pending points t :=
  pending_le fun x hx => by by_cases hxq : x = q <;> simp_all

omit [SemilatticeSup L] [OrderTop L] in
/-- An entry of a point that had none leaves fewer points without. -/
theorem pending_update_lt {points : List α} {v : L} (hq : q ∈ points) (ht : t q = none) :
    pending points (update t q (some v)) < pending points t := by
  induction points with
  | nil => simp at hq
  | cons p ps ih =>
    have hle := pending_update_le ps t q v
    unfold pending at ih hle ⊢
    simp only [List.countP_cons]
    by_cases hp : p = q
    · subst hp
      simpa [ht] using Nat.lt_succ_of_le hle
    · have hlt := ih ((List.mem_cons.1 hq).resolve_left (Ne.symm hp))
      simpa [update_of_ne hp] using hlt

/-! ## Upper bounds -/

/-- The entries of a table are at most `F`. -/
def Below (t : α → Option L) (F : α → L) : Prop := ∀ x v, t x = some v → v ≤ F x

/-- `F` is at least the value of each point without an entry, and closed under its
    successors. -/
def Closed (next : α → List α) (own : α → L) (t : α → Option L) (F : α → L) : Prop :=
  ∀ x, t x = none → own x ≤ F x ∧ ∀ y ∈ next x, F y ≤ F x

omit [OrderTop L] in
theorem Below.update {F : α → L} {w : L} (ht : Below t F) (hw : w ≤ F q) :
    Below (update t q (some w)) F := by
  intro x v hv
  by_cases hx : x = q
  · subst hx; rw [update_self] at hv; cases hv; exact hw
  · rw [update_of_ne hx] at hv; exact ht x v hv

omit [OrderTop L] in
theorem Closed.update {F : α → L} {w : L} (hF : Closed next own t F) :
    Closed next own (update t q (some w)) F := by
  intro x hx
  by_cases hxq : x = q
  · subst hxq; rw [update_self] at hx; cases hx
  · rw [update_of_ne hxq] at hx; exact hF x hx

/-- **A result is at most any closed bound of the table.** -/
theorem le_of_closed {F : α → L} (h : Gathers next own task t e t') (hF : Closed next own t F)
    (ht : Below t F) (hfound : task.FoundLe (F task.point))
    (htodo : ∀ y ∈ task.todo, F y ≤ F task.point) : e ≤ F task.point ∧ Below t' F := by
  induction h with
  | known hq => exact ⟨ht _ _ hq, ht⟩
  | @visit q t w e t' hq hw _ ih =>
    obtain ⟨hown, hnext⟩ := hF q hq
    obtain ⟨he, ht'⟩ := ih hF.update (ht.update (hw.trans hown)) hown hnext
    exact ⟨he, ht'.update he⟩
  | done => exact ⟨hfound, ht⟩
  | skip _ ih => exact ih hF ht hfound fun y hy => htodo y (List.mem_cons_of_mem _ hy)
  | @sub q y ys a t v t₁ e t' h₁ _ ih₁ ih₂ =>
    obtain ⟨hv, ht₁⟩ := ih₁ hF ht trivial (by simp [Task.todo, Task.point])
    have hy : F y ≤ F q := htodo y (List.mem_cons_self ..)
    exact ih₂ (fun x hx => hF x (h₁.eq_none hx)) ht₁ (sup_le hfound (hv.trans hy))
      fun z hz => htodo z (List.mem_cons_of_mem _ hz)
  | publish hw _ ih => exact ih hF.update (ht.update (hw.trans hfound)) hfound htodo

/-! ## What an evaluation covers -/

/-- The result of `y` has been joined into `e`: it has an entry, and the one it had in the table
    `t₀` is in `e`. -/
def Answered (t₀ t : α → Option L) (e : L) (y : α) : Prop :=
  e = ⊤ ∨ (t y).isSome ∧ ∀ v, t₀ y = some v → v ≤ e

omit [DecidableEq α] in
theorem Answered.mono {t₀ : α → Option L} {v : L} {y : α} (h : Answered t₀ t v y)
    (ht : (t y).isSome → (t' y).isSome) (hve : v ≤ e) : Answered t₀ t' e y := by
  rcases h with rfl | ⟨hy, hle⟩
  · exact Or.inl (top_le_iff.1 hve)
  · exact Or.inr ⟨ht hy, fun w hw => (hle w hw).trans hve⟩

/-- **An evaluation passes everything on**: the result is at least the value of each point that
    got its entry meanwhile, and the results of the successors of these points are joined into
    it. -/
theorem covers {t₀ : α → Option L} (h : Gathers next own task t e t')
    (h₀ : ∀ x v, t₀ x = some v → t x = some v ∧ ¬ task.Awaits x)
    (hawaits : ∀ x, task.Awaits x → (t x).isSome) :
    task.FoundLe e ∧ (∀ y ∈ task.todo, Answered t₀ t' e y) ∧
      ∀ x, t x = none → (t' x).isSome → own x ≤ e ∧ ∀ y ∈ next x, Answered t₀ t' e y := by
  induction h with
  | @known q t e hq =>
    refine ⟨trivial, fun y hy => ?_, fun x hx hx' => by simp [hx] at hx'⟩
    obtain rfl := List.mem_singleton.1 hy
    refine Or.inr ⟨by simp [hq], fun v hv => ?_⟩
    have := (h₀ y v hv).1
    rw [hq] at this
    cases this
    exact le_rfl
  | @visit q t w e t' hq _ _ ih =>
    -- `q` has no entry yet, so none of the entries of `t₀` is about it
    have hne : ∀ x v, t₀ x = some v → x ≠ q := by
      rintro x v hv rfl
      have := (h₀ x v hv).1
      rw [hq] at this
      cases this
    obtain ⟨hown, hnext, hnew⟩ := ih
      (fun x v hv => ⟨by rw [update_of_ne (hne x v hv)]; exact (h₀ x v hv).1, hne x v hv⟩)
      (by rintro x rfl; simp)
    have hsome : ∀ x, (t' x).isSome → (update t' q (some e) x).isSome := by
      intro x hx
      by_cases hxq : x = q <;> simp_all
    refine ⟨trivial, fun y hy => ?_, fun x hx hx' => ?_⟩
    · obtain rfl := List.mem_singleton.1 hy
      exact Or.inr ⟨by simp, fun v hv => absurd rfl (hne y v hv)⟩
    · by_cases hxq : x = q
      · subst hxq
        exact ⟨hown, fun y hy => (hnext y hy).mono (hsome y) le_rfl⟩
      · rw [update_of_ne hxq] at hx'
        obtain ⟨hx₁, hx₂⟩ := hnew x (by rw [update_of_ne hxq]; exact hx) hx'
        exact ⟨hx₁, fun y hy => (hx₂ y hy).mono (hsome y) le_rfl⟩
  | done => exact ⟨le_rfl, by simp [Task.todo], fun x hx hx' => by simp [hx] at hx'⟩
  | skip _ ih =>
    obtain ⟨htop, -, hnew⟩ := ih h₀ hawaits
    exact ⟨htop, fun y _ => Or.inl (top_le_iff.1 htop), hnew⟩
  | @sub q y ys a t v t₁ e t' h₁ h₂ ih₁ ih₂ =>
    obtain ⟨-, hy, hnew₁⟩ := ih₁ (fun x v hv => ⟨(h₀ x v hv).1, not_false⟩) (by rintro x ⟨⟩)
    obtain ⟨hav, hys, hnew₂⟩ := ih₂
      (fun x v hv => ⟨h₁.preserves not_false (h₀ x v hv).1, (h₀ x v hv).2⟩)
      (fun x hx => h₁.isSome (hawaits x hx))
    have hve : v ≤ e := le_sup_right.trans hav
    refine ⟨le_sup_left.trans hav, fun z hz => ?_, fun x hx hx' => ?_⟩
    · rcases List.mem_cons.1 hz with rfl | hz
      · exact (hy z (List.mem_singleton_self z)).mono h₂.isSome hve
      · exact hys z hz
    · -- a point that got its entry while `y` was evaluated is covered by `v`
      by_cases hx₁ : t₁ x = none
      · exact hnew₂ x hx₁ hx'
      · obtain ⟨hxv, hxn⟩ := hnew₁ x hx (Option.isSome_iff_ne_none.2 hx₁)
        exact ⟨hxv.trans hve, fun z hz => (hxn z hz).mono h₂.isSome hve⟩
  | @publish q ys a t w e t' _ _ ih =>
    have hne : ∀ x v, t₀ x = some v → x ≠ q := fun x v hv => (h₀ x v hv).2
    obtain ⟨ha, hys, hnew⟩ := ih
      (fun x v hv => ⟨by rw [update_of_ne (hne x v hv)]; exact (h₀ x v hv).1, hne x v hv⟩)
      (by rintro x rfl; simp)
    refine ⟨ha, hys, fun x hx hx' => ?_⟩
    have hxq : x ≠ q := by
      rintro rfl
      have := hawaits x rfl
      rw [hx] at this
      cases this
    exact hnew x (by rw [update_of_ne hxq]; exact hx) hx'

/-! ## The result of a point -/

/-- The successors of a point, none if it has an entry. -/
def openNext (next : α → List α) (t : α → Option L) (x : α) : List α :=
  if (t x).isSome then [] else next x

/-- The entry of a point, or its own value if it has none. -/
def knownOr (own : α → L) (t : α → Option L) (x : α) : L := (t x).getD (own x)

/-- The bound that is `b` on the points reachable from `x` and nothing elsewhere. -/
noncomputable def boundFrom (next : α → List α) (x : α) (b : L) (y : α) : L :=
  open Classical in if Reaches next x y then b else ⊤

omit [DecidableEq α] in
theorem boundFrom_self {x : α} {b : L} : boundFrom next x b x = b := if_pos (.refl x)

omit [DecidableEq α] in
theorem le_boundFrom {x y : α} {b v : L} (h : Reaches next x y → v ≤ b) :
    v ≤ boundFrom next x b y := by
  unfold boundFrom
  split_ifs with hy
  · exact h hy
  · exact le_top

omit [DecidableEq α] in
theorem boundFrom_le {x y z : α} {b : L} (h : Reaches next x y → Reaches next x z) :
    boundFrom next x b z ≤ boundFrom next x b y := by
  unfold boundFrom
  split_ifs with hz hy hy
  · exact le_rfl
  · exact le_top
  · exact absurd (h hy) hz
  · exact le_rfl

/-- What is known of the points on open chains from an answered point is in the result. -/
theorem knownOr_le (h : Gathers next own (.ask q) t e t') {x r : α}
    (hxr : Reaches (openNext next t) x r) (hx : Answered t t' e x) : knownOr own t r ≤ e := by
  obtain ⟨-, -, hnew⟩ := h.covers (fun x v hv => ⟨hv, not_false⟩) (by rintro x ⟨⟩)
  induction hxr with
  | refl x =>
    rcases hx with rfl | ⟨hx, hv⟩
    · exact le_top
    · unfold knownOr
      cases htx : t x with
      | some v => exact hv v htx
      | none => exact (hnew x htx hx).1
  | @step x y r hy _ ih =>
    rcases hx with rfl | ⟨hx, -⟩
    · exact le_top
    · unfold openNext at hy
      split_ifs at hy with htx
      · simp at hy
      · exact ih ((hnew x (Option.not_isSome_iff_eq_none.1 htx) hx).2 y hy)

/-- **The result of a point** is the join of what is known of the points on open chains from it:
    on chains that end at the first point with an entry. -/
theorem isLUB (h : Gathers next own (.ask q) t e t') :
    IsLUB {v | ∃ r, Reaches (openNext next t) q r ∧ knownOr own t r = v} e := by
  constructor
  · rintro v ⟨r, hr, rfl⟩
    obtain ⟨-, hq, -⟩ := h.covers (fun x v hv => ⟨hv, not_false⟩) (by rintro x ⟨⟩)
    exact h.knownOr_le hr (hq q (List.mem_singleton_self q))
  · intro b hb
    have hle : ∀ r, Reaches (openNext next t) q r → knownOr own t r ≤ b :=
      fun r hr => hb ⟨r, hr, rfl⟩
    -- `b` on the open chains from `q`, and no bound elsewhere, is closed
    have hF : Closed next own t (boundFrom (openNext next t) q b) := by
      intro x hx
      have hopen : openNext next t x = next x := by simp [openNext, hx]
      have hown : knownOr own t x = own x := by simp [knownOr, hx]
      exact ⟨le_boundFrom fun hr => hown ▸ hle x hr,
        fun y hy => boundFrom_le fun hr => hr.tail (by rwa [hopen])⟩
    have ht : Below t (boundFrom (openNext next t) q b) := by
      intro x v hv
      have hknown : knownOr own t x = v := by simp [knownOr, hv]
      exact le_boundFrom fun hr => hknown ▸ hle x hr
    have := (h.le_of_closed hF ht trivial (by simp [Task.todo, Task.point])).1
    rwa [Task.point, boundFrom_self] at this

omit [DecidableEq α] [SemilatticeSup L] [OrderTop L] in
theorem openNext_empty : openNext next (fun _ => (none : Option L)) = next := by
  funext x
  simp [openNext]

/-- Without earlier entries, **the result of a point is the join of the values of all points
    reachable from it**. -/
theorem isLUB_of_empty (h : Gathers next own (.ask q) (fun _ => none) e t') :
    IsLUB {v | ∃ r, Reaches next q r ∧ own r = v} e := by
  have := h.isLUB
  rw [openNext_empty] at this
  exact this

/-! ## Entries of a table -/

/-- Each entry of a table is at most the join of the values of the points reachable from it. -/
def Sound (next : α → List α) (own : α → L) (t : α → Option L) : Prop :=
  ∀ x v, t x = some v → ∀ b, (∀ r, Reaches next x r → own r ≤ b) → v ≤ b

/-- Evaluation keeps tables sound. -/
theorem sound (h : Gathers next own (.ask q) t e t') (ht : Sound next own t) :
    Sound next own t' := by
  intro x v hv b hb
  have hF : Closed next own t (boundFrom next x b) := fun y _ =>
    ⟨le_boundFrom (hb y), fun z hz => boundFrom_le fun hr => hr.tail hz⟩
  have hbelow : Below t (boundFrom next x b) := fun y w hw =>
    le_boundFrom fun hr => ht y w hw b fun r hyr => hb r (hr.trans hyr)
  have := (h.le_of_closed hF hbelow trivial (by simp [Task.todo, Task.point])).2 x v hv
  rwa [boundFrom_self] at this

/-- All that can be reached from `x` is in `v`. -/
def Complete (next : α → List α) (own : α → L) (x : α) (v : L) : Prop :=
  ∀ r, Reaches next x r → own r ≤ v

/-- The entries of a table are complete where no cycle can be reached, apart from points that
    await their results. -/
def CalmComplete (next : α → List α) (own : α → L) (awaiting : α → Prop) (t : α → Option L) :
    Prop :=
  ∀ x v, t x = some v → awaiting x ∨ (Calm next x → Complete next own x v)

omit [OrderTop L] in
theorem CalmComplete.update {awaiting : α → Prop} {w : L}
    (ht : CalmComplete next own awaiting t) (hq : awaiting q) :
    CalmComplete next own awaiting (update t q (some w)) := by
  intro x v hv
  by_cases hx : x = q
  · exact Or.inl (hx ▸ hq)
  · rw [update_of_ne hx] at hv; exact ht x v hv

/-- **Entries of points that reach no cycle are complete**, whatever the table held. A point that
    awaits its result reaches all that is still to do, so it is never met again from a point that
    reaches no cycle. -/
theorem complete_of_calm {awaiting : α → Prop} (h : Gathers next own task t e t')
    (hreach : ∀ p, awaiting p → ∀ y ∈ task.todo, Path next p y)
    (hawaits : ∀ x, task.Awaits x → awaiting x) (ht : CalmComplete next own awaiting t) :
    CalmComplete next own awaiting t' ∧ task.FoundLe e ∧
      ∀ y ∈ task.todo, Calm next y → Complete next own y e := by
  induction h generalizing awaiting with
  | @known q t e hq =>
    refine ⟨ht, trivial, fun y hy hcalm => ?_⟩
    obtain rfl := List.mem_singleton.1 hy
    rcases ht y e hq with hawait | hcomplete
    · -- a point that awaits its result and is met again is on a cycle
      exact absurd (hreach y hawait y hy) hcalm.not_path
    · exact hcomplete hcalm
  | @visit q t w e t' _ _ _ ih =>
    have hq : ∀ p, awaiting p → Path next p q := fun p hp => hreach p hp q (List.mem_singleton_self q)
    obtain ⟨ht', hown, hnext⟩ := @ih (fun x => awaiting x ∨ x = q)
      (by
        rintro p (hp | rfl) y hy
        · exact (hq p hp).tail hy
        · exact .of_mem hy)
      (fun x hx => Or.inr hx)
      (CalmComplete.update (fun x v hv => (ht x v hv).imp_left Or.inl) (Or.inr rfl))
    have hcomplete : Calm next q → Complete next own q e := by
      intro hcalm r hr
      cases hr with
      | refl => exact hown
      | step hy hr => exact hnext _ hy (hcalm.of_reaches (.of_mem hy)) r hr
    refine ⟨fun x v hv => ?_, trivial, fun y hy => ?_⟩
    · by_cases hx : x = q
      · subst hx; rw [update_self] at hv; cases hv; exact Or.inr hcomplete
      · rw [update_of_ne hx] at hv
        exact (ht' x v hv).imp_left fun h => h.resolve_right hx
    · obtain rfl := List.mem_singleton.1 hy
      exact hcomplete
  | done => exact ⟨ht, le_rfl, by simp [Task.todo]⟩
  | skip _ ih =>
    obtain ⟨ht', htop, -⟩ := ih (fun p hp y hy => hreach p hp y (List.mem_cons_of_mem _ hy)) hawaits ht
    exact ⟨ht', htop, fun y _ _ r _ => le_top.trans htop⟩
  | @sub q y ys a t v t₁ e t' h₁ _ ih₁ ih₂ =>
    obtain ⟨ht₁, -, hy⟩ := ih₁
      (fun p hp z hz => hreach p hp z (List.mem_singleton.1 hz ▸ List.mem_cons_self ..))
      (by rintro x ⟨⟩) ht
    obtain ⟨ht', hav, hys⟩ :=
      ih₂ (fun p hp z hz => hreach p hp z (List.mem_cons_of_mem _ hz)) hawaits ht₁
    refine ⟨ht', le_sup_left.trans hav, fun z hz hcalm => ?_⟩
    rcases List.mem_cons.1 hz with rfl | hz
    · exact fun r hr => (hy z (List.mem_singleton_self z) hcalm r hr).trans (le_sup_right.trans hav)
    · exact hys z hz hcalm
  | publish _ _ ih => exact ih hreach hawaits (ht.update (hawaits _ rfl))

end Gathers

end Overlap
