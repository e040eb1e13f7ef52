/-
  What the analyses of a pair of call sites change.

  * `State.Records`: one state comes from another by recording dependences
    between two call sites in the graph of one function; the tables of answers
    may change, other graphs do not;
  * `analyzePair_records`: every analysis of two call sites of a function that
    has a graph succeeds and does no more than that, and so do all of them one
    after the other (`analyzeSites_records`).
-/
import Overlap.Analysis.Run
import Overlap.Proofs.DependenceGraph

namespace Overlap

open Ssa Dependence

namespace State

variable {f : Nat} {a b : Loc} {s s' s'' : State}

theorem graphs_updateGraph (s : State) (f : Nat) (dedup : Bool)
    (change : Dependence.Graph → Dependence.Graph) (h : Nat) :
    (s.updateGraph f dedup change).graphs[h]? =
      if h = f then some (change (s.graph f dedup)) else s.graphs[h]? := by
  rw [updateGraph, Std.HashMap.getElem?_insert]
  simp only [beq_iff_eq, eq_comm (a := h)]

theorem graph_updateGraph (s : State) (f : Nat) (dedup : Bool)
    (change : Dependence.Graph → Dependence.Graph) :
    (s.updateGraph f dedup change).graph f dedup = change (s.graph f dedup) := by
  rw [graph, graphs_updateGraph, if_pos rfl, Option.getD_some]

/-- `s'` has the graphs of `s`, with dependences between `a` and `b` recorded in that of `f`. -/
structure Records (f : Nat) (a b : Loc) (s s' : State) : Prop where
  others : ∀ h, h ≠ f → s'.graphs[h]? = s.graphs[h]?
  own : ∀ g, s.graphs[f]? = some g →
    ∃ es : List Edge, (∀ e ∈ es, e.ends = {a, b}) ∧ s'.graphs[f]? = some (g.recordEdges es)

theorem Records.of_graphs_eq (h : s'.graphs = s.graphs) : Records f a b s s' where
  others _ _ := by rw [h]
  own g hg := ⟨[], by simp, by rw [h]; exact hg⟩

theorem Records.refl (s : State) : Records f a b s s := .of_graphs_eq rfl

theorem Records.trans (h : Records f a b s s') (h' : Records f a b s' s'') :
    Records f a b s s'' where
  others i hi := (h'.others i hi).trans (h.others i hi)
  own g hg := by
    obtain ⟨es, hes, hg'⟩ := h.own g hg
    obtain ⟨es', hes', hg''⟩ := h'.own _ hg'
    refine ⟨es ++ es', fun e he => ?_, by rw [hg'', Graph.recordEdges_append]⟩
    exact (List.mem_append.1 he).elim (hes e) (hes' e)

theorem Records.swap (h : Records f b a s s') : Records f a b s s' where
  others := h.others
  own g hg := by
    obtain ⟨es, hes, hg'⟩ := h.own g hg
    exact ⟨es, fun e he => (hes e he).trans (Finset.pair_comm b a), hg'⟩

theorem Records.isSome (h : Records f a b s s') (hg : (s.graphs[f]?).isSome) :
    (s'.graphs[f]?).isSome := by
  obtain ⟨g, hg⟩ := Option.isSome_iff_exists.1 hg
  obtain ⟨es, -, hg'⟩ := h.own g hg
  simp [hg']

/-- Edges are recorded in the graph of one function. -/
theorem records_updateGraph {dedup : Bool} (es : List Edge) (hes : ∀ e ∈ es, e.ends = {a, b}) :
    Records f a b s (s.updateGraph f dedup fun g => g.recordEdges es) where
  others h hh := by rw [graphs_updateGraph, if_neg hh]
  own g hg := ⟨es, hes, by rw [graphs_updateGraph, if_pos rfl, graph, hg, Option.getD_some]⟩

end State

open State

namespace Context

variable {τ : Type} {f : Nat} {a b : Loc}

/-! ## Correlation -/

theorem argumentCorrelations_spec (C : Context τ) (callee : Nat) (a b : Loc) (s : State) :
    (∀ e ∈ (C.argumentCorrelations callee a b s).1, e.ends = {a, b}) ∧
      (C.argumentCorrelations callee a b s).2.graphs = s.graphs := by
  unfold argumentCorrelations
  refine List.foldlRecOn _ _ (motive := fun r : List Edge × State =>
    (∀ e ∈ r.1, e.ends = {a, b}) ∧ r.2.graphs = s.graphs) ⟨by simp, rfl⟩ ?_
  rintro ⟨es, s₁⟩ ⟨hes, hs₁⟩ ⟨⟨param, arg⟩, i⟩ -
  dsimp only
  split_ifs
  · refine ⟨fun e he => ?_, hs₁⟩
    rcases List.mem_append.1 he with he | he
    · exact hes e he
    · rw [List.mem_singleton.1 he]; rfl
  · exact ⟨hes, hs₁⟩
  · exact ⟨hes, hs₁⟩

theorem globalCorrelations_spec (C : Context τ) (callee : Nat) (a b : Loc) (s : State) :
    (∀ e ∈ (C.globalCorrelations callee a b s).1, e.ends = {a, b}) ∧
      (C.globalCorrelations callee a b s).2.graphs = s.graphs := by
  refine ⟨fun e he => ?_, rfl⟩
  obtain ⟨g, -, hg⟩ := List.mem_filterMap.1 he
  split_ifs at hg
  cases hg
  rfl

theorem resultCorrelation_joins (C : Context τ) (a b : Loc) :
    ∀ e ∈ C.resultCorrelation a b, e.ends = {a, b} := by
  unfold resultCorrelation
  split
  · split_ifs
    · simp [Edge.ends]
    · simp
  · simp

theorem correlateOrdered_records (C : Context τ) (f : Nat) (a b : Loc) (s : State) :
    Records f a b s (C.correlateOrdered f a b s) := by
  unfold correlateOrdered
  cases C.resolve a with
  | none => exact .refl s
  | some callee =>
    obtain ⟨hargs, hs₁⟩ := argumentCorrelations_spec C callee a b s
    obtain ⟨hglobals, hs₂⟩ :=
      globalCorrelations_spec C callee a b (C.argumentCorrelations callee a b s).2
    refine (Records.of_graphs_eq (hs₂.trans hs₁)).trans (records_updateGraph _ fun e he => ?_)
    simp only [List.mem_append] at he
    rcases he with (he | he) | he
    · exact hargs e he
    · exact hglobals e he
    · exact resultCorrelation_joins C a b e he

theorem correlate_records (C : Context τ) (f : Nat) (a b : Loc) (s : State) :
    Records f a b s (C.correlate f a b s) :=
  (correlateOrdered_records C f a b s).trans (correlateOrdered_records C f b a _).swap

/-! ## Conflicts -/

/-- A conflict joins its two call sites. -/
theorem ends_conflict? {P : Program} {effectA effectB : Effect} {objectA objectB : String}
    {e : Edge} (h : conflict? P a b effectA effectB objectA objectB = some e) :
    e.ends = {a, b} := by
  unfold conflict? at h
  dsimp only at h
  split_ifs at h
  · cases h; rfl
  · cases h; exact Finset.pair_comm b a
  · cases h; rfl
  · cases h; exact Finset.pair_comm b a
  · cases h; rfl

theorem aliasConflicts_records (C : Context τ) (A : Memory.PointerAnalysis) (f : Nat) (a b : Loc)
    (s : State) : Records f a b s (C.aliasConflicts A f a b s) := by
  unfold aliasConflicts
  refine List.foldlRecOn _ _ (motive := Records f a b s)
    (records_updateGraph [] (by simp)) ?_
  rintro s₁ hs₁ ⟨na, nb⟩ -
  refine hs₁.trans ?_
  dsimp only
  generalize C.effectOnNode A a na.1 s₁.effects = r
  generalize C.effectOnNode A b nb.1 r.2 = r'
  have hmemo : Records f a b s₁ { s₁ with effects := r'.2 } := .of_graphs_eq rfl
  refine hmemo.trans ?_
  cases hedge : conflict? C.program a b r.1 r'.1 na.2 nb.2 with
  | none => exact records_updateGraph [] (by simp)
  | some e =>
    refine records_updateGraph [e] fun e' he' => ?_
    rw [List.mem_singleton.1 he']
    exact ends_conflict? hedge

theorem globalConflicts_records (C : Context τ) (f : Nat) (a b : Loc) (s : State) :
    Records f a b s (C.globalConflicts f a b s) := by
  unfold globalConflicts
  split
  · dsimp only
    generalize C.source.globalAccesses _ s.accesses = r
    generalize C.source.globalAccesses _ r.2 = r'
    have hmemo : Records f a b s { s with accesses := r'.2 } := .of_graphs_eq rfl
    refine hmemo.trans (records_updateGraph _ fun e he => ?_)
    obtain ⟨g, -, hg⟩ := List.mem_filterMap.1 he
    exact ends_conflict? hg
  · exact .refl s

/-! ## All analyses -/

theorem checkPair_ok (ha : a.func = f) (hb : b.func = f) :
    checkPair f (some a) (some b) = .ok (a, b) := by
  simp [checkPair, ha, hb]

theorem analyzePair_globals (C : Context τ) (ha : a.func = f) (hb : b.func = f) (s : State) :
    C.analyzePair .globals f (some a) (some b) s = .ok (C.globalConflicts f a b s) := by
  rw [analyzePair, checkPair_ok ha hb]
  rfl

theorem analyzePair_pointerAlias {C : Context τ} {A : Memory.PointerAnalysis}
    (hpointers : C.pointers = some A) (ha : a.func = f) (hb : b.func = f) (s : State) :
    C.analyzePair .pointerAlias f (some a) (some b) s = .ok (C.aliasConflicts A f a b s) := by
  rw [analyzePair, checkPair_ok ha hb, hpointers]
  rfl

theorem dominance_records (C : Context τ) {s : State} (hs : (s.graphs[f]?).isSome) (a b : Loc) :
    ∃ s', C.dominance f a b s = .ok s' ∧ Records f a b s s' := by
  have hf : s.graphs.contains f := by simpa using hs
  unfold dominance
  rw [if_pos hf]
  split_ifs
  · exact ⟨s, rfl, .refl s⟩
  · exact ⟨_, rfl, records_updateGraph _ (by simp [Edge.ends])⟩

/-- **An analysis of two call sites of a function with a graph succeeds** and records dependences
    between them. -/
theorem analyzePair_records (C : Context τ) (analyzer : Analyzer) (ha : a.func = f)
    (hb : b.func = f) {s : State} (hs : (s.graphs[f]?).isSome) :
    ∃ s', C.analyzePair analyzer f (some a) (some b) s = .ok s' ∧ Records f a b s s' := by
  unfold analyzePair
  rw [checkPair_ok ha hb]
  cases analyzer with
  | correlation => exact ⟨_, rfl, correlate_records C f a b s⟩
  | pointerAlias =>
    cases hA : C.pointers with
    | none => exact ⟨s, rfl, .refl s⟩
    | some A => exact ⟨_, rfl, aliasConflicts_records C A f a b s⟩
  | globals => exact ⟨_, rfl, globalConflicts_records C f a b s⟩
  | dominator => exact dominance_records C hs a b

theorem analyzeSites_records (C : Context τ) (ha : a.func = f) (hb : b.func = f) {s : State}
    (hs : (s.graphs[f]?).isSome) :
    ∃ s', C.analyzeSites f s (a, b) = .ok s' ∧ Records f a b s s' := by
  refine foldlM_ok (motive := Records f a b s) (fun s₁ hs₁ analyzer _ => ?_) (.refl s)
  obtain ⟨s₂, h₂, hs₂⟩ := analyzePair_records C analyzer ha hb (hs₁.isSome hs)
  exact ⟨s₂, h₂, hs₁.trans hs₂⟩

end Context

end Overlap
