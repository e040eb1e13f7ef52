/-
  Graphs with and without duplicates.

  A graph that keeps no duplicates and one that keeps them hold the same nodes
  after the same operations, and their edges differ by the repetitions
  (`Graph.Dedups`).  An analysis performs the same operations whichever graphs
  it fills, since its questions do not depend on them.

  * `dedups_build`: the graphs after the same operations;
  * `State.Twins`: two states have the same tables of answers, and graphs built
    by the same operations.  Every step of an analysis keeps this up
    (`correlate_twins`, `aliasConflicts_twins`, `globalConflicts_twins`,
    `dominance_twins`), and so does an analysis (`analyze_twins`);
  * `dedup_erases_repeats`: the two graphs after any operations, and after an
    analysis of a program.
-/
import Mathlib.Data.Option.Basic
import Overlap.Proofs.AnalyzePair
import Overlap.Proofs.GraphOperations

namespace Overlap

open Ssa Dependence

/-! ## Graphs after the same operations -/

namespace Dependence.Graph

/-- `g` is the graph `g'` without the edges that repeat an earlier one. -/
structure Dedups (g g' : Graph) : Prop where
  func_eq : g.func = g'.func
  sites_eq : g.sites = g'.sites
  edges_eq : g.edges.toList = g'.edges.toList.eraseDups
  out_eq : ∀ a, g.out a = (g'.out a).eraseDups
  incoming_eq : ∀ a, g.incoming a = (g'.incoming a).eraseDups
  edgesBetween_eq : ∀ a b, g.edgesBetween a b = (g'.edgesBetween a b).eraseDups

theorem func_build (f : Nat) (dedup : Bool) (ops : List Operation) :
    (build f dedup ops).func = f := by
  refine List.foldlRecOn ops _ (motive := fun g : Graph => g.func = f) rfl fun g hg op _ => ?_
  cases op with
  | node site create =>
    cases create with
    | true => exact (func_addNode g site).trans hg
    | false => exact hg
  | dependence a b kind own foreign => exact (func_record ..).trans hg

theorem dedups_build (f : Nat) (ops : List Operation) :
    (build f true ops).Dedups (build f false ops) := by
  have hd := holds_build f true ops
  have hp := holds_build f false ops
  have hedges : (build f true ops).edges.toList = (build f false ops).edges.toList.eraseDups := by
    rw [hd.edges_eq, hp.edges_eq]
    rfl
  have hrefs : ∀ backward, Function.Injective (EdgeRef.mk · backward) := fun backward e e' h =>
    (EdgeRef.mk.injEq .. ▸ h).1
  refine ⟨?_, hd.sites_eq.trans hp.sites_eq.symm, hedges, fun a => ?_, fun a => ?_, fun a b => ?_⟩
  · rw [func_build, func_build]
  · rw [hd.wellFormed.out_refs, hp.wellFormed.out_refs, hedges, filter_eraseDups,
      eraseDups_map (hrefs false)]
  · rw [hd.wellFormed.incoming_refs, hp.wellFormed.incoming_refs, hedges, filter_eraseDups,
      eraseDups_map (hrefs true)]
  · rw [hd.wellFormed.edgesBetween_eq, hp.wellFormed.edgesBetween_eq, hedges, filter_eraseDups]

/-- What recording a dependence gives back: its edge, or nothing if the graph has it and keeps no
    duplicates. -/
theorem requireDependence_snd (g : Graph) (a b : Loc) (kind : Kinds) (own foreign : String) :
    let e : Edge := ⟨kind.withoutIncoming, a, b, own, foreign⟩
    (g.requireDependence (some a) (some b) kind own foreign).2 =
      .ok (if g.dedup ∧ e ∈ g.edges.toList then none else some e) := by
  intro e
  unfold requireDependence addDependence
  simp only [dedup_addNode, edges_addNode, Bool.and_eq_true, Array.contains_iff_mem,
    Array.mem_toList_iff]
  split_ifs <;> rfl

end Dependence.Graph

/-! ## Computations that agree -/

/-- Two computations fail with the same error, or both succeed with related results. -/
inductive Agree {ε α β : Type} (r : α → β → Prop) : Except ε α → Except ε β → Prop
  | error (e : ε) : Agree r (.error e) (.error e)
  | ok {x : α} {y : β} (h : r x y) : Agree r (.ok x) (.ok y)

namespace Agree

variable {ε ε' α β γ δ : Type} {r : α → β → Prop} {q : γ → δ → Prop}

theorem imp {x : Except ε α} {y : Except ε β} {r' : α → β → Prop} (h : Agree r x y)
    (himp : ∀ a b, r a b → r' a b) : Agree r' x y := by
  cases h with
  | error e => exact .error e
  | ok h => exact .ok (himp _ _ h)

theorem bind {x : Except ε α} {y : Except ε β} {k : α → Except ε γ} {l : β → Except ε δ}
    (h : Agree r x y) (hk : ∀ a b, r a b → Agree q (k a) (l b)) : Agree q (x >>= k) (y >>= l) := by
  cases h with
  | error e => exact .error e
  | ok h => exact hk _ _ h

theorem mapError {x : Except ε α} {y : Except ε β} (h : Agree r x y) (k : ε → ε') :
    Agree r (x.mapError k) (y.mapError k) := by
  cases h with
  | error e => exact .error (k e)
  | ok h => exact .ok h

theorem foldlM {k : α → γ → Except ε α} {l : β → γ → Except ε β} {xs : List γ} {a : α} {b : β}
    (hstep : ∀ x ∈ xs, ∀ a b, r a b → Agree r (k a x) (l b x)) (h : r a b) :
    Agree r (xs.foldlM k a) (xs.foldlM l b) := by
  induction xs generalizing a b with
  | nil => exact .ok h
  | cons x xs ih =>
    rw [List.foldlM_cons, List.foldlM_cons]
    refine (hstep x (List.mem_cons_self ..) a b h).bind fun a' b' h' => ?_
    exact ih (fun y hy => hstep y (List.mem_cons_of_mem _ hy)) h'

end Agree

/-! ## States that differ by duplicates -/

/-- The operation that records an edge. -/
def Dependence.Edge.operation (e : Edge) : Operation :=
  .dependence e.source e.target e.kind e.own e.foreign

theorem Dependence.Graph.recordEdges_eq_foldl (g : Graph) (es : List Edge) :
    g.recordEdges es = (es.map Edge.operation).foldl Operation.apply g := by
  rw [List.foldl_map]
  rfl

theorem Dependence.Graph.foldl_addNode_eq_foldl (g : Graph) (sites : List Loc) :
    sites.foldl (·.addNode ·) g =
      (sites.map (Operation.node · true)).foldl Operation.apply g := by
  rw [List.foldl_map]
  rfl

namespace State

/-- Two states with the same answers, and graphs built by the same operations; those of the first
    one keep no duplicates. -/
structure Twins (s s' : State) : Prop where
  effects_eq : s.effects = s'.effects
  accesses_eq : s.accesses = s'.accesses
  graphs_eq : ∀ f, ∃ ops : Option (List Operation),
    s.graphs[f]? = ops.map (Graph.build f true) ∧ s'.graphs[f]? = ops.map (Graph.build f false)

variable {s s' : State}

theorem twins_fresh : Twins .fresh .fresh where
  effects_eq := rfl
  accesses_eq := rfl
  graphs_eq f := ⟨none, by simp [fresh]⟩

theorem Twins.withEffects (h : Twins s s') (memo : EffectMemo) :
    Twins { s with effects := memo } { s' with effects := memo } :=
  ⟨rfl, h.accesses_eq, h.graphs_eq⟩

theorem Twins.withAccesses (h : Twins s s') (memo : Effect.Source.AccessMemo) :
    Twins { s with accesses := memo } { s' with accesses := memo } :=
  ⟨h.effects_eq, rfl, h.graphs_eq⟩

theorem Twins.graph_eq (h : Twins s s') (f : Nat) :
    ∃ ops, s.graph f true = .build f true ops ∧ s'.graph f false = .build f false ops := by
  obtain ⟨ops, hg, hg'⟩ := h.graphs_eq f
  unfold graph
  rw [hg, hg']
  cases ops with
  | none => exact ⟨[], rfl, rfl⟩
  | some ops => exact ⟨ops, rfl, rfl⟩

/-- Both states perform the same operations on the graph of a function. -/
theorem Twins.updateGraph (h : Twins s s') (f : Nat) (ops : List Operation) :
    Twins (s.updateGraph f true fun g => ops.foldl Operation.apply g)
      (s'.updateGraph f false fun g => ops.foldl Operation.apply g) where
  effects_eq := h.effects_eq
  accesses_eq := h.accesses_eq
  graphs_eq f' := by
    rw [graphs_updateGraph, graphs_updateGraph]
    split_ifs with hf
    · obtain ⟨ops', hg, hg'⟩ := h.graph_eq f
      refine ⟨some (ops' ++ ops), ?_, ?_⟩
      · rw [hg, hf, Option.map_some, Graph.build, Graph.build, List.foldl_append]
      · rw [hg', hf, Option.map_some, Graph.build, Graph.build, List.foldl_append]
    · exact h.graphs_eq f'

theorem Twins.recordEdges (h : Twins s s') (f : Nat) (es : List Edge) :
    Twins (s.updateGraph f true fun g => g.recordEdges es)
      (s'.updateGraph f false fun g => g.recordEdges es) := by
  simp only [Graph.recordEdges_eq_foldl]
  exact h.updateGraph f _

theorem Twins.addNodes (h : Twins s s') (f : Nat) (sites : List Loc) :
    Twins (s.updateGraph f true fun g => sites.foldl (·.addNode ·) g)
      (s'.updateGraph f false fun g => sites.foldl (·.addNode ·) g) := by
  simp only [Graph.foldl_addNode_eq_foldl]
  exact h.updateGraph f _

theorem Twins.dedups (h : Twins s s') (f : Nat) :
    Option.Rel Graph.Dedups s.graphs[f]? s'.graphs[f]? := by
  obtain ⟨ops, hg, hg'⟩ := h.graphs_eq f
  rw [hg, hg']
  cases ops with
  | none => exact .none
  | some ops => exact .some (Graph.dedups_build f ops)

theorem Twins.contains_eq (h : Twins s s') (f : Nat) :
    s.graphs.contains f = s'.graphs.contains f := by
  obtain ⟨ops, hg, hg'⟩ := h.graphs_eq f
  rw [← Std.HashMap.isSome_getElem?_eq_contains, ← Std.HashMap.isSome_getElem?_eq_contains, hg, hg']
  simp

end State

namespace Context

open State

variable {τ : Type} {s s' : State}

/-- The context with another decision about duplicates. -/
def withDedup (C : Context τ) (dedup : Bool) : Context τ :=
  { C with settings := { C.settings with dedup } }

theorem program_withDedup (C : Context τ) (dedup : Bool) :
    (C.withDedup dedup).program = C.program := rfl

theorem resolve_withDedup (C : Context τ) (dedup : Bool) :
    (C.withDedup dedup).resolve = C.resolve := rfl

theorem pointers_withDedup (C : Context τ) (dedup : Bool) :
    (C.withDedup dedup).pointers = C.pointers := rfl

/-! ## Correlation -/

theorem argumentCorrelations_twins (C : Context τ) (callee : Nat) (a b : Loc) (h : Twins s s') :
    ((C.withDedup true).argumentCorrelations callee a b s).1 =
        ((C.withDedup false).argumentCorrelations callee a b s').1 ∧
      Twins ((C.withDedup true).argumentCorrelations callee a b s).2
        ((C.withDedup false).argumentCorrelations callee a b s').2 := by
  -- nothing here reads the decision about duplicates
  change (C.argumentCorrelations callee a b s).1 = (C.argumentCorrelations callee a b s').1 ∧
    Twins (C.argumentCorrelations callee a b s).2 (C.argumentCorrelations callee a b s').2
  unfold argumentCorrelations
  refine List.foldl_rel (r := fun x y : List Edge × State => x.1 = y.1 ∧ Twins x.2 y.2) ⟨rfl, h⟩ ?_
  rintro ⟨⟨param, arg⟩, i⟩ - ⟨es, s₁⟩ ⟨_, s₁'⟩ ⟨rfl, (h₁ : Twins s₁ s₁')⟩
  dsimp only
  rw [h₁.effects_eq]
  split_ifs
  · exact ⟨rfl, h₁.withEffects _⟩
  · exact ⟨rfl, h₁.withEffects _⟩
  · exact ⟨rfl, h₁⟩

theorem globalCorrelations_twins (C : Context τ) (callee : Nat) (a b : Loc) (h : Twins s s') :
    ((C.withDedup true).globalCorrelations callee a b s).1 =
        ((C.withDedup false).globalCorrelations callee a b s').1 ∧
      Twins ((C.withDedup true).globalCorrelations callee a b s).2
        ((C.withDedup false).globalCorrelations callee a b s').2 := by
  dsimp only [globalCorrelations, withDedup, source]
  rw [h.accesses_eq]
  exact ⟨rfl, h.withAccesses _⟩

theorem recordAll_twins (C : Context τ) (f : Nat) (es : List Edge) (h : Twins s s') :
    Twins ((C.withDedup true).recordAll f es s) ((C.withDedup false).recordAll f es s') :=
  h.recordEdges f es

theorem correlateOrdered_twins (C : Context τ) (f : Nat) (a b : Loc) (h : Twins s s') :
    Twins ((C.withDedup true).correlateOrdered f a b s)
      ((C.withDedup false).correlateOrdered f a b s') := by
  unfold correlateOrdered
  simp only [resolve_withDedup]
  cases C.resolve a with
  | none => exact h
  | some callee =>
    obtain ⟨hargs, h₁⟩ := argumentCorrelations_twins C callee a b h
    obtain ⟨hglobals, h₂⟩ := globalCorrelations_twins C callee a b h₁
    dsimp only
    rw [hargs, hglobals]
    exact recordAll_twins C f _ h₂

theorem correlate_twins (C : Context τ) (f : Nat) (a b : Loc) (h : Twins s s') :
    Twins ((C.withDedup true).correlate f a b s) ((C.withDedup false).correlate f a b s') :=
  correlateOrdered_twins C f b a (correlateOrdered_twins C f a b h)

/-! ## Conflicts -/

theorem aliasConflicts_twins (C : Context τ) (A : Memory.PointerAnalysis) (f : Nat) (a b : Loc)
    (h : Twins s s') :
    Twins ((C.withDedup true).aliasConflicts A f a b s)
      ((C.withDedup false).aliasConflicts A f a b s') := by
  unfold aliasConflicts
  refine List.foldl_rel (r := Twins) (h.updateGraph f []) ?_
  rintro ⟨na, nb⟩ - s₁ s₁' h₁
  dsimp only
  rw [h₁.effects_eq]
  simp only [← Graph.recordEdges_toList]
  exact (h₁.withEffects _).recordEdges f _

theorem globalConflicts_twins (C : Context τ) (f : Nat) (a b : Loc) (h : Twins s s') :
    Twins ((C.withDedup true).globalConflicts f a b s)
      ((C.withDedup false).globalConflicts f a b s') := by
  unfold globalConflicts
  rw [h.accesses_eq]
  simp only [resolve_withDedup]
  split
  · exact recordAll_twins C f _ (h.withAccesses _)
  · exact h

theorem dominance_twins (C : Context τ) (f : Nat) (a b : Loc) (h : Twins s s') :
    Agree Twins ((C.withDedup true).dominance f a b s)
      ((C.withDedup false).dominance f a b s') := by
  unfold dominance
  rw [h.contains_eq f, program_withDedup, program_withDedup]
  split_ifs
  · exact .ok h
  · exact .ok (recordAll_twins C f _ h)
  · exact .error _

/-! ## The analysis -/

theorem analyzePair_twins (C : Context τ) (analyzer : Analyzer) (f : Nat) (a b : Option Loc)
    (h : Twins s s') :
    Agree Twins ((C.withDedup true).analyzePair analyzer f a b s)
      ((C.withDedup false).analyzePair analyzer f a b s') := by
  unfold analyzePair
  cases checkPair f a b with
  | error e => exact .error e
  | ok pair =>
    obtain ⟨a, b⟩ := pair
    cases analyzer with
    | correlation => exact .ok (correlate_twins C f a b h)
    | pointerAlias =>
      simp only [pointers_withDedup]
      cases C.pointers with
      | none => exact .ok h
      | some A => exact .ok (aliasConflicts_twins C A f a b h)
    | globals => exact .ok (globalConflicts_twins C f a b h)
    | dominator => exact dominance_twins C f a b h

theorem buildGraph_twins (C : Context τ) (f : Nat) (h : Twins s s') :
    Agree Twins ((C.withDedup true).buildGraph s f) ((C.withDedup false).buildGraph s' f) := by
  refine Agree.foldlM (fun pair _ s₁ s₁' h₁ => ?_) (h.addNodes f (C.candidates f))
  exact Agree.foldlM (fun analyzer _ _ _ h₂ => analyzePair_twins C analyzer f _ _ h₂) h₁

theorem collectNodeSets_twins [Quantity τ] (C : Context τ) (tree : CallTree) (h : Twins s s') :
    Twins ((C.withDedup true).collectNodeSets tree s).2
      ((C.withDedup false).collectNodeSets tree s').2 :=
  List.foldl_rel (r := Twins) h fun f _ _ _ h₁ => h₁.updateGraph f []

/-- **An analysis performs the same operations with and without duplicates**, in the graphs of the
    same call tree. -/
theorem analyze_twins [Quantity τ] (C : Context τ) (root : Option Nat) (h : Twins s s') :
    Agree (fun x y => x.1.callTree = y.1.callTree ∧ Twins x.2 y.2)
      ((C.withDedup true).analyze root s) ((C.withDedup false).analyze root s') := by
  unfold analyze
  refine Agree.bind (r := Eq) ?_ ?_
  · change Agree Eq ((C.checkRoot root).mapError _) ((C.checkRoot root).mapError _)
    cases (C.checkRoot root).mapError AnalysisError.root with
    | error e => exact .error e
    | ok f => exact .ok rfl
  · rintro f _ rfl
    have hgraphs : Agree Twins ((C.withDedup true).buildGraphs (C.callTree f) s)
        ((C.withDedup false).buildGraphs (C.callTree f) s') :=
      Agree.foldlM (fun f _ _ _ h₁ => buildGraph_twins C f h₁) h
    refine (hgraphs.mapError AnalysisError.pair).bind fun s₁ s₁' h₁ => ?_
    exact .ok ⟨rfl, collectNodeSets_twins C (C.callTree f) h₁⟩

/-! ## Duplicates -/

/-- **A graph that keeps no duplicates is the one that keeps them without the edges that repeat an
    earlier one**, after any operations. Recording a dependence gives back its edge, unless the
    graph keeps no duplicates and the edge is a repetition. The graphs of an analysis are related in
    this way as well. -/
theorem dedup_erases_repeats [Quantity τ] :
    (∀ (f : Nat) (ops : List Operation), ∃ g g',
      Graph.run (.empty f true) ops = .ok g ∧ Graph.run (.empty f false) ops = .ok g' ∧
      g.Dedups g' ∧ ∀ a b kind own foreign,
        let e : Edge := ⟨kind.withoutIncoming, a, b, own, foreign⟩
        (g'.requireDependence (some a) (some b) kind own foreign).2 = .ok (some e) ∧
        (g.requireDependence (some a) (some b) kind own foreign).2 =
          .ok (if e ∈ g'.edges.toList then none else some e)) ∧
    ∀ (C : Context τ) (root : Option Nat),
      Agree (fun x y : Result τ × State => x.1.callTree = y.1.callTree ∧
          ∀ f : Nat, Option.Rel Graph.Dedups x.2.graphs[f]? y.2.graphs[f]?)
        ((C.withDedup true).analyze root .fresh) ((C.withDedup false).analyze root .fresh) := by
  refine ⟨fun f ops => ⟨_, _, Graph.run_eq f true ops, Graph.run_eq f false ops,
    Graph.dedups_build f ops, fun a b kind own foreign => ?_⟩, fun C root => ?_⟩
  · have hedges := (Graph.dedups_build f ops).edges_eq
    rw [Graph.requireDependence_snd, Graph.requireDependence_snd,
      (Graph.holds_build f true ops).dedup_eq, (Graph.holds_build f false ops).dedup_eq, hedges]
    simp
  · exact (analyze_twins C root twins_fresh).imp fun x y h => ⟨h.1, h.2.dedups⟩

end Context

end Overlap
