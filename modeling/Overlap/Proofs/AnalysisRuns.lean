/-
  Analyses on any state, one after the other.

  A state can be analysed from several roots, and again from the same one.  Its
  graphs are changed only by adding nodes and by recording dependences between
  two different call sites.

  * `Graph.Invariant`: a property of graphs that such changes keep up;
  * `buildGraph_keeps`, `buildGraphs_keeps` and `analyze_keeps`: an analysis from
    a function with a body succeeds on every state, and keeps up the property;
  * `analyses`: the state after analyses from some roots; its graphs have every
    property of the kind (`all_analyses`).
-/
import Overlap.Proofs.Analyze

namespace Overlap

open Ssa Dependence

/-- A property of graphs that analyses keep up: it holds of the empty graphs of a state, and stays
    if a node is added or a dependence between two different call sites recorded. -/
structure Dependence.Graph.Invariant (dedup : Bool) (motive : Graph → Prop) : Prop where
  empty : ∀ f, motive (.empty f dedup)
  addNode : ∀ g a, motive g → motive (g.addNode a)
  record : ∀ g (e : Edge), e.source ≠ e.target → motive g → motive (g.recordEdge? (some e))

/-! ## The graphs of a state -/

namespace State

variable {motive : Dependence.Graph → Prop} {dedup : Bool} {f : Nat} {s s' : State}

/-- All graphs of a state have a property. -/
def All (motive : Dependence.Graph → Prop) (s : State) : Prop :=
  ∀ (f : Nat) g, s.graphs[f]? = some g → motive g

theorem all_fresh (motive : Dependence.Graph → Prop) : fresh.All motive := by
  intro f g hg
  simp [fresh] at hg

theorem All.graph (hs : s.All motive) (hempty : motive (.empty f dedup)) :
    motive (s.graph f dedup) := by
  unfold State.graph
  cases hg : s.graphs[f]? with
  | none => exact hempty
  | some g => exact hs f g hg

theorem All.updateGraph (hs : s.All motive) {change : Dependence.Graph → Dependence.Graph}
    (hchange : motive (change (s.graph f dedup))) : (s.updateGraph f dedup change).All motive := by
  intro h g hg
  rw [graphs_updateGraph] at hg
  split_ifs at hg
  · cases hg
    exact hchange
  · exact hs h g hg

/-- Recording dependences between two different call sites keeps up what analyses keep up. -/
theorem All.records (hs : s.All motive) (hmotive : Graph.Invariant dedup motive) {a b : Loc}
    (hab : a ≠ b) (hsome : (s.graphs[f]?).isSome) (h : Records f a b s s') : s'.All motive := by
  intro f' g hg
  by_cases hf : f' = f
  · subst hf
    obtain ⟨g₀, hg₀⟩ := Option.isSome_iff_exists.1 hsome
    obtain ⟨es, hes, hown⟩ := h.own g₀ hg₀
    obtain rfl := Option.some.inj (hown.symm.trans hg)
    refine List.foldlRecOn es _ (motive := motive) (hs f' g₀ hg₀) fun g' hg' e he => ?_
    refine hmotive.record g' e ?_ hg'
    rcases Edge.ends_eq_pair_iff.1 (hes e he) with ⟨hsource, htarget⟩ | ⟨hsource, htarget⟩
    · rwa [hsource, htarget]
    · rw [hsource, htarget]
      exact hab.symm
  · rw [h.others f' hf] at hg
    exact hs f' g hg

end State

/-! ## Analyses -/

namespace Context

variable {τ : Type} {C : Context τ} {motive : Dependence.Graph → Prop} {f : Nat} {s s' : State}

section
variable (hmotive : Graph.Invariant C.settings.dedup motive)
include hmotive

/-- **The graph of a function can be built on any state.** -/
theorem buildGraph_keeps (f : Nat) (hs : s.All motive) :
    ∃ s', C.buildGraph s f = .ok s' ∧ (s'.graphs[f]?).isSome ∧ s'.All motive := by
  unfold buildGraph
  refine foldlM_ok (motive := fun s : State => (s.graphs[f]?).isSome ∧ s.All motive) ?_ ⟨?_, ?_⟩
  · rintro s₁ ⟨hsome, hs₁⟩ ⟨a, b⟩ hp
    obtain ⟨ha, hb⟩ := mem_of_mem_orderedPairs hp
    have hab : a ≠ b := ne_of_mem_orderedPairs (nodup_candidates C f) hp
    obtain ⟨s₂, h₂, hrecords⟩ := analyzeSites_records C (func_of_mem_candidates ha)
      (func_of_mem_candidates hb) hsome
    exact ⟨s₂, h₂, hrecords.isSome hsome, hs₁.records hmotive hab hsome hrecords⟩
  · simp [State.graphs_updateGraph]
  · refine hs.updateGraph ?_
    exact List.foldlRecOn _ _ (motive := motive) (hs.graph (hmotive.empty f))
      fun g hg a _ => hmotive.addNode g a hg

theorem buildGraphs_keeps (fs : List Nat) (hs : s.All motive) :
    ∃ s', fs.foldlM C.buildGraph s = .ok s' ∧ s'.All motive := by
  refine foldlM_ok (fun s₁ hs₁ f _ => ?_) hs
  obtain ⟨s₂, h₂, -, hs₂⟩ := buildGraph_keeps hmotive f hs₁
  exact ⟨s₂, h₂, hs₂⟩

variable [Quantity τ]

theorem collectNodeSets_keeps (tree : CallTree) (hs : s.All motive) :
    (C.collectNodeSets tree s).2.All motive :=
  List.foldlRecOn tree.functions _ (motive := State.All motive) hs fun _ hs₁ f _ =>
    hs₁.updateGraph (hs₁.graph (hmotive.empty f))

/-- **An analysis from a function with a body succeeds on every state.** -/
theorem analyze_keeps (hf : C.program.hasBody f) (hs : s.All motive) :
    ∃ r s', C.analyze (some f) s = .ok (r, s') ∧ s'.All motive := by
  obtain ⟨s₁, h₁, hs₁⟩ := buildGraphs_keeps hmotive (C.callTree f).functions hs
  exact ⟨_, _, analyze_eq hf h₁, collectNodeSets_keeps hmotive _ hs₁⟩

theorem all_of_analyze {root : Option Nat} {r : Result τ} (h : C.analyze root s = .ok (r, s'))
    (hs : s.All motive) : s'.All motive := by
  obtain ⟨f, s₁, rfl, hf, -⟩ := analyze_cases h
  obtain ⟨r', s'', h', hs''⟩ := analyze_keeps hmotive hf hs
  cases h.symm.trans h'
  exact hs''

end

variable [Quantity τ]

/-- The state after analyses from some roots, one after the other. One that fails leaves the state
    as it is. -/
def analyses (C : Context τ) (s : State) (roots : List (Option Nat)) : State :=
  roots.foldl (fun s root =>
    match C.analyze root s with
    | .ok (_, s') => s'
    | .error _ => s) s

/-- **The graphs that any analyses leave behind** have every property that analyses keep up. -/
theorem all_analyses (hmotive : Graph.Invariant C.settings.dedup motive) (hs : s.All motive)
    (roots : List (Option Nat)) : (C.analyses s roots).All motive := by
  refine List.foldlRecOn roots _ (motive := State.All motive) hs fun s₁ hs₁ root _ => ?_
  cases h : C.analyze root s₁ with
  | error e => exact hs₁
  | ok result => exact all_of_analyze hmotive h hs₁

end Context

end Overlap
