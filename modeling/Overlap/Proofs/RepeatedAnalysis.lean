/-
  Analysing again.

  An analysis asks questions and records what follows from the answers.  Both
  only add to a state: the tables of answers get new entries, and the graphs new
  nodes and edges (`State.Grows`).  If graphs keep no duplicates, doing the same
  a second time changes nothing, even if other analyses came in between.

  * `Operation.Done`: an operation that has been done in a graph; it changes
    neither this graph nor a larger one (`foldl_apply_again`);
  * `State.Steady`: a question whose answer stays, whatever is added to the
    tables;
  * `State.Settles`: a step that only adds to a state, and leaves every larger
    state as it is.  Asking questions and recording the answers is such a step
    (`Steady.settles`), and so are steps one after the other (`Settles.comp`,
    `Settles.foldlM`), all analyses of a pair of call sites, and the building of
    graphs (`buildGraphs_settles`);
  * `analyze_again`: an analysis that is repeated on the state that it left
    behind gives the same result, and adds nothing to that state.
-/
import Overlap.Proofs.AnalysisRuns
import Overlap.Proofs.Conflicts
import Overlap.Proofs.Deduplication

namespace Overlap

open Ssa Dependence

/-! ## Operations that have been done -/

namespace Dependence

namespace Graph

/-- `g'` has the nodes and the edges of `g`, and the same decision about duplicates. -/
structure Within (g g' : Graph) : Prop where
  dedup_eq : g'.dedup = g.dedup
  sites_subset : g.sites ⊆ g'.sites
  edges_subset : ∀ e ∈ g.edges, e ∈ g'.edges

theorem Within.refl (g : Graph) : Within g g := ⟨rfl, List.Subset.refl _, fun _ he => he⟩

theorem Within.trans {g g' g'' : Graph} (h : Within g g') (h' : Within g' g'') : Within g g'' :=
  ⟨h'.dedup_eq.trans h.dedup_eq, List.Subset.trans h.sites_subset h'.sites_subset,
    fun e he => h'.edges_subset e (h.edges_subset e he)⟩

theorem within_addNode (g : Graph) (a : Loc) : Within g (g.addNode a) :=
  ⟨dedup_addNode g a, fun _ hb => mem_sites_addNode_iff.2 (.inl hb), by simp⟩

theorem within_record (g : Graph) (a b : Loc) (kind : Kinds) (own foreign : String) :
    Within g (g.record a b kind own foreign) := by
  refine ⟨dedup_record .., ?_, fun e he => mem_edges_record_of_mem he⟩
  rw [sites_record_eq]
  exact ((within_addNode g a).trans (within_addNode _ b)).sites_subset

end Graph

namespace Operation

variable {g g' : Graph} {op : Operation} {ops : List Operation}

theorem within_apply (g : Graph) (op : Operation) : g.Within (op.apply g) := by
  cases op with
  | node site create =>
    cases create with
    | true => exact Graph.within_addNode g site
    | false => exact .refl g
  | dependence a b kind own foreign => exact Graph.within_record g a b kind own foreign

theorem within_foldl_apply (g : Graph) (ops : List Operation) : g.Within (ops.foldl apply g) :=
  List.foldlRecOn ops _ (motive := g.Within) (.refl g) fun g₁ h op _ => h.trans (within_apply g₁ op)

/-- The graph has the nodes and the edge of an operation. -/
structure Done (op : Operation) (g : Graph) : Prop where
  sites_subset : op.sites ⊆ g.sites
  edge_mem : ∀ e ∈ op.edge?, e ∈ g.edges

theorem done_apply (g : Graph) (op : Operation) : op.Done (op.apply g) := by
  cases op with
  | node site create =>
    cases create with
    | true => exact ⟨by simp [sites, apply, Graph.mem_sites_addNode_iff], by simp [edge?]⟩
    | false => exact ⟨by simp [sites], by simp [edge?]⟩
  | dependence a b kind own foreign =>
    refine ⟨?_, ?_⟩
    · simp [sites, apply, Graph.sites_record_eq, Graph.mem_sites_addNode_iff]
    · rintro e ⟨⟩
      exact Graph.mem_edges_record_self g a b kind own foreign

theorem Done.mono (h : op.Done g) (hg : g.Within g') : op.Done g' :=
  ⟨List.Subset.trans h.sites_subset hg.sites_subset,
    fun e he => hg.edges_subset e (h.edge_mem e he)⟩

/-- Without duplicates, nothing is done twice. -/
theorem Done.apply_eq (h : op.Done g) (hg : g.dedup = true) : op.apply g = g := by
  cases op with
  | node site create =>
    cases create with
    | true => exact Graph.addNode_of_mem (h.sites_subset (by simp [sites]))
    | false => rfl
  | dependence a b kind own foreign =>
    have ha : a ∈ g.sites := h.sites_subset (by simp [sites])
    have hb : b ∈ g.sites := h.sites_subset (by simp [sites])
    have he : ⟨kind.withoutIncoming, a, b, own, foreign⟩ ∈ g.edges := h.edge_mem _ rfl
    simp [apply, Graph.record, Graph.addDependence, Graph.addNode_of_mem ha,
      Graph.addNode_of_mem hb, hg, he]

theorem done_foldl_apply (hop : op ∈ ops) (g : Graph) : op.Done (ops.foldl apply g) := by
  obtain ⟨before, after, rfl⟩ := List.append_of_mem hop
  rw [List.foldl_append, List.foldl_cons]
  exact (done_apply _ op).mono (within_foldl_apply _ after)

/-- **Operations that have been done change nothing**, if the graph keeps no duplicates, and
    whatever has been added to it. -/
theorem foldl_apply_again (hg : g.dedup = true) (h : (ops.foldl apply g).Within g') :
    ops.foldl apply g' = g' := by
  have hdedup : g'.dedup = true := (h.dedup_eq.trans (within_foldl_apply g ops).dedup_eq).trans hg
  refine List.foldlRecOn ops _ (motive := (· = g')) rfl ?_
  rintro _ rfl op hop
  exact ((done_foldl_apply hop g).mono h).apply_eq hdedup

end Operation

end Dependence

/-! ## States that grow -/

namespace State

variable {s s' s'' : State} {dedup : Bool}

/-- `s'` has all that `s` has. -/
structure Grows (s s' : State) : Prop where
  effects : Extends s.effects s'.effects
  accesses : Extends s.accesses s'.accesses
  graphs : ∀ (f : Nat) g, s.graphs[f]? = some g → ∃ g', s'.graphs[f]? = some g' ∧ g.Within g'

theorem Grows.of_graphs_eq (heffects : Extends s.effects s'.effects)
    (haccesses : Extends s.accesses s'.accesses)
    (hgraphs : ∀ f : Nat, s'.graphs[f]? = s.graphs[f]?) : Grows s s' :=
  ⟨heffects, haccesses, fun f g hg => ⟨g, (hgraphs f).trans hg, .refl g⟩⟩

theorem Grows.refl (s : State) : Grows s s := .of_graphs_eq (.refl _) (.refl _) fun _ => rfl

theorem Grows.trans (h : Grows s s') (h' : Grows s' s'') : Grows s s'' := by
  refine ⟨h.effects.trans h'.effects, h.accesses.trans h'.accesses, fun f g hg => ?_⟩
  obtain ⟨g', hg', hwithin⟩ := h.graphs f g hg
  obtain ⟨g'', hg'', hwithin'⟩ := h'.graphs f g' hg'
  exact ⟨g'', hg'', hwithin.trans hwithin'⟩

/-- Two states with the same tables and the same graphs. -/
structure Same (s s' : State) : Prop where
  effects_eq : s'.effects = s.effects
  accesses_eq : s'.accesses = s.accesses
  graphs_eq : ∀ f : Nat, s'.graphs[f]? = s.graphs[f]?

theorem Same.refl (s : State) : Same s s := ⟨rfl, rfl, fun _ => rfl⟩

theorem Same.trans (h : Same s s') (h' : Same s' s'') : Same s s'' :=
  ⟨h'.effects_eq.trans h.effects_eq, h'.accesses_eq.trans h.accesses_eq,
    fun f => (h'.graphs_eq f).trans (h.graphs_eq f)⟩

theorem Same.grows (h : Same s s') : Grows s s' :=
  .of_graphs_eq (h.effects_eq ▸ .refl _) (h.accesses_eq ▸ .refl _) h.graphs_eq

theorem Same.graph_eq (h : Same s s') (f : Nat) (dedup : Bool) :
    s'.graph f dedup = s.graph f dedup := by
  rw [graph, graph, h.graphs_eq]

theorem grows_updateGraph (s : State) (f : Nat) (dedup : Bool) (ops : List Operation) :
    Grows s (s.updateGraph f dedup fun g => ops.foldl Operation.apply g) := by
  refine ⟨.refl _, .refl _, fun h g hg => ?_⟩
  rw [graphs_updateGraph]
  split_ifs with hh
  · subst hh
    refine ⟨_, rfl, ?_⟩
    rw [graph, hg]
    exact Operation.within_foldl_apply g ops
  · exact ⟨g, hg, .refl g⟩

/-! ## Questions -/

/-- A question to the tables of a state. It adds to the tables, and every state whose tables have
    these entries gives the same answer and stays as it is. -/
structure Steady {β : Type} (ask : State → β × State) : Prop where
  graphs_eq : ∀ s, (ask s).2.graphs = s.graphs
  effects : ∀ s, Extends s.effects (ask s).2.effects
  accesses : ∀ s, Extends s.accesses (ask s).2.accesses
  again : ∀ s t, Extends (ask s).2.effects t.effects → Extends (ask s).2.accesses t.accesses →
    ask t = ((ask s).1, t)

section
variable {β γ : Type}

theorem steady_pure (x : β) : Steady fun s => (x, s) :=
  ⟨fun _ => rfl, fun _ => .refl _, fun _ => .refl _, fun _ _ _ _ => rfl⟩

theorem Steady.bind {ask : State → β × State} {next : β → State → γ × State} (h : Steady ask)
    (hnext : ∀ x, Steady (next x)) : Steady fun s => next (ask s).1 (ask s).2 where
  graphs_eq s := ((hnext _).graphs_eq _).trans (h.graphs_eq s)
  effects s := (h.effects s).trans ((hnext _).effects _)
  accesses s := (h.accesses s).trans ((hnext _).accesses _)
  again s t heffects haccesses := by
    have hfirst := h.again s t (((hnext _).effects _).trans heffects)
      (((hnext _).accesses _).trans haccesses)
    simp only [hfirst]
    exact (hnext _).again _ t heffects haccesses

theorem Steady.map {ask : State → β × State} (h : Steady ask) (k : β → γ) :
    Steady fun s => (k (ask s).1, (ask s).2) := h.bind fun x => steady_pure (k x)

/-- Two questions, one after the other. -/
theorem Steady.pair {ask : State → β × State} {ask' : State → γ × State} (h : Steady ask)
    (h' : Steady ask') : Steady fun s => (((ask s).1, (ask' (ask s).2).1), (ask' (ask s).2).2) :=
  h.bind fun x => h'.map (x, ·)

theorem Steady.foldl {step : β × State → γ → β × State}
    (hstep : ∀ x y, Steady fun s => step (x, s) y) (x : β) (ys : List γ) :
    Steady fun s => ys.foldl step (x, s) := by
  induction ys generalizing x with
  | nil => exact steady_pure x
  | cons y ys ih => exact (hstep x y).bind fun x' => ih x'

theorem steady_effects {answer : EffectMemo → β × EffectMemo}
    (hextends : ∀ memo, Extends memo (answer memo).2)
    (hagain : ∀ memo memo', Extends (answer memo).2 memo' →
      answer memo' = ((answer memo).1, memo')) :
    Steady fun s => ((answer s.effects).1, { s with effects := (answer s.effects).2 }) where
  graphs_eq _ := rfl
  effects s := hextends s.effects
  accesses _ := .refl _
  again s t heffects _ := by simp only [hagain s.effects t.effects heffects]

theorem steady_accesses {answer : Effect.Source.AccessMemo → β × Effect.Source.AccessMemo}
    (hextends : ∀ memo, Extends memo (answer memo).2)
    (hagain : ∀ memo memo', Extends (answer memo).2 memo' →
      answer memo' = ((answer memo).1, memo')) :
    Steady fun s => ((answer s.accesses).1, { s with accesses := (answer s.accesses).2 }) where
  graphs_eq _ := rfl
  effects _ := .refl _
  accesses s := hextends s.accesses
  again s t _ haccesses := by simp only [hagain s.accesses t.accesses haccesses]

end

/-! ## Steps -/

/-- A step that only adds to a state without duplicates, and changes no state that has what it left
    behind. -/
def Settles {ε : Type} (step : State → Except ε State) : Prop :=
  ∀ s s', s.All (·.dedup = true) → step s = .ok s' →
    Grows s s' ∧ s'.All (·.dedup = true) ∧ ∀ t, Grows s' t → ∃ t', step t = .ok t' ∧ Same t t'

section
variable {ε γ : Type}

theorem settles_ok : Settles (Except.ok : State → Except ε State) := by
  rintro s _ hs ⟨⟩
  exact ⟨.refl s, hs, fun t _ => ⟨t, rfl, .refl t⟩⟩

theorem Settles.comp {step next : State → Except ε State} (h : Settles step) (h' : Settles next) :
    Settles fun s => step s >>= next := by
  intro s s₂ hs hs₂
  dsimp only at hs₂
  cases hs₁ : step s with
  | error e =>
    rw [hs₁] at hs₂
    cases hs₂
  | ok s₁ =>
    rw [hs₁] at hs₂
    obtain ⟨hgrows, hall, hagain⟩ := h s s₁ hs hs₁
    obtain ⟨hgrows', hall', hagain'⟩ := h' s₁ s₂ hall hs₂
    refine ⟨hgrows.trans hgrows', hall', fun t ht => ?_⟩
    obtain ⟨t₁, ht₁, hsame⟩ := hagain t (hgrows'.trans ht)
    obtain ⟨t₂, ht₂, hsame'⟩ := hagain' t₁ (ht.trans hsame.grows)
    refine ⟨t₂, ?_, hsame.trans hsame'⟩
    dsimp only
    rw [ht₁]
    exact ht₂

theorem Settles.foldlM {step : State → γ → Except ε State} {xs : List γ}
    (hstep : ∀ x ∈ xs, Settles fun s => step s x) : Settles fun s => xs.foldlM step s := by
  induction xs with
  | nil => exact settles_ok
  | cons x xs ih =>
    simp only [List.foldlM_cons]
    exact (hstep x (List.mem_cons_self ..)).comp
      (ih fun y hy => hstep y (List.mem_cons_of_mem _ hy))

theorem Settles.foldl {step : State → γ → State} {xs : List γ}
    (hstep : ∀ x ∈ xs, Settles (ε := ε) fun s => .ok (step s x)) :
    Settles (ε := ε) fun s => .ok (xs.foldl step s) := by
  induction xs with
  | nil => exact settles_ok
  | cons x xs ih =>
    exact (hstep x (List.mem_cons_self ..)).comp
      (ih fun y hy => hstep y (List.mem_cons_of_mem _ hy))

/-- **Recording what follows from answers settles.** -/
theorem Steady.settles {ask : State → γ × State} (hask : Steady ask) (hdedup : dedup = true)
    (f : Nat) (ops : γ → List Operation) :
    Settles (ε := ε) fun s => .ok ((ask s).2.updateGraph f dedup fun g =>
      (ops (ask s).1).foldl Operation.apply g) := by
  rintro s _ hs ⟨⟩
  have hask_grows : Grows s (ask s).2 :=
    .of_graphs_eq (hask.effects s) (hask.accesses s) fun f => by rw [hask.graphs_eq]
  have hall : (ask s).2.All (·.dedup = true) := by
    intro f g hg
    rw [hask.graphs_eq] at hg
    exact hs f g hg
  have hown : ((ask s).2.graph f dedup).dedup = true := hall.graph hdedup
  refine ⟨hask_grows.trans (grows_updateGraph _ f dedup _), hall.updateGraph ?_, fun t ht => ?_⟩
  · exact (Operation.within_foldl_apply _ _).dedup_eq.trans hown
  · obtain ⟨g, hg, hwithin⟩ := ht.graphs f _ ((graphs_updateGraph ..).trans (if_pos rfl))
    refine ⟨_, rfl, ?_⟩
    rw [hask.again s t ht.effects ht.accesses]
    refine ⟨rfl, rfl, fun h => ?_⟩
    rw [graphs_updateGraph]
    split_ifs with hh
    · rw [hh, hg, graph, hg, Option.getD_some, Operation.foldl_apply_again hown hwithin]
    · rfl

end

end State

open State

namespace Context

variable {τ ε : Type} {C : Context τ}

/-! ## Questions of the analyses -/

theorem argumentEffect_steady (C : Context τ) (f : Option Nat) (i : Int) : Steady fun s =>
    ((C.source.argumentEffect f i s.effects).1,
      { s with effects := (C.source.argumentEffect f i s.effects).2 }) :=
  steady_effects (Effect.Source.reply_extends C.source (.argument f i))
    fun _ _ h => Effect.Source.reply_of_extends (Q := .argument f i) h

theorem globalAccesses_steady (C : Context τ) (f : Nat) : Steady fun s =>
    ((C.source.globalAccesses f s.accesses).1,
      { s with accesses := (C.source.globalAccesses f s.accesses).2 }) :=
  steady_accesses (Effect.Source.globalAccesses_extends C.source f)
    fun _ _ h => Effect.Source.globalAccesses_of_extends h

theorem effectOnNode_steady (C : Context τ) (A : Memory.PointerAnalysis) (site : Loc) (n : A.Node) :
    Steady fun s => ((C.effectOnNode A site n s.effects).1,
      { s with effects := (C.effectOnNode A site n s.effects).2 }) :=
  steady_effects (effectOnNode_extends C A site n) fun _ _ h => effectOnNode_of_extends h

theorem argumentCorrelations_steady (C : Context τ) (callee : Nat) (a b : Loc) :
    Steady (C.argumentCorrelations callee a b) := by
  refine Steady.foldl ?_ [] _
  rintro es ⟨⟨param, arg⟩, i⟩
  dsimp only
  split_ifs
  · have hsplit : ∀ (e : Effect) (s : State),
        (if e.mod && DefUse.reaches C.program b arg false then
          (es ++ [⟨.control, a, b, C.program.displayName arg, ""⟩], s) else (es, s)) =
        (if e.mod && DefUse.reaches C.program b arg false then
          es ++ [⟨.control, a, b, C.program.displayName arg, ""⟩] else es, s) := by
      intro e s
      split_ifs <;> rfl
    simp only [hsplit]
    exact (argumentEffect_steady C (some callee) i).map fun e =>
      if e.mod && DefUse.reaches C.program b arg false then
        es ++ [⟨.control, a, b, C.program.displayName arg, ""⟩] else es
  · exact steady_pure es

theorem globalCorrelations_steady (C : Context τ) (callee : Nat) (a b : Loc) :
    Steady (C.globalCorrelations callee a b) :=
  (globalAccesses_steady C callee).map fun accesses =>
    (sortedGlobals C.program accesses).filterMap fun g =>
      if accesses.get g = .change && DefUse.reaches C.program b (.global g) false then
        some (⟨.control, a, b, C.program.valueName (.global g), ""⟩ : Edge)
      else none

/-! ## Analyses of a pair of call sites -/

section
variable (hdedup : C.settings.dedup = true)
include hdedup

/-- Recording edges that follow from answers. -/
theorem recordEdges_settles {β : Type} {ask : State → β × State} (hask : Steady ask) (f : Nat)
    (edges : β → List Edge) :
    Settles (ε := ε) fun s => .ok ((ask s).2.updateGraph f C.settings.dedup fun g =>
      g.recordEdges (edges (ask s).1)) := by
  simp only [Graph.recordEdges_eq_foldl]
  exact hask.settles hdedup f fun x => (edges x).map Edge.operation

theorem correlateOrdered_settles (f : Nat) (a b : Loc) :
    Settles (ε := ε) fun s => .ok (C.correlateOrdered f a b s) := by
  unfold correlateOrdered
  cases C.resolve a with
  | none => exact settles_ok
  | some callee =>
    have hask := (argumentCorrelations_steady C callee a b).pair
      (globalCorrelations_steady C callee a b)
    exact recordEdges_settles hdedup hask f fun answers =>
      answers.1 ++ answers.2 ++ C.resultCorrelation a b

theorem correlate_settles (f : Nat) (a b : Loc) :
    Settles (ε := ε) fun s => .ok (C.correlate f a b s) :=
  (correlateOrdered_settles hdedup f a b).comp (correlateOrdered_settles hdedup f b a)

theorem aliasStep_settles (A : Memory.PointerAnalysis) (f : Nat) (a b : Loc)
    (p : (A.Node × String) × (A.Node × String)) :
    Settles (ε := ε) fun s => .ok (C.aliasStep A f a b s p) := by
  have hask := (effectOnNode_steady C A a p.1.1).pair (effectOnNode_steady C A b p.2.1)
  unfold aliasStep
  simp only [← Graph.recordEdges_toList]
  exact recordEdges_settles hdedup hask f fun effects =>
    (conflict? C.program a b effects.1 effects.2 p.1.2 p.2.2).toList

theorem aliasConflicts_settles (A : Memory.PointerAnalysis) (f : Nat) (a b : Loc) :
    Settles (ε := ε) fun s => .ok (C.aliasConflicts A f a b s) := by
  simp only [aliasConflicts_eq]
  exact (recordEdges_settles hdedup (steady_pure ()) f fun _ => []).comp
    (Settles.foldl fun p _ => aliasStep_settles hdedup A f a b p)

theorem globalConflicts_settles (f : Nat) (a b : Loc) :
    Settles (ε := ε) fun s => .ok (C.globalConflicts f a b s) := by
  unfold globalConflicts
  split
  · rename_i calleeA calleeB _ _
    have hask := (globalAccesses_steady C calleeA).pair (globalAccesses_steady C calleeB)
    exact recordEdges_settles hdedup hask f fun accesses =>
      (sortedGlobals C.program accesses.1).filterMap fun g =>
        let name := "G:" ++ C.program.valueName (.global g)
        conflict? C.program a b (accessEffect (accesses.1.get g)) (accessEffect (accesses.2.get g))
          name name
  · exact settles_ok

theorem dominance_settles (f : Nat) (a b : Loc) : Settles (C.dominance f a b) := by
  have hrecord : Settles (ε := PairError) fun s =>
      if C.program.locDominates a b || C.program.locDominates b a then .ok s
      else .ok (C.recordAll f [⟨.noDominate, a, b, "", ""⟩] s) := by
    split_ifs
    · exact settles_ok
    · exact recordEdges_settles hdedup (steady_pure ()) f
        fun _ => [⟨.noDominate, a, b, "", ""⟩]
  have hstep : ∀ t : State, t.graphs.contains f → C.dominance f a b t = _ := fun t ht => if_pos ht
  intro s s' hs h
  have hf : s.graphs.contains f := by
    by_contra hf
    simp [dominance, hf] at h
  rw [hstep s hf] at h
  obtain ⟨hgrows, hall, hagain⟩ := hrecord s s' hs h
  refine ⟨hgrows, hall, fun t ht => ?_⟩
  have htf : t.graphs.contains f := by
    -- a graph that is needed stays
    rw [Std.HashMap.contains_eq_isSome_getElem?, Option.isSome_iff_exists] at hf ⊢
    obtain ⟨g, hg⟩ := hf
    obtain ⟨g', hg', -⟩ := (hgrows.trans ht).graphs f g hg
    exact ⟨g', hg'⟩
  rw [hstep t htf]
  exact hagain t ht

theorem analyzePair_settles (analyzer : Analyzer) (f : Nat) (a b : Option Loc) :
    Settles (C.analyzePair analyzer f a b) := by
  unfold analyzePair
  cases checkPair f a b with
  | error e =>
    intro s s' _ h
    cases h
  | ok pair =>
    obtain ⟨a, b⟩ := pair
    cases analyzer with
    | correlation => exact correlate_settles hdedup f a b
    | pointerAlias =>
      cases C.pointers with
      | none => exact settles_ok
      | some A => exact aliasConflicts_settles hdedup A f a b
    | globals => exact globalConflicts_settles hdedup f a b
    | dominator => exact dominance_settles hdedup f a b

/-! ## Analyses of a program -/

theorem buildGraph_settles (f : Nat) : Settles fun s => C.buildGraph s f := by
  have hnodes : Settles (ε := PairError) fun s => .ok (s.updateGraph f C.settings.dedup fun g =>
      (C.candidates f).foldl (·.addNode ·) g) := by
    simp only [Graph.foldl_addNode_eq_foldl]
    exact (steady_pure ()).settles hdedup f fun _ => (C.candidates f).map (Operation.node · true)
  exact hnodes.comp (Settles.foldlM fun pair _ => Settles.foldlM fun analyzer _ =>
    analyzePair_settles hdedup analyzer f (some pair.1) (some pair.2))

/-- **Building graphs settles.** -/
theorem buildGraphs_settles (tree : CallTree) : Settles (C.buildGraphs tree) :=
  Settles.foldlM fun f _ => buildGraph_settles hdedup f

variable [Quantity τ]

theorem collectNodeSets_settles (tree : CallTree) :
    Settles (ε := ε) fun s => .ok (C.collectNodeSets tree s).2 :=
  Settles.foldl fun f _ => recordEdges_settles hdedup (steady_pure ()) f fun _ => []

end

variable [Quantity τ]

theorem collectNodeSets_fst_congr {s t : State} (tree : CallTree)
    (h : ∀ f, t.graph f C.settings.dedup = s.graph f C.settings.dedup) :
    (C.collectNodeSets tree t).1 = (C.collectNodeSets tree s).1 := by
  unfold collectNodeSets functionNodeSets
  simp only [h]

/-- Node sets are made of the graphs as they are. -/
theorem graph_collectNodeSets (C : Context τ) (tree : CallTree) (s : State) (f : Nat) :
    (C.collectNodeSets tree s).2.graph f C.settings.dedup = s.graph f C.settings.dedup := by
  refine List.foldlRecOn tree.functions _
    (motive := fun t : State => t.graph f C.settings.dedup = s.graph f C.settings.dedup) rfl ?_
  intro t ht h _
  rw [← ht, State.graph, State.graphs_updateGraph]
  split_ifs with hh
  · rw [hh]
    rfl
  · rfl

/-- **Analysing again.** If graphs keep no duplicates, an analysis that is repeated on the state
    that it left behind gives the same result, and adds nothing to the tables and the graphs of that
    state. It fails only if its root is missing or has no body. -/
theorem analyze_again (C : Context τ) (hdedup : C.settings.dedup = true) {s : State}
    (hs : s.All (·.dedup = true)) (root : Option Nat) :
    (∀ e, C.checkRoot root = .error e → C.analyze root s = .error (.root e)) ∧
      ∀ f, C.checkRoot root = .ok f → ∃ r s' s'', C.analyze root s = .ok (r, s') ∧
        C.analyze root s' = .ok (r, s'') ∧ Same s' s'' := by
  refine ⟨fun e he => ?_, fun f hf => ?_⟩
  · unfold analyze
    rw [he]
    rfl
  · obtain ⟨rfl, hbody⟩ : root = some f ∧ C.program.hasBody f := by
      unfold checkRoot at hf
      split at hf
      · cases hf
      · split_ifs at hf with hbody
        cases hf
        exact ⟨rfl, hbody⟩
    have hany : Graph.Invariant C.settings.dedup fun _ => True :=
      ⟨fun _ => trivial, fun _ _ _ => trivial, fun _ _ _ _ => trivial⟩
    obtain ⟨s₁, h₁, -⟩ := buildGraphs_keeps hany (C.callTree f).functions (s := s)
      fun _ _ _ => trivial
    obtain ⟨-, hall, hbuild⟩ := buildGraphs_settles hdedup (C.callTree f) s s₁ hs h₁
    obtain ⟨hgrows, -, hcollect⟩ :=
      collectNodeSets_settles (ε := PairError) hdedup (C.callTree f) s₁ _ hall rfl
    -- the second time, neither step changes the state
    obtain ⟨t₁, ht₁, hsame⟩ := hbuild _ hgrows
    obtain ⟨_, ⟨⟩, hsame'⟩ := hcollect t₁ hsame.grows
    have hsets : (C.collectNodeSets (C.callTree f) t₁).1 =
        (C.collectNodeSets (C.callTree f) s₁).1 :=
      collectNodeSets_fst_congr _ fun h =>
        (hsame.graph_eq h _).trans (graph_collectNodeSets C _ s₁ h)
    refine ⟨_, _, _, analyze_eq hbody h₁, ?_, hsame.trans hsame'⟩
    rw [analyze_eq hbody ht₁, hsets]

/-- `twice` without duplicates, analysed from its root after `tick` was. -/
theorem analyze_again_twice :
    let C := twice.withDedup true
    let s := C.analyses .fresh [some 1]
    C.settings.dedup = true ∧ s.All (·.dedup = true) ∧ C.checkRoot (some 0) = .ok 0 ∧
      ∃ r s' s'', C.analyze (some 0) s = .ok (r, s') ∧ C.analyze (some 0) s' = .ok (r, s'') ∧
        Same s' s'' := by
  intro C s
  have hdedup : Graph.Invariant C.settings.dedup (·.dedup = true) := by
    refine ⟨fun _ => rfl, fun g a hg => ?_, fun g e _ hg => ?_⟩
    · exact (Graph.dedup_addNode g a).trans hg
    · exact (Graph.dedup_record ..).trans hg
  have hs : s.All (·.dedup = true) := all_analyses hdedup (State.all_fresh _) [some 1]
  exact ⟨rfl, hs, rfl, (analyze_again C rfl hs (some 0)).2 0 rfl⟩

end Context

end Overlap
