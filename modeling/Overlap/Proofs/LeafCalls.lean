/-
  Calls of functions that call no others.

  The dependences of a function are known exactly if its calls pass no
  arguments, their callees call no others, and no call defines what decides
  another one.  They are conflicts on globals, and one more for two calls neither
  of which dominates the other (`Context.leafEdges`).

  * `State.Asked`: the accesses in the table of a state come from questions; so
    those of a function that calls no others are the ones of its instructions;
  * `analyzeSites_of_leaves`: all analyses of two such calls together;
  * `buildGraph_of_leaves`: the graph of a function all of whose calls are such.

  `forked` is a function with three calls in two branches.
-/
import Overlap.Proofs.Analyze
import Overlap.Proofs.Conflicts
import Overlap.Proofs.GlobalAccess
import Overlap.Proofs.RealTimes

namespace Overlap

open Ssa Dependence

/-! ## Tables of accesses -/

namespace State

variable {S : Effect.Source} {s s' : State}

/-- The table of accesses of a state comes from questions. -/
def Asked (S : Effect.Source) (s : State) : Prop := ∃ asked, s.accesses = S.collected asked

theorem asked_fresh : fresh.Asked S := ⟨[], rfl⟩

theorem Asked.congr (hs : s.Asked S) (h : s'.accesses = s.accesses) : s'.Asked S := by
  obtain ⟨asked, hasked⟩ := hs
  exact ⟨asked, h.trans hasked⟩

/-- One more question. -/
theorem Asked.next (hs : s.Asked S) {h : Nat}
    (hnext : s'.accesses = (S.globalAccesses h s.accesses).2) : s'.Asked S := by
  obtain ⟨asked, hasked⟩ := hs
  refine ⟨asked ++ [h], ?_⟩
  rw [hnext, hasked, Effect.Source.collected, Effect.Source.collected, List.foldl_append]
  rfl

theorem Asked.globalAccesses_eq (hs : s.Asked S) {h : Nat} (hh : S.calledFunctions h = []) :
    (S.globalAccesses h s.accesses).1 = S.direct h := by
  obtain ⟨asked, hasked⟩ := hs
  rw [hasked, Effect.Source.globalAccesses_of_leaf asked hh]

end State

namespace Context

variable {τ : Type} {C : Context τ} {f : Nat} {a b site : Loc} {g : Dependence.Graph} {s : State}

/-! ## Two calls -/

/-- At `site` a function that calls no others is called without arguments. -/
structure CallsLeaf (C : Context τ) (site : Loc) : Prop where
  args_eq : C.program.args site = []
  leaf : ∃ h, C.resolve site = some h ∧ C.source.calledFunctions h = []

/-- Nothing that the call at `a` may define decides the call at `b`. -/
structure Apart (C : Context τ) (a b : Loc) : Prop where
  globals : ∀ g < C.program.globals.size, DefUse.reaches C.program b (.global g) false = false
  result : DefUse.reaches C.program b (.result a) true = false

/-- The accesses of the callee's own instructions, none if it is not known. -/
def ownAccesses (C : Context τ) (site : Loc) : Accesses :=
  ((C.resolve site).map C.source.direct).getD #[]

/-- The conflicts of two calls on globals, by the accesses of the callees' own instructions. -/
def ownConflicts (C : Context τ) (a b : Loc) : List Edge :=
  (sortedGlobals C.program (C.ownAccesses a)).filterMap fun g =>
    let name := "G:" ++ C.program.valueName (.global g)
    conflict? C.program a b (accessEffect ((C.ownAccesses a).get g))
      (accessEffect ((C.ownAccesses b).get g)) name name

/-- The dependence between two calls neither of which dominates the other. -/
def undominated (C : Context τ) (a b : Loc) : List Edge :=
  if C.program.locDominates a b || C.program.locDominates b a then []
  else [⟨.noDominate, a, b, "", ""⟩]

/-- The dependences between two calls of functions that call no others. -/
def leafEdges (C : Context τ) (a b : Loc) : List Edge :=
  C.ownConflicts a b ++ if C.settings.dominators then C.undominated a b else []

theorem withoutIncoming_leafEdges {e : Edge} (he : e ∈ C.leafEdges a b) :
    e.kind.withoutIncoming = e.kind := by
  rcases List.mem_append.1 he with he | he
  · obtain ⟨g, -, hg⟩ := List.mem_filterMap.1 he
    exact withoutIncoming_conflict? hg
  · have hkind : Kinds.noDominate.withoutIncoming = .noDominate := by decide
    unfold undominated at he
    split_ifs at he <;> simp_all

/-- A call that defines nothing for another one does not change the graph. -/
theorem correlateOrdered_of_apart (ha : C.CallsLeaf a) (hab : C.Apart a b)
    (hs : s.Asked C.source) (hg : s.graphs[f]? = some g) :
    (C.correlateOrdered f a b s).Asked C.source ∧
      (C.correlateOrdered f a b s).graphs[f]? = some g := by
  obtain ⟨h, hresolve, -⟩ := ha.leaf
  have hargs : C.argumentCorrelations h a b s = ([], s) := by
    simp [argumentCorrelations, ha.args_eq]
  have hglobals : (C.globalCorrelations h a b s).1 = [] := by
    refine List.filterMap_eq_nil_iff.2 fun g hg => ?_
    rw [hab.globals g (mem_sortedGlobals_iff.1 hg).1]
    simp
  have hresult : C.resultCorrelation a b = [] := by
    unfold resultCorrelation
    split
    · simp [hab.result]
    · rfl
  have hstep : C.correlateOrdered f a b s = C.recordAll f [] (C.globalCorrelations h a b s).2 := by
    simp only [correlateOrdered, hresolve, hargs, hglobals, hresult, List.append_nil]
  rw [hstep]
  refine ⟨hs.next rfl, ?_⟩
  rw [recordAll, State.graphs_updateGraph, if_pos rfl, State.graph]
  exact congrArg (some <| Option.getD · _) hg

/-- The conflicts on globals of two calls of functions that call no others. -/
theorem globalConflicts_of_leaves (ha : C.CallsLeaf a) (hb : C.CallsLeaf b)
    (hs : s.Asked C.source) (hg : s.graphs[f]? = some g) :
    (C.globalConflicts f a b s).Asked C.source ∧
      (C.globalConflicts f a b s).graphs[f]? = some (g.recordEdges (C.ownConflicts a b)) := by
  obtain ⟨h, hresolve, hleaf⟩ := ha.leaf
  obtain ⟨k, hresolve', hleaf'⟩ := hb.leaf
  let s₁ : State := { s with accesses := (C.source.globalAccesses h s.accesses).2 }
  let s₂ : State := { s with accesses := (C.source.globalAccesses k s₁.accesses).2 }
  have hs₁ : s₁.Asked C.source := hs.next rfl
  have hs₂ : s₂.Asked C.source := hs₁.next rfl
  have hstep : C.globalConflicts f a b s = C.recordAll f (C.ownConflicts a b) s₂ := by
    simp only [globalConflicts, ownConflicts, hresolve, hresolve', ownAccesses, Option.map_some,
      Option.getD_some, ← hs.globalAccesses_eq hleaf, ← hs₁.globalAccesses_eq hleaf']
    rfl
  rw [hstep]
  refine ⟨hs₂.congr rfl, ?_⟩
  rw [recordAll, State.graphs_updateGraph, if_pos rfl, State.graph, hg]
  rfl

/-- Whether one of two calls dominates the other. -/
theorem dominance_of_graph (hg : s.graphs[f]? = some g) :
    ∃ s', C.dominance f a b s = .ok s' ∧ s'.accesses = s.accesses ∧
      s'.graphs[f]? = some (g.recordEdges (C.undominated a b)) := by
  have hf : s.graphs.contains f := by
    rw [Std.HashMap.contains_eq_isSome_getElem?, hg]
    rfl
  unfold dominance undominated
  rw [if_pos hf]
  split_ifs
  · exact ⟨s, rfl, rfl, hg⟩
  · refine ⟨_, rfl, rfl, ?_⟩
    rw [recordAll, State.graphs_updateGraph, if_pos rfl, State.graph, hg]
    rfl

/-- The analyses of two calls without a pointer analysis, one after the other. -/
theorem analyzeSites_of_no_pointers (hpointers : C.pointers = none) (ha : a.func = f)
    (hb : b.func = f) (s : State) :
    C.analyzeSites f s (a, b) =
      if C.settings.dominators then
        C.dominance f a b (C.globalConflicts f a b (C.correlate f a b s))
      else .ok (C.globalConflicts f a b (C.correlate f a b s)) := by
  have hcorrelation : C.analyzePair .correlation f (some a) (some b) s =
      .ok (C.correlate f a b s) := by
    rw [analyzePair, checkPair_ok ha hb]
    rfl
  have hdominator : ∀ s, C.analyzePair .dominator f (some a) (some b) s = C.dominance f a b s := by
    intro s
    rw [analyzePair, checkPair_ok ha hb]
    rfl
  have hfirst : C.analyzeSites f s (a, b) =
      (if C.settings.dominators then [Analyzer.dominator] else []).foldlM
        (fun s analyzer => C.analyzePair analyzer f (some a) (some b) s)
        (C.globalConflicts f a b (C.correlate f a b s)) := by
    simp only [analyzeSites, analyzers, hpointers, Option.isSome_none, Bool.false_eq_true, if_false,
      List.append_nil, List.cons_append, List.nil_append, List.foldlM_cons, hcorrelation]
    change C.analyzePair .globals f (some a) (some b) (C.correlate f a b s) >>= _ = _
    rw [analyzePair_globals C ha hb]
    rfl
  rw [hfirst]
  split_ifs
  · rw [List.foldlM_cons, hdominator]
    exact bind_pure _
  · rfl

/-- **All analyses of two calls** of functions that call no others. -/
theorem analyzeSites_of_leaves (hpointers : C.pointers = none) (hfa : a.func = f)
    (hfb : b.func = f) (ha : C.CallsLeaf a) (hb : C.CallsLeaf b) (hab : C.Apart a b)
    (hba : C.Apart b a) (hs : s.Asked C.source) (hg : s.graphs[f]? = some g) :
    ∃ s', C.analyzeSites f s (a, b) = .ok s' ∧ s'.Asked C.source ∧
      s'.graphs[f]? = some (g.recordEdges (C.leafEdges a b)) := by
  obtain ⟨hs₁, hg₁⟩ := correlateOrdered_of_apart ha hab hs hg
  obtain ⟨hs₂, hg₂⟩ := correlateOrdered_of_apart hb hba hs₁ hg₁
  obtain ⟨hs₃, hg₃⟩ := globalConflicts_of_leaves ha hb hs₂ hg₂
  rw [analyzeSites_of_no_pointers hpointers hfa hfb, leafEdges]
  cases C.settings.dominators with
  | false =>
    refine ⟨_, if_neg nofun, hs₃, ?_⟩
    rw [if_neg nofun, List.append_nil]
    exact hg₃
  | true =>
    obtain ⟨s₄, h₄, haccesses, hg₄⟩ := dominance_of_graph (C := C) (a := a) (b := b) hg₃
    refine ⟨s₄, (if_pos rfl).trans h₄, hs₃.congr haccesses, ?_⟩
    rw [hg₄, ← Graph.recordEdges_append, if_pos rfl]

/-! ## All calls of a function -/

/-- All calls of a function call functions that call no others, and none decides another one. -/
structure CallsLeaves (C : Context τ) (f : Nat) : Prop where
  pointers_eq : C.pointers = none
  leaf : ∀ a ∈ C.candidates f, C.CallsLeaf a
  apart : ∀ a ∈ C.candidates f, ∀ b ∈ C.candidates f, a ≠ b → C.Apart a b

theorem foldlM_analyzeSites_of_leaves (hf : C.CallsLeaves f) {ps : List (Loc × Loc)}
    (hps : ∀ p ∈ ps, p ∈ orderedPairs (C.candidates f)) (hs : s.Asked C.source)
    (hg : s.graphs[f]? = some g) :
    ∃ s', ps.foldlM (C.analyzeSites f) s = .ok s' ∧ s'.Asked C.source ∧
      s'.graphs[f]? = some (g.recordEdges (ps.flatMap fun p => C.leafEdges p.1 p.2)) := by
  induction ps generalizing s g with
  | nil => exact ⟨s, rfl, hs, hg⟩
  | cons p ps ih =>
    obtain ⟨a, b⟩ := p
    have hp := hps (a, b) (List.mem_cons_self ..)
    obtain ⟨ha, hb⟩ := mem_of_mem_orderedPairs hp
    have hab : a ≠ b := ne_of_mem_orderedPairs (nodup_candidates C f) hp
    obtain ⟨s₁, h₁, hs₁, hg₁⟩ := analyzeSites_of_leaves hf.pointers_eq (func_of_mem_candidates ha)
      (func_of_mem_candidates hb) (hf.leaf a ha) (hf.leaf b hb) (hf.apart a ha b hb hab)
      (hf.apart b hb a ha hab.symm) hs hg
    obtain ⟨s₂, h₂, hs₂, hg₂⟩ := ih (fun q hq => hps q (List.mem_cons_of_mem _ hq)) hs₁ hg₁
    refine ⟨s₂, ?_, hs₂, ?_⟩
    · rw [List.foldlM_cons, h₁]
      exact h₂
    · rw [hg₂, List.flatMap_cons, Graph.recordEdges_append]

/-- **The graph of a function that calls only such functions** has the dependences of each two of
    its calls, if it keeps duplicates. -/
theorem buildGraph_of_leaves (hf : C.CallsLeaves f) (hdedup : C.settings.dedup = false)
    (hs : s.Asked C.source) (hnew : s.graphs[f]? = none) :
    ∃ s' g, C.buildGraph s f = .ok s' ∧ s'.graphs[f]? = some g ∧ C.GraphOf f g ∧
      g.edges.toList =
        (orderedPairs (C.candidates f)).flatMap fun p => C.leafEdges p.1 p.2 := by
  let nodes : Graph := (C.candidates f).foldl (·.addNode ·) (.empty f C.settings.dedup)
  obtain ⟨s', h, -, g, hg, hgraph⟩ := buildGraph_ok C hnew
  obtain ⟨-, -, hedges, -⟩ := foldl_addNode (C.candidates f)
    (Graph.wellFormed_empty f C.settings.dedup) (nodup_candidates C f)
  obtain ⟨s'', h', -, hg'⟩ := foldlM_analyzeSites_of_leaves hf
    (s := s.updateGraph f C.settings.dedup fun g => (C.candidates f).foldl (·.addNode ·) g)
    (g := nodes) (fun p hp => hp) (hs.congr rfl) (by
      rw [State.graphs_updateGraph, if_pos rfl, State.graph, hnew]
      rfl)
  obtain rfl : s' = s'' := Except.ok.inj (h.symm.trans h')
  obtain rfl := Option.some.inj (hg.symm.trans hg')
  refine ⟨s', _, h, hg, hgraph, ?_⟩
  have hplain : nodes.dedup = false := by
    refine List.foldlRecOn (C.candidates f) _ (motive := fun g : Graph => g.dedup = false) hdedup ?_
    intro g hg a _
    rw [Graph.dedup_addNode, hg]
  have hnone : nodes.edges.toList = [] := by
    rw [hedges]
    rfl
  rw [Graph.edges_recordEdges_of_plain hplain, hnone, List.nil_append]
  intro e he
  obtain ⟨p, -, he⟩ := List.mem_flatMap.1 he
  exact withoutIncoming_leafEdges he

/-! ## Calls in two branches -/

/-- `main` calls `once` in one branch, and `rest` and `again` in the other one. Both `once` and
    `again` write `total`, and `rest` writes another global. -/
def forkedProgram : Program :=
  let write (g : Nat) : Instr := ⟨.store (.global g) (.const 0), none, none⟩
  let done : Instr := ⟨.ret [], none, none⟩
  let callAt (register f : Nat) (line : Int) : Instr :=
    { callTo register f [] with pos := some ⟨0, line, 3⟩ }
  smallProgram #[⟨"total", some 0, .pointer (.basic "int")⟩,
      ⟨"spare", some 0, .pointer (.basic "int")⟩] #[
    { straightLine "main" #[] #[] with
      body := some ⟨#[
        ⟨#[⟨.branch (.const 0), none, none⟩], [1, 2], "entry"⟩,
        ⟨#[callAt 0 1 5, done], [], "if.then"⟩,
        ⟨#[callAt 1 2 7, callAt 2 3 8, done], [], "if.else"⟩], none⟩ },
    straightLine "once" #[] #[write 0, done],
    straightLine "rest" #[] #[write 1, write 1, done],
    straightLine "again" #[] #[write 0, write 0, done]]

/-- The times of the three calls of `main`. -/
noncomputable def forkedTimes : List (CallRecord ℝ) := [
  ⟨"main.main", "main.go", 5, "main.once", 7⟩, ⟨"main.main", "main.go", 7, "main.rest", 6⟩,
  ⟨"main.main", "main.go", 8, "main.again", 9⟩]

/-- A timed analysis of `main` only. -/
noncomputable def forked : Context ℝ where
  program := forkedProgram
  resolve site := (forkedProgram.call? site).bind forkedProgram.staticCallee?
  pointers := none
  profile := some (.ofRecords 0 forkedTimes)
  settings := ⟨.modRef, true, false, fun _ => false, { Weights.default with decay := 1 }⟩

theorem candidates_forked : forked.candidates 0 = [⟨0, 1, 0⟩, ⟨0, 2, 0⟩, ⟨0, 2, 1⟩] := by decide

/-- The dependences between the three calls. -/
def forkedEdges : List Edge := [
  ⟨.noDominate, ⟨0, 1, 0⟩, ⟨0, 2, 0⟩, "", ""⟩,
  ⟨.output, ⟨0, 1, 0⟩, ⟨0, 2, 1⟩, "G:total", "G:total"⟩,
  ⟨.noDominate, ⟨0, 1, 0⟩, ⟨0, 2, 1⟩, "", ""⟩]

theorem callsLeaves_forked : forked.CallsLeaves 0 where
  pointers_eq := rfl
  leaf := by
    rw [candidates_forked]
    simp only [List.forall_mem_cons, List.not_mem_nil, false_implies, implies_true, and_true]
    exact ⟨⟨rfl, 1, rfl, by decide⟩, ⟨rfl, 2, rfl, by decide⟩, ⟨rfl, 3, rfl, by decide⟩⟩
  apart := by
    let sites : List Loc := [⟨0, 1, 0⟩, ⟨0, 2, 0⟩, ⟨0, 2, 1⟩]
    have hglobals : sites.all (fun b => (List.range 2).all fun g =>
        !DefUse.reaches forkedProgram b (.global g) false) = true := by decide +kernel
    have hresults : sites.all (fun a => sites.all fun b =>
        !DefUse.reaches forkedProgram b (.result a) true) = true := by decide +kernel
    simp only [List.all_eq_true, List.mem_range, Bool.not_eq_true'] at hglobals hresults
    rw [candidates_forked]
    exact fun a ha b hb _ => ⟨hglobals b hb, hresults a ha b hb⟩

/-- `once` is in another branch than `rest` and `again`, and writes the same global as `again`;
    `rest` is called before `again`. -/
theorem leafEdges_forked : (orderedPairs (forked.candidates 0)).flatMap
    (fun p => forked.leafEdges p.1 p.2) = forkedEdges := by
  have honce : forked.ownAccesses ⟨0, 1, 0⟩ = #[.change, .absent] := by decide
  have hrest : forked.ownAccesses ⟨0, 2, 0⟩ = #[.absent, .change] := by decide
  have hagain : forked.ownAccesses ⟨0, 2, 1⟩ = #[.change, .absent] := by decide
  have htotal : sortedGlobals forked.program #[.change, .absent] = [0] :=
    (by decide +kernel : sortedGlobals forkedProgram #[.change, .absent] = [0])
  have hspare : sortedGlobals forked.program #[.absent, .change] = [1] :=
    (by decide +kernel : sortedGlobals forkedProgram #[.absent, .change] = [1])
  have hname : "G:" ++ forked.program.valueName (.global 0) = "G:total" :=
    (by decide +kernel : "G:" ++ forkedProgram.valueName (.global 0) = "G:total")
  have hbranches : forked.undominated ⟨0, 1, 0⟩ ⟨0, 2, 0⟩ = [⟨.noDominate, _, _, "", ""⟩] :=
    if_neg (ne_true_of_eq_false (by cbv : (forkedProgram.locDominates ⟨0, 1, 0⟩ ⟨0, 2, 0⟩ ||
      forkedProgram.locDominates ⟨0, 2, 0⟩ ⟨0, 1, 0⟩) = false))
  have hbranches' : forked.undominated ⟨0, 1, 0⟩ ⟨0, 2, 1⟩ = [⟨.noDominate, _, _, "", ""⟩] :=
    if_neg (ne_true_of_eq_false (by cbv : (forkedProgram.locDominates ⟨0, 1, 0⟩ ⟨0, 2, 1⟩ ||
      forkedProgram.locDominates ⟨0, 2, 1⟩ ⟨0, 1, 0⟩) = false))
  have hblock : forked.undominated ⟨0, 2, 0⟩ ⟨0, 2, 1⟩ = [] :=
    if_pos (by cbv : (forkedProgram.locDominates ⟨0, 2, 0⟩ ⟨0, 2, 1⟩ ||
      forkedProgram.locDominates ⟨0, 2, 1⟩ ⟨0, 2, 0⟩) = true)
  have hdominators : forked.settings.dominators = true := rfl
  simp [candidates_forked, orderedPairs, forkedEdges, leafEdges, ownConflicts, honce, hrest, hagain,
    htotal, hspare, hname, hbranches, hbranches', hblock, hdominators, conflict?, accessEffect,
    Accesses.get, Effect.writeOnly, Effect.none]

/-- The graph of `main`. -/
theorem buildGraphs_forked :
    ∃ s g, forked.buildGraphs (forked.callTree 0) .fresh = .ok s ∧ s.graphs[0]? = some g ∧
      forked.GraphOf 0 g ∧ g.edges.toList = forkedEdges := by
  obtain ⟨s, g, h, hg, hgraph, hedges⟩ := buildGraph_of_leaves callsLeaves_forked rfl
    (s := .fresh) State.asked_fresh (by simp [State.fresh])
  refine ⟨s, g, ?_, hg, hgraph, hedges.trans leafEdges_forked⟩
  rw [buildGraphs, functions_callTree_of_callees_eq_nil rfl, List.foldlM_cons, h]
  rfl

end Context

end Overlap
