/-
  Which dependences the analyses of aliases and of globals record.

  Two calls conflict on memory that one of them writes and the other one
  accesses.

  * `Effect.Clashes` is this condition on their effects, and
    `isSome_conflict?_iff` says that a dependence is found exactly then;
  * `Reports`: a dependence joins the two calls, in program order unless both
    write, and its kind agrees with what they do (`reports_conflict?`);
  * `State.AddsPer`: a graph gets one edge for each of some objects, and no more;
  * `aliasConflicts_spec` and `globalConflicts_spec`: the edges that the two
    analyses record.  They depend on tables of answers that grow meanwhile;
    since answers stay, those in the table at the end are the ones used;
  * `analyzePair_addsPer`: both analyses record one edge for each object on which
    the two calls conflict.
-/
import Overlap.Proofs.AnalyzePair
import Overlap.Proofs.AnswerTables
import Overlap.Proofs.ArgumentNodes
import Overlap.Proofs.ProgramOrder

namespace Overlap

open Ssa Dependence

/-! ## Conflicts -/

/-- Of two calls with these effects on the same memory, one writes it and the other one reads or
    writes it. -/
def Effect.Clashes (x y : Effect) : Prop := x.mod ∧ y ≠ .none ∨ y.mod ∧ x ≠ .none

/-- `e` is a dependence between `a` and `b` through memory on which call sites have the effects
    `effect`, and for which they have the names `name`. -/
structure Reports (P : Program) (a b : Loc) (effect : Loc → Effect) (name : Loc → String)
    (e : Edge) : Prop where
  ends_eq : e.ends = {a, b}
  own_eq : e.own = name e.source
  foreign_eq : e.foreign = name e.target
  /-- It is a write that comes before a read, a read that comes before a write, or two writes. -/
  kind_agrees :
    e.kind = .flow ∧ (effect e.source).mod ∧ (effect e.target).ref ∧
        P.before e.source e.target ∨
      e.kind = .anti ∧ (effect e.source).ref ∧ (effect e.target).mod ∧
        P.before e.source e.target ∨
      e.kind = .output ∧ (effect e.source).mod ∧ (effect e.target).mod

section
variable {P : Program} {a b : Loc} {x y : Effect} {nameA nameB : String} {e : Edge}

theorem isSome_conflict?_iff :
    (conflict? P a b x y nameA nameB).isSome ↔ x.Clashes y := by
  obtain ⟨rx, mx⟩ := x
  obtain ⟨ry, my⟩ := y
  unfold conflict? Effect.Clashes Effect.none
  cases P.before a b <;> cases rx <;> cases mx <;> cases ry <;> cases my <;> simp

theorem withoutIncoming_conflict? (h : conflict? P a b x y nameA nameB = some e) :
    e.kind.withoutIncoming = e.kind := by
  unfold conflict? at h
  dsimp only at h
  split_ifs at h <;> cases h <;> dsimp only <;> decide

/-- **A dependence agrees with what the calls do.** -/
theorem reports_conflict? (effect : Loc → Effect) (name : Loc → String) (hfunc : a.func = b.func)
    (hab : a ≠ b) (h : conflict? P a b (effect a) (effect b) (name a) (name b) = some e) :
    Reports P a b effect name e := by
  have hends : e.ends = {a, b} := Context.ends_conflict? h
  have hback : P.before a b ≠ true → P.before b a = true := fun hfirst =>
    Program.before_of_not_before hfunc hab (by simpa using hfirst)
  unfold conflict? at h
  simp only [Bool.and_eq_true] at h
  split_ifs at h with h₁ hfirst h₂ hfirst h₃
  · cases h
    exact ⟨hends, rfl, rfl, Or.inl ⟨rfl, h₁.1, h₁.2, hfirst⟩⟩
  · cases h
    exact ⟨hends, rfl, rfl, Or.inr (Or.inl ⟨rfl, h₁.2, h₁.1, hback hfirst⟩)⟩
  · cases h
    exact ⟨hends, rfl, rfl, Or.inr (Or.inl ⟨rfl, h₂.1, h₂.2, hfirst⟩)⟩
  · cases h
    exact ⟨hends, rfl, rfl, Or.inl ⟨rfl, h₂.2, h₂.1, hback hfirst⟩⟩
  · cases h
    exact ⟨hends, rfl, rfl, Or.inr (Or.inr ⟨rfl, h₃⟩)⟩

end

/-! ## One edge for each object -/

namespace State

/-- `s'` comes from `s` by adding edges to the graph of `f`: one for each object with the property
    `p`, of which `reports` holds. -/
structure AddsPer {ω : Type} (f : Nat) (dedup : Bool) (p : ω → Prop) (reports : ω → Edge → Prop)
    (s s' : State) : Prop where
  others : ∀ h, h ≠ f → s'.graphs[h]? = s.graphs[h]?
  own : ∃ (objects : List ω) (edge : ω → Edge), objects.Nodup ∧ (∀ o, o ∈ objects ↔ p o) ∧
    (∀ o ∈ objects, reports o (edge o)) ∧
    (s'.graph f dedup).edges.toList = (s.graph f dedup).edges.toList ++ objects.map edge

variable {ω : Type} {f : Nat} {dedup : Bool} {p : ω → Prop} {reports : ω → Edge → Prop}
  {s s' : State}

theorem AddsPer.congr {q : ω → Prop} (h : AddsPer f dedup p reports s s')
    (hpq : ∀ o, p o ↔ q o) : AddsPer f dedup q reports s s' := by
  obtain rfl : p = q := funext fun o => propext (hpq o)
  exact h

/-- Where just one object has the property there is just one edge. -/
theorem AddsPer.single (h : AddsPer f dedup p reports s s') {o : ω} (ho : ∀ o', p o' ↔ o' = o) :
    ∃ e, reports o e ∧
      (s'.graph f dedup).edges.toList = (s.graph f dedup).edges.toList ++ [e] := by
  obtain ⟨objects, edge, hnodup, hmem, hreports, hedges⟩ := h.own
  have hobjects : objects = [o] := by
    refine List.perm_singleton.1 ((List.perm_ext_iff_of_nodup hnodup (List.nodup_singleton o)).2 ?_)
    intro o'
    rw [hmem, ho, List.mem_singleton]
  subst hobjects
  exact ⟨edge o, hreports o (List.mem_singleton_self o), hedges⟩

/-- Edges of some of the objects of a list are recorded in a graph that keeps duplicates. -/
theorem addsPer_of_recordEdges {objects : List ω} (edge? : ω → Option Edge)
    (hothers : ∀ h, h ≠ f → s'.graphs[h]? = s.graphs[h]?) (hnodup : objects.Nodup)
    (hs : (s.graph f dedup).dedup = false)
    (hs' : s'.graph f dedup = (s.graph f dedup).recordEdges (objects.filterMap edge?))
    (hkind : ∀ o e, edge? o = some e → e.kind.withoutIncoming = e.kind)
    (hp : ∀ o, o ∈ objects ∧ (edge? o).isSome ↔ p o)
    (hreports : ∀ o e, edge? o = some e → reports o e) : AddsPer f dedup p reports s s' := by
  refine ⟨hothers, objects.filter fun o => (edge? o).isSome, fun o => (edge? o).getD default,
    hnodup.filter _, fun o => ?_, fun o ho => ?_, ?_⟩
  · rw [List.mem_filter]
    exact hp o
  · obtain ⟨e, he⟩ := Option.isSome_iff_exists.1 (List.mem_filter.1 ho).2
    simpa only [he, Option.getD_some] using hreports o e he
  · have hedges : objects.filterMap edge? =
        (objects.filter fun o => (edge? o).isSome).map fun o => (edge? o).getD default := by
      rw [← List.filterMap_eq_map, List.filterMap_filter]
      refine List.filterMap_congr fun o _ => ?_
      cases ho : edge? o <;> simp [ho]
    rw [hs', Graph.edges_recordEdges_of_plain hs, hedges]
    intro e he
    obtain ⟨o, -, ho⟩ := List.mem_filterMap.1 he
    exact hkind o e ho

end State

/-! ## Conflicts on nodes -/

namespace Context

section
variable {τ : Type} {C : Context τ} {A : Memory.PointerAnalysis} {f : Nat} {a b site : Loc}
  {n : A.Node} {memo memo' : EffectMemo} {s : State}

theorem effectOnNode_extends (C : Context τ) (A : Memory.PointerAnalysis) (site : Loc) (n : A.Node)
    (memo : EffectMemo) : Extends memo (C.effectOnNode A site n memo).2 := by
  unfold effectOnNode
  split
  · exact Effect.Source.callArgumentEffect_extends C.source site _ memo
  · exact .refl memo

theorem effectOnNode_of_extends (h : Extends (C.effectOnNode A site n memo).2 memo') :
    C.effectOnNode A site n memo' = ((C.effectOnNode A site n memo).1, memo') := by
  unfold effectOnNode at h ⊢
  split at h
  · exact Effect.Source.callArgumentEffect_of_extends h
  · rfl

/-- The conflict of two calls on two nodes that are the same, with the answers in a table. -/
def aliasEdge? (C : Context τ) (A : Memory.PointerAnalysis) (a b : Loc) (memo : EffectMemo)
    (p : (A.Node × String) × (A.Node × String)) : Option Edge :=
  conflict? C.program a b (C.effectOnNode A a p.1.1 memo).1 (C.effectOnNode A b p.2.1 memo).1
    p.1.2 p.2.2

/-- What is done for two nodes that are the same. -/
def aliasStep (C : Context τ) (A : Memory.PointerAnalysis) (f : Nat) (a b : Loc) (s : State)
    (p : (A.Node × String) × (A.Node × String)) : State :=
  let answerA := C.effectOnNode A a p.1.1 s.effects
  let answerB := C.effectOnNode A b p.2.1 answerA.2
  ({ s with effects := answerB.2 }).updateGraph f C.settings.dedup fun g =>
    g.recordEdge? (conflict? C.program a b answerA.1 answerB.1 p.1.2 p.2.2)

theorem aliasConflicts_eq (C : Context τ) (A : Memory.PointerAnalysis) (f : Nat) (a b : Loc)
    (s : State) : C.aliasConflicts A f a b s =
      (C.sharedNodes A a b).foldl (C.aliasStep A f a b) (s.updateGraph f C.settings.dedup id) := by
  unfold aliasConflicts
  congr 1

/-- A step adds answers, and records the conflict that every later table gives. -/
theorem aliasStep_spec (C : Context τ) (A : Memory.PointerAnalysis) (f : Nat) (a b : Loc)
    (s : State) (p : (A.Node × String) × (A.Node × String)) :
    Extends s.effects (C.aliasStep A f a b s p).effects ∧
      ∀ memo, Extends (C.aliasStep A f a b s p).effects memo →
        (C.aliasStep A f a b s p).graphs[f]? =
          some ((s.graph f C.settings.dedup).recordEdges (C.aliasEdge? A a b memo p).toList) := by
  have hA := effectOnNode_extends C A a p.1.1 s.effects
  have hB := effectOnNode_extends C A b p.2.1 (C.effectOnNode A a p.1.1 s.effects).2
  refine ⟨hA.trans hB, fun memo hmemo => ?_⟩
  have hmemo : Extends (C.effectOnNode A b p.2.1 (C.effectOnNode A a p.1.1 s.effects).2).2 memo :=
    hmemo
  rw [aliasEdge?, effectOnNode_of_extends (hB.trans hmemo), effectOnNode_of_extends hmemo,
    Graph.recordEdges_toList, aliasStep, State.graphs_updateGraph, if_pos rfl]
  rfl

/-- **The edges recorded for nodes that are the same** are the conflicts with the answers in the
    table at the end. -/
theorem foldl_aliasStep (ps : List ((A.Node × String) × (A.Node × String))) {g : Graph}
    (hg : s.graphs[f]? = some g) :
    Extends s.effects (ps.foldl (C.aliasStep A f a b) s).effects ∧
      (ps.foldl (C.aliasStep A f a b) s).graphs[f]? = some (g.recordEdges
        (ps.filterMap (C.aliasEdge? A a b (ps.foldl (C.aliasStep A f a b) s).effects))) := by
  induction ps generalizing s g with
  | nil => exact ⟨.refl s.effects, hg⟩
  | cons p ps ih =>
    obtain ⟨hstep, hedge⟩ := aliasStep_spec C A f a b s p
    obtain ⟨hps, -⟩ := ih (s := C.aliasStep A f a b s p) (hedge _ (.refl _))
    obtain ⟨-, hgraph⟩ := ih (hedge _ hps)
    refine ⟨hstep.trans hps, hgraph.trans ?_⟩
    rw [← Graph.recordEdges_append, State.graph, hg, Option.getD_some, List.filterMap_cons]
    simp only [List.foldl_cons]
    generalize (ps.foldl (C.aliasStep A f a b) (C.aliasStep A f a b s p)).effects = memo
    cases C.aliasEdge? A a b memo p <;> rfl

/-- What the analysis of aliases leaves behind. -/
theorem aliasConflicts_spec (C : Context τ) (A : Memory.PointerAnalysis) (f : Nat) (a b : Loc)
    (s : State) :
    Extends s.effects (C.aliasConflicts A f a b s).effects ∧
      (C.aliasConflicts A f a b s).graphs[f]? = some ((s.graph f C.settings.dedup).recordEdges
        ((C.sharedNodes A a b).filterMap
          (C.aliasEdge? A a b (C.aliasConflicts A f a b s).effects))) := by
  rw [aliasConflicts_eq]
  refine foldl_aliasStep (s := s.updateGraph f C.settings.dedup id) _ ?_
  rw [State.graphs_updateGraph, if_pos rfl, id]

/-- Where nodes are the same only if they are equal, there is an edge for each node that arguments
    of both calls point to and on which their effects clash. -/
theorem aliasConflicts_addsPer (hA : ∀ m n, A.same m n ↔ m = n) (hfunc : a.func = b.func)
    (hab : a ≠ b) (hs : (s.graph f C.settings.dedup).dedup = false)
    (hmemo : memo = (C.aliasConflicts A f a b s).effects) :
    State.AddsPer f C.settings.dedup
      (fun n => C.argumentsAt A a n ≠ [] ∧ C.argumentsAt A b n ≠ [] ∧
        (C.effectOnNode A a n memo).1.Clashes (C.effectOnNode A b n memo).1)
      (fun n => Reports C.program a b (fun site => (C.effectOnNode A site n memo).1)
        (fun site => C.nameAt A site n)) s (C.aliasConflicts A f a b s) := by
  obtain ⟨nodes, hnodup, hmem, hshared⟩ := sharedNodes_eq_map hA C a b
  have hreports : ∀ n e, C.aliasEdge? A a b memo ((n, C.nameAt A a n), (n, C.nameAt A b n)) =
      some e → Reports C.program a b (fun site => (C.effectOnNode A site n memo).1)
        (fun site => C.nameAt A site n) e := fun n e he =>
    reports_conflict? (fun site => (C.effectOnNode A site n memo).1)
      (fun site => C.nameAt A site n) hfunc hab he
  refine State.addsPer_of_recordEdges
    (fun n => C.aliasEdge? A a b memo ((n, C.nameAt A a n), (n, C.nameAt A b n)))
    (aliasConflicts_records C A f a b s).others hnodup hs ?_
    (fun n e he => withoutIncoming_conflict? he) (fun n => ?_) hreports
  · rw [State.graph, (aliasConflicts_spec C A f a b s).2, Option.getD_some, ← hmemo, hshared,
      List.filterMap_map]
    rfl
  · rw [hmem, aliasEdge?, isSome_conflict?_iff, and_assoc]

end

end Context

/-! ## Conflicts on globals -/

section
variable {P : Program} {accesses : Accesses} {g : Nat}

theorem sortedGlobals_perm (P : Program) (accesses : Accesses) :
    (sortedGlobals P accesses).Perm
      ((List.range P.globals.size).filter fun g => accesses.get g != .absent) := by
  refine ((List.mergeSort_perm _ _).map _).trans ?_
  rw [List.map_map]
  exact .of_eq (List.map_id _)

theorem mem_sortedGlobals_iff :
    g ∈ sortedGlobals P accesses ↔ g < P.globals.size ∧ accesses.get g ≠ .absent := by
  rw [(sortedGlobals_perm P accesses).mem_iff, List.mem_filter, List.mem_range, bne_iff_ne]

theorem nodup_sortedGlobals : (sortedGlobals P accesses).Nodup :=
  (sortedGlobals_perm P accesses).nodup_iff.2 (List.nodup_range.filter _)

end

namespace Context

section
variable {τ : Type} {C : Context τ} {f : Nat} {a b : Loc} {s : State}

theorem clashes_accessEffect_iff {x y : Access} :
    (accessEffect x).Clashes (accessEffect y) ↔
      x ≠ .absent ∧ y ≠ .absent ∧ (x = .change ∨ y = .change) := by
  cases x <;> cases y <;>
    simp [Effect.Clashes, accessEffect, Effect.none, Effect.readOnly, Effect.writeOnly]

/-- The accesses of the callee at a site, none if it is not known. -/
def accessesAt (C : Context τ) (s : State) (site : Loc) : Accesses :=
  ((C.resolve site).map fun h => (C.source.globalAccesses h s.accesses).1).getD #[]

/-- The conflict of two calls on a global, with the accesses in the table of a state. -/
def globalEdge? (C : Context τ) (s : State) (a b : Loc) (g : Nat) : Option Edge :=
  let name := "G:" ++ C.program.valueName (.global g)
  conflict? C.program a b (accessEffect ((C.accessesAt s a).get g))
    (accessEffect ((C.accessesAt s b).get g)) name name

theorem isSome_globalEdge?_iff {g : Nat} :
    (C.globalEdge? s a b g).isSome ↔ (C.accessesAt s a).get g ≠ .absent ∧
      (C.accessesAt s b).get g ≠ .absent ∧
      ((C.accessesAt s a).get g = .change ∨ (C.accessesAt s b).get g = .change) := by
  rw [globalEdge?, isSome_conflict?_iff, clashes_accessEffect_iff]

theorem globalEdges_eq_nil (h : C.resolve a = none ∨ C.resolve b = none) :
    (sortedGlobals C.program (C.accessesAt s a)).filterMap (C.globalEdge? s a b) = [] := by
  refine List.filterMap_eq_nil_iff.2 fun g _ => Option.not_isSome_iff_eq_none.1 fun hg => ?_
  obtain ⟨ha, hb, -⟩ := isSome_globalEdge?_iff.1 hg
  rcases h with h | h
  · simp [accessesAt, h, Accesses.get] at ha
  · simp [accessesAt, h, Accesses.get] at hb

/-- **The edges recorded for globals** are the conflicts with the accesses in the table at the
    end. -/
theorem globalConflicts_spec (C : Context τ) (f : Nat) (a b : Loc) (s : State) :
    Extends s.accesses (C.globalConflicts f a b s).accesses ∧
      (C.globalConflicts f a b s).graph f C.settings.dedup =
        (s.graph f C.settings.dedup).recordEdges
          ((sortedGlobals C.program (C.accessesAt (C.globalConflicts f a b s) a)).filterMap
            (C.globalEdge? (C.globalConflicts f a b s) a b)) := by
  by_cases hnone : C.resolve a = none ∨ C.resolve b = none
  · have hs : C.globalConflicts f a b s = s := by
      unfold globalConflicts
      rcases hnone with h | h <;> simp [h]
    rw [globalEdges_eq_nil hnone, hs]
    exact ⟨.refl s.accesses, rfl⟩
  · simp only [not_or, ← Ne.eq_def, Option.ne_none_iff_exists'] at hnone
    obtain ⟨⟨calleeA, ha⟩, ⟨calleeB, hb⟩⟩ := hnone
    have hA := Effect.Source.globalAccesses_extends C.source calleeA s.accesses
    cases hanswerA : C.source.globalAccesses calleeA s.accesses with | mk accessesA memoA =>
    rw [hanswerA] at hA
    have hB := Effect.Source.globalAccesses_extends C.source calleeB memoA
    cases hanswerB : C.source.globalAccesses calleeB memoA with | mk accessesB memoB =>
    rw [hanswerB] at hB
    have hs : C.globalConflicts f a b s = C.recordAll f
        ((sortedGlobals C.program accessesA).filterMap fun g =>
          conflict? C.program a b (accessEffect (accessesA.get g)) (accessEffect (accessesB.get g))
            ("G:" ++ C.program.valueName (.global g)) ("G:" ++ C.program.valueName (.global g)))
        { s with accesses := memoB } := by
      simp only [globalConflicts, ha, hb, hanswerA, hanswerB]
    -- the answers in the last table are those that were used
    have haccesses : (C.globalConflicts f a b s).accesses = memoB := by rw [hs]; rfl
    have hstayA : Extends (C.source.globalAccesses calleeA s.accesses).2 memoB := by
      rw [hanswerA]
      exact hB
    have hstayB : Extends (C.source.globalAccesses calleeB memoA).2 memoB := by
      rw [hanswerB]
      exact .refl memoB
    have haccessesA : C.accessesAt (C.globalConflicts f a b s) a = accessesA := by
      rw [accessesAt, ha, Option.map_some, Option.getD_some, haccesses,
        Effect.Source.globalAccesses_of_extends hstayA, hanswerA]
    have haccessesB : C.accessesAt (C.globalConflicts f a b s) b = accessesB := by
      rw [accessesAt, hb, Option.map_some, Option.getD_some, haccesses,
        Effect.Source.globalAccesses_of_extends hstayB, hanswerB]
    refine ⟨haccesses ▸ hA.trans hB, ?_⟩
    unfold globalEdge?
    rw [haccessesA, haccessesB, hs]
    exact State.graph_updateGraph _ f _ _

/-- There is an edge for each global that both callees access and one of them changes. -/
theorem globalConflicts_addsPer (hfunc : a.func = b.func) (hab : a ≠ b)
    (hs : (s.graph f C.settings.dedup).dedup = false) {s' : State}
    (hs' : s' = C.globalConflicts f a b s) :
    State.AddsPer f C.settings.dedup
      (fun g => g < C.program.globals.size ∧ (C.accessesAt s' a).get g ≠ .absent ∧
        (C.accessesAt s' b).get g ≠ .absent ∧
        ((C.accessesAt s' a).get g = .change ∨ (C.accessesAt s' b).get g = .change))
      (fun g => Reports C.program a b (fun site => accessEffect ((C.accessesAt s' site).get g))
        (fun _ => "G:" ++ C.program.valueName (.global g))) s s' := by
  have hreports : ∀ g e, C.globalEdge? s' a b g = some e →
      Reports C.program a b (fun site => accessEffect ((C.accessesAt s' site).get g))
        (fun _ => "G:" ++ C.program.valueName (.global g)) e := fun g e he =>
    reports_conflict? (fun site => accessEffect ((C.accessesAt s' site).get g))
      (fun _ => "G:" ++ C.program.valueName (.global g)) hfunc hab he
  refine State.addsPer_of_recordEdges (C.globalEdge? s' a b)
    (hs' ▸ (globalConflicts_records C f a b s).others) nodup_sortedGlobals hs
    (hs' ▸ (globalConflicts_spec C f a b s).2)
    (fun g e he => withoutIncoming_conflict? he) (fun g => ?_) hreports
  rw [mem_sortedGlobals_iff, isSome_globalEdge?_iff]
  constructor
  · rintro ⟨⟨hg, -⟩, h⟩
    exact ⟨hg, h⟩
  · rintro ⟨hg, h⟩
    exact ⟨⟨hg, h.1⟩, h⟩

/-! ## One edge for each base object and each global -/

/-- A pointer-like argument of a call site is computed from the object `o`. -/
def Passes (C : Context τ) (site : Loc) (o : Value) : Prop :=
  Memory.isObject o ∧ ∃ x ∈ C.program.args site, C.program.canPoint x ∧ C.program.baseObject x = o

theorem same_baseObjects_iff {P : Program} {m n : Value} :
    (Memory.baseObjects P).same m n ↔ m = n := by
  simp [Memory.baseObjects]

theorem points_baseObjects_iff {P : Program} {x o : Value} :
    (P.canPoint x && ((Memory.baseObjects P).node? x).any ((Memory.baseObjects P).same · o)) ↔
      P.canPoint x ∧ P.baseObject x = o ∧ Memory.isObject o := by
  simp only [Memory.baseObjects, Memory.baseNode?]
  split_ifs with h
  · simp only [Bool.and_eq_true] at h
    simp only [h.1, Option.any_some, Bool.true_and, decide_eq_true_eq, true_and]
    exact ⟨fun ho => ⟨ho, ho ▸ h.2⟩, fun ho => ho.1⟩
  · simp only [Option.any_none, Bool.and_false, Bool.false_eq_true, false_iff]
    rintro ⟨hx, rfl, ho⟩
    exact h (by simp [hx, ho])

theorem argumentsAt_baseObjects_ne_nil_iff {site : Loc} {o : Value} :
    C.argumentsAt (Memory.baseObjects C.program) site o ≠ [] ↔ C.Passes site o := by
  refine argumentsAt_ne_nil_iff.trans ⟨?_, ?_⟩
  · rintro ⟨x, hx, hpoints⟩
    obtain ⟨hpoint, hbase, ho⟩ := points_baseObjects_iff.1 hpoints
    exact ⟨ho, x, hx, hpoint, hbase⟩
  · rintro ⟨ho, x, hx, hpoint, hbase⟩
    exact ⟨x, hx, points_baseObjects_iff.2 ⟨hpoint, hbase, ho⟩⟩

end

/-! ## A call that passes an address twice -/

/-- `main` passes the address of `x` twice to each of two calls of `set`, which writes through the
    parameter with the number `written` and to a global. -/
def passTwice (written : Fin 2) : Context Float :=
  let program := smallProgram #[⟨"total", some 0, .pointer (.basic "int")⟩] #[
    straightLine "main" #[] #[
      ⟨.alloc "x" false, some ⟨0, .pointer (.basic "int")⟩, none⟩,
      callTo 1 1 [.result ⟨0, 0, 0⟩, .result ⟨0, 0, 0⟩],
      callTo 2 1 [.result ⟨0, 0, 0⟩, .result ⟨0, 0, 0⟩], ⟨.ret [], none, none⟩],
    straightLine "set" #[⟨"p", .pointer (.basic "int")⟩, ⟨"q", .pointer (.basic "int")⟩] #[
      ⟨.store (.param 1 written) (.const 0), none, none⟩,
      ⟨.store (.global 0) (.const 0), none, none⟩, ⟨.ret [], none, none⟩]]
  { program
    resolve := fun
      | ⟨0, 0, _⟩ => some 1
      | _ => none
    pointers := some (Memory.baseObjects program)
    profile := none
    settings := ⟨.modRef, false, false, fun _ => true, .default⟩ }

theorem passes_passTwice_iff {w : Fin 2} {site : Loc} {o : Value}
    (hsite : site = ⟨0, 0, 1⟩ ∨ site = ⟨0, 0, 2⟩) :
    (passTwice w).Passes site o ↔ o = .result ⟨0, 0, 0⟩ := by
  have hargs : (passTwice w).program.args site = [.result ⟨0, 0, 0⟩, .result ⟨0, 0, 0⟩] := by
    rcases hsite with rfl | rfl <;> rfl
  have hbase : (passTwice w).program.baseObject (.result ⟨0, 0, 0⟩) = .result ⟨0, 0, 0⟩ := rfl
  have hpoint : (passTwice w).program.canPoint (.result ⟨0, 0, 0⟩) := rfl
  unfold Passes
  rw [hargs]
  constructor
  · rintro ⟨-, x, hx, -, rfl⟩
    obtain rfl : x = .result ⟨0, 0, 0⟩ := by simpa using hx
    exact hbase
  · rintro rfl
    exact ⟨rfl, _, List.mem_cons_self, hpoint, hbase⟩

section
open Effect Effect.Source

theorem callArgumentEffect_passTwice {w : Fin 2} {site : Loc}
    (hsite : site = ⟨0, 0, 1⟩ ∨ site = ⟨0, 0, 2⟩) (i : Fin 2) (memo : EffectMemo) :
    (passTwice w).source.callArgumentEffect site (i : Nat) memo =
      (passTwice w).source.ask (.value (.param 1 i)) memo := by
  have hcall : (passTwice w).source.callArgumentEffect site (i : Nat) memo =
      (passTwice w).source.argumentEffect (some 1) (i : Nat) memo := by
    rcases hsite with rfl | rfl <;> rfl
  have hparam : (passTwice w).source.paramParts 1 i = [.sub (.value (.param 1 i))] := by
    match i with
    | 0 => rfl
    | 1 => rfl
  rw [hcall, argumentEffect, if_neg (by omega), Int.toNat_natCast, hparam]
  rfl

/-- An answer about an argument stays. -/
theorem callArgumentEffect_passTwice_of_extends {w i : Fin 2} {site : Loc} {memo memo' : EffectMemo}
    (hsite : site = ⟨0, 0, 1⟩ ∨ site = ⟨0, 0, 2⟩)
    (h : Extends ((passTwice w).source.ask (.value (.param 1 i)) memo).2 memo') :
    ((passTwice w).source.callArgumentEffect site (i : Nat) memo').1 =
      ((passTwice w).source.ask (.value (.param 1 i)) memo).1 := by
  rw [callArgumentEffect_passTwice hsite, ask_of_extends h]

/-- The effect on `x` is that on the first argument. -/
theorem effectOnNode_passTwice {w : Fin 2} {site : Loc}
    (hsite : site = ⟨0, 0, 1⟩ ∨ site = ⟨0, 0, 2⟩) (memo : EffectMemo) :
    (passTwice w).effectOnNode (Memory.baseObjects (passTwice w).program) site
      (Value.result ⟨0, 0, 0⟩) memo = (passTwice w).source.ask (.value (.param 1 0)) memo := by
  refine Eq.trans ?_ (callArgumentEffect_passTwice hsite 0 memo)
  rcases hsite with rfl | rfl <;> rfl

theorem referrers_passTwice (w i : Fin 2) :
    (passTwice w).program.referrers (.param 1 i) = if i = w then [⟨1, 0, 0⟩] else [] := by
  revert w i
  decide

theorem useParts_passTwice (w : Fin 2) :
    (passTwice w).source.useParts ⟨1, 0, 0⟩ (.param 1 w) = [.const .writeOnly] :=
  match w with
  | 0 => rfl
  | 1 => rfl

theorem ask_passTwice_of_written {w : Fin 2} {memo : EffectMemo}
    (hvalue : memo[Query.value (.param 1 w)]? = .none)
    (huse : memo[Query.use ⟨1, 0, 0⟩ (.param 1 w)]? = .none) :
    ((passTwice w).source.ask (.value (.param 1 w)) memo).1 = .writeOnly := by
  have hreferrers : (passTwice w).source.program.referrers (.param 1 w) = [⟨1, 0, 0⟩] := by
    have := referrers_passTwice w w
    rwa [if_pos rfl] at this
  have hwrite : Effect.none.union .writeOnly = .writeOnly := rfl
  simp [ask, answer, parts, answerParts, answerPart, hreferrers, answerUses, useParts_passTwice,
    publishes, hwrite, hvalue, huse, Std.HashMap.getElem?_insert]

theorem ask_passTwice_of_unwritten {w i : Fin 2} {memo : EffectMemo} (hi : i ≠ w)
    (hvalue : memo[Query.value (.param 1 i)]? = .none) :
    (passTwice w).source.ask (.value (.param 1 i)) memo = (.none,
      (memo.insert (.value (.param 1 i)) .none).insert (.value (.param 1 i)) .none) := by
  have hreferrers : (passTwice w).source.program.referrers (.param 1 i) = [] := by
    have := referrers_passTwice w i
    rwa [if_neg hi] at this
  have hnone : Effect.none.union .none = .none := rfl
  simp [ask, answer, parts, answerParts, answerPart, hreferrers, answerUses, publishes, hnone,
    hvalue]

theorem globalAccesses_passTwice (w : Fin 2) :
    ((passTwice w).source.globalAccesses 1 ∅).1 = #[.change] := by
  have hdirect : (passTwice w).source.direct 1 = #[.change] := by
    revert w
    decide
  have hcalls : (passTwice w).source.calledFunctions 1 = [] := rfl
  simp [globalAccesses, collect, hdirect, hcalls, entry]

theorem accessesAt_passTwice {w : Fin 2} {s : State} {site : Loc}
    (hs : Extends ((passTwice w).source.globalAccesses 1 ∅).2 s.accesses)
    (hsite : (passTwice w).resolve site = some 1) :
    (passTwice w).accessesAt s site = #[.change] := by
  rw [accessesAt, hsite, Option.map_some, Option.getD_some, globalAccesses_of_extends hs]
  exact globalAccesses_passTwice w

end

/-! ## The main statement -/

section
variable {τ : Type} {f : Nat} {a b : Loc} {s : State}

/-- **Each object on which two calls conflict gets one edge** in a graph that keeps duplicates, and
    nothing else gets one. The objects are the globals that both callees access and one of them
    changes, and the base objects passed to both calls on which one of them has an effect that
    writes while that of the other one is not none. An edge agrees with what the calls do to its
    object, by the answers that were given before or are given now. -/
theorem analyzePair_addsPer (C : Context τ) (ha : a.func = f) (hb : b.func = f) (hab : a ≠ b)
    (hs : (s.graph f C.settings.dedup).dedup = false) :
    (∃ s', C.analyzePair .globals f (some a) (some b) s = .ok s' ∧
      Extends s.accesses s'.accesses ∧
      State.AddsPer f C.settings.dedup
        (fun g => g < C.program.globals.size ∧ (C.accessesAt s' a).get g ≠ .absent ∧
          (C.accessesAt s' b).get g ≠ .absent ∧
          ((C.accessesAt s' a).get g = .change ∨ (C.accessesAt s' b).get g = .change))
        (fun g => Reports C.program a b (fun site => accessEffect ((C.accessesAt s' site).get g))
          (fun _ => "G:" ++ C.program.valueName (.global g))) s s') ∧
    (C.pointers = some (Memory.baseObjects C.program) →
      ∃ s', C.analyzePair .pointerAlias f (some a) (some b) s = .ok s' ∧
        Extends s.effects s'.effects ∧
        State.AddsPer f C.settings.dedup
          (fun o : Value => C.Passes a o ∧ C.Passes b o ∧
            (C.effectOnNode (Memory.baseObjects C.program) a o s'.effects).1.Clashes
              (C.effectOnNode (Memory.baseObjects C.program) b o s'.effects).1)
          (fun o => Reports C.program a b
            (fun site => (C.effectOnNode (Memory.baseObjects C.program) site o s'.effects).1)
            (fun site => C.nameAt (Memory.baseObjects C.program) site o)) s s') := by
  have hfunc : a.func = b.func := ha.trans hb.symm
  constructor
  · exact ⟨C.globalConflicts f a b s, analyzePair_globals C ha hb s,
      (globalConflicts_spec C f a b s).1, globalConflicts_addsPer hfunc hab hs rfl⟩
  · intro hpointers
    refine ⟨C.aliasConflicts (Memory.baseObjects C.program) f a b s,
      analyzePair_pointerAlias hpointers ha hb s, (aliasConflicts_spec C _ f a b s).1, ?_⟩
    have hadds := aliasConflicts_addsPer (A := Memory.baseObjects C.program)
      (fun _ _ => same_baseObjects_iff) hfunc hab hs rfl
    exact hadds.congr fun o => and_congr argumentsAt_baseObjects_ne_nil_iff
      (and_congr_left' argumentsAt_baseObjects_ne_nil_iff)

/-- The two calls of `passTwice` conflict on one global and on one base object. -/
theorem analyzePair_addsPer_passTwice :
    let C := passTwice 0
    let s : State := ⟨(C.source.ask (.value (.param 1 0)) ∅).2, (C.source.globalAccesses 1 ∅).2, ∅⟩
    let a : Loc := ⟨0, 0, 1⟩
    let b : Loc := ⟨0, 0, 2⟩
    (s.graph 0 false).dedup = false ∧ C.pointers = some (Memory.baseObjects C.program) ∧
      (∃ s' e, C.analyzePair .globals 0 (some a) (some b) s = .ok s' ∧
        (s'.graph 0 false).edges.toList = [e] ∧ e.ends = {a, b}) ∧
      ∃ s' e, C.analyzePair .pointerAlias 0 (some a) (some b) s = .ok s' ∧
        (s'.graph 0 false).edges.toList = [e] ∧ e.ends = {a, b} := by
  intro C s a b
  have hs : (s.graph 0 false).dedup = false := by simp [s, State.graph, Graph.empty]
  have hedges : (s.graph 0 false).edges.toList = [] := by simp [s, State.graph, Graph.empty]
  obtain ⟨⟨s₁, hok₁, hext₁, hadds₁⟩, hpointers⟩ := analyzePair_addsPer C (f := 0) (a := a) (b := b)
    (s := s) rfl rfl (by decide) hs
  obtain ⟨s₂, hok₂, hext₂, hadds₂⟩ := hpointers rfl
  refine ⟨hs, rfl, ?_, ?_⟩
  · obtain ⟨e, hreports, he⟩ := hadds₁.single (o := 0) fun g => by
      rw [accessesAt_passTwice hext₁ rfl, accessesAt_passTwice hext₁ rfl]
      constructor
      · exact fun h => Nat.lt_one_iff.1 h.1
      · rintro rfl
        decide
    exact ⟨s₁, e, hok₁, he.trans (congrArg (· ++ [e]) hedges), hreports.ends_eq⟩
  · have hwrite : (C.source.ask (.value (.param 1 0)) s₂.effects).1 = .writeOnly := by
      rw [Effect.Source.ask_of_extends hext₂]
      exact ask_passTwice_of_written (w := 0) Std.HashMap.getElem?_empty Std.HashMap.getElem?_empty
    obtain ⟨e, hreports, he⟩ := hadds₂.single (o := Value.result ⟨0, 0, 0⟩) fun o => by
      rw [passes_passTwice_iff (Or.inl rfl), passes_passTwice_iff (Or.inr rfl)]
      constructor
      · exact fun h => h.1
      · rintro rfl
        refine ⟨rfl, rfl, ?_⟩
        rw [effectOnNode_passTwice (Or.inl rfl), effectOnNode_passTwice (Or.inr rfl), hwrite]
        exact Or.inl ⟨rfl, by decide⟩
    exact ⟨s₂, e, hok₂, he.trans (congrArg (· ++ [e]) hedges), hreports.ends_eq⟩

end

end Context

end Overlap
