/-
  Which aliases between the arguments of two calls count.

  Arguments are looked at through the memory nodes they point to, and of several
  at the same node only the first one counts, for the node that is kept and for
  the effect on it.

  * `analyzePair_first_arguments`: between base objects there is a dependence if
    the effects through the first arguments clash, and only then.  In
    `aliasConflicts_second_argument` both calls write through their second
    argument, and nothing is found;
  * `analyzePair_submits`: for nodes that may be the same, a pair of arguments is
    looked at through a pair of kept nodes, unless two kept nodes next to it are
    not the same.  This cannot happen if sameness is transitive, but does for
    sets of objects that overlap (`sharedNodes_of_overlapping`);
  * `tolerant_pointsTo`: the pointer analysis of a whole program has such nodes.
-/
import Overlap.Memory.PointsTo
import Overlap.Proofs.Conflicts

namespace Overlap

open Ssa Dependence

namespace Context

/-! ## First arguments -/

section
variable {τ : Type} {C : Context τ} {f : Nat} {a b site : Loc} {o : Value} {i : Nat}
  {memo : EffectMemo}

/-- The `i`-th argument of a call site is the first pointer-like one that is computed from the
    object `o`. -/
structure PassesFirst (C : Context τ) (site : Loc) (o : Value) (i : Nat) : Prop where
  isObject : Memory.isObject o
  own : ∃ x, (C.program.args site)[i]? = some x ∧ C.program.canPoint x ∧ C.program.baseObject x = o
  before : ∀ j < i, ∀ x, (C.program.args site)[j]? = some x → C.program.canPoint x →
    C.program.baseObject x ≠ o

theorem findIdx?_baseObjects_iff :
    ((C.program.args site).findIdx? fun x => C.program.canPoint x &&
      ((Memory.baseObjects C.program).node? x).any ((Memory.baseObjects C.program).same · o)) =
        some i ↔ C.PassesFirst site o i := by
  rw [List.findIdx?_eq_some_iff_getElem]
  simp only [points_baseObjects_iff]
  constructor
  · rintro ⟨hi, ⟨hpoint, hbase, ho⟩, hbefore⟩
    refine ⟨ho, ⟨_, List.getElem?_eq_getElem hi, hpoint, hbase⟩, fun j hj x hx hpoint hbase => ?_⟩
    obtain ⟨_, rfl⟩ := List.getElem?_eq_some_iff.1 hx
    exact hbefore j hj ⟨hpoint, hbase, ho⟩
  · rintro ⟨ho, ⟨x, hx, hpoint, hbase⟩, hbefore⟩
    obtain ⟨hi, rfl⟩ := List.getElem?_eq_some_iff.1 hx
    refine ⟨hi, ⟨hpoint, hbase, ho⟩, fun j hj h => ?_⟩
    exact hbefore j hj _ (List.getElem?_eq_getElem (hj.trans hi)) h.1 h.2.1

/-- The effect on an object is that on the first argument computed from it. -/
theorem effectOnNode_of_passesFirst (h : C.PassesFirst site o i) (memo : EffectMemo) :
    C.effectOnNode (Memory.baseObjects C.program) site o memo =
      C.source.callArgumentEffect site i memo := by
  unfold effectOnNode
  rw [findIdx?_baseObjects_iff.2 h]

theorem passes_iff_exists_first : C.Passes site o ↔ ∃ i, C.PassesFirst site o i := by
  simp only [← findIdx?_baseObjects_iff, ← Option.isSome_iff_exists, List.findIdx?_isSome,
    List.any_eq_true, points_baseObjects_iff]
  constructor
  · rintro ⟨ho, x, hx, hpoint, hbase⟩
    exact ⟨x, hx, hpoint, hbase, ho⟩
  · rintro ⟨x, hx, hpoint, hbase, ho⟩
    exact ⟨ho, x, hx, hpoint, hbase⟩

/-- Where nodes are the same only if they are equal, the edges are the conflicts on the nodes that
    arguments of both calls point to. -/
theorem mem_aliasEdges_iff {A : Memory.PointerAnalysis} (hA : ∀ m n, A.same m n ↔ m = n) {e : Edge} :
    e ∈ (C.sharedNodes A a b).filterMap (C.aliasEdge? A a b memo) ↔
      ∃ n, C.argumentsAt A a n ≠ [] ∧ C.argumentsAt A b n ≠ [] ∧
        C.aliasEdge? A a b memo ((n, C.nameAt A a n), (n, C.nameAt A b n)) = some e := by
  obtain ⟨nodes, -, hmem, hshared⟩ := sharedNodes_eq_map hA C a b
  rw [hshared, List.filterMap_map, List.mem_filterMap]
  refine exists_congr fun n => ?_
  rw [hmem, and_assoc]
  rfl

/-- The conflict of two calls on an object, by the effects on their arguments `i` and `j`. -/
def argumentEdge? (C : Context τ) (a b : Loc) (memo : EffectMemo) (o : Value) (i j : Nat) :
    Option Edge :=
  conflict? C.program a b (C.source.callArgumentEffect a i memo).1
    (C.source.callArgumentEffect b j memo).1 (C.nameAt (Memory.baseObjects C.program) a o)
    (C.nameAt (Memory.baseObjects C.program) b o)

theorem mem_baseEdges_iff {e : Edge} :
    e ∈ (C.sharedNodes (Memory.baseObjects C.program) a b).filterMap
        (C.aliasEdge? (Memory.baseObjects C.program) a b memo) ↔
      ∃ o i j, C.PassesFirst a o i ∧ C.PassesFirst b o j ∧ C.argumentEdge? a b memo o i j = some e := by
  have hedge : ∀ {o i j}, C.PassesFirst a o i → C.PassesFirst b o j →
      C.aliasEdge? (Memory.baseObjects C.program) a b memo
        ((o, C.nameAt (Memory.baseObjects C.program) a o),
          (o, C.nameAt (Memory.baseObjects C.program) b o)) = C.argumentEdge? a b memo o i j := by
    intro o i j hi hj
    unfold aliasEdge? argumentEdge?
    rw [effectOnNode_of_passesFirst hi, effectOnNode_of_passesFirst hj]
  refine (mem_aliasEdges_iff fun _ _ => same_baseObjects_iff).trans ⟨?_, ?_⟩
  · rintro ⟨o, ha, hb, he⟩
    obtain ⟨i, hi⟩ := passes_iff_exists_first.1 (argumentsAt_baseObjects_ne_nil_iff.1 ha)
    obtain ⟨j, hj⟩ := passes_iff_exists_first.1 (argumentsAt_baseObjects_ne_nil_iff.1 hb)
    exact ⟨o, i, j, hi, hj, (hedge hi hj).symm.trans he⟩
  · rintro ⟨o, i, j, hi, hj, he⟩
    refine ⟨o, ?_, ?_, (hedge hi hj).trans he⟩
    · exact argumentsAt_baseObjects_ne_nil_iff.2 (passes_iff_exists_first.2 ⟨i, hi⟩)
    · exact argumentsAt_baseObjects_ne_nil_iff.2 (passes_iff_exists_first.2 ⟨j, hj⟩)

/-- **The first arguments decide.** The analysis of base objects records an edge for each object
    whose first arguments at both calls have effects that clash, and for no other ones: each edge is
    the conflict on such an object. What was answered about arguments before stays. -/
theorem analyzePair_first_arguments (C : Context τ)
    (hpointers : C.pointers = some (Memory.baseObjects C.program)) (ha : a.func = f)
    (hb : b.func = f) (s : State) :
    ∃ s' es, C.analyzePair .pointerAlias f (some a) (some b) s = .ok s' ∧
      s'.graphs[f]? = some ((s.graph f C.settings.dedup).recordEdges es) ∧
      (∀ site i memo, Extends (C.source.callArgumentEffect site i memo).2 s.effects →
        (C.source.callArgumentEffect site i s'.effects).1 =
          (C.source.callArgumentEffect site i memo).1) ∧
      (∀ o i j, C.PassesFirst a o i → C.PassesFirst b o j →
        (C.source.callArgumentEffect a i s'.effects).1.Clashes
          (C.source.callArgumentEffect b j s'.effects).1 →
        ∃ e ∈ es, C.argumentEdge? a b s'.effects o i j = some e ∧
          e ∈ ((s.graph f C.settings.dedup).recordEdges es).edges ∧ e.ends = {a, b}) ∧
      ∀ e ∈ es, e.ends = {a, b} ∧ ∃ o i j, C.PassesFirst a o i ∧ C.PassesFirst b o j ∧
        (C.source.callArgumentEffect a i s'.effects).1.Clashes
          (C.source.callArgumentEffect b j s'.effects).1 ∧
        C.argumentEdge? a b s'.effects o i j = some e := by
  obtain ⟨hext, hgraph⟩ := aliasConflicts_spec C (Memory.baseObjects C.program) f a b s
  refine ⟨_, _, analyzePair_pointerAlias hpointers ha hb s, hgraph, fun site i memo h => ?_,
    fun o i j hi hj hclash => ?_, fun e he => ?_⟩
  · rw [Effect.Source.callArgumentEffect_of_extends (h.trans hext)]
  · obtain ⟨e, he⟩ := Option.isSome_iff_exists.1 (isSome_conflict?_iff.2 hclash)
    have hmem := mem_baseEdges_iff.2 ⟨o, i, j, hi, hj, he⟩
    exact ⟨e, hmem, he, Graph.mem_edges_recordEdges hmem (withoutIncoming_conflict? he),
      ends_conflict? he⟩
  · obtain ⟨o, i, j, hi, hj, he⟩ := mem_baseEdges_iff.1 he
    have hsome : (C.argumentEdge? a b _ o i j).isSome := Option.isSome_of_eq_some he
    exact ⟨ends_conflict? he, o, i, j, hi, hj, isSome_conflict?_iff.1 hsome, he⟩

end

theorem passesFirst_passTwice_iff {w : Fin 2} {site : Loc} {o : Value} {i : Nat}
    (hsite : site = ⟨0, 0, 1⟩ ∨ site = ⟨0, 0, 2⟩) :
    (passTwice w).PassesFirst site o i ↔ o = .result ⟨0, 0, 0⟩ ∧ i = 0 := by
  have hfirst : (passTwice w).PassesFirst site (.result ⟨0, 0, 0⟩) 0 := by
    refine ⟨rfl, ⟨.result ⟨0, 0, 0⟩, ?_, rfl, rfl⟩, fun j hj => absurd hj (Nat.not_lt_zero j)⟩
    rcases hsite with rfl | rfl <;> rfl
  constructor
  · intro h
    obtain rfl := (passes_passTwice_iff hsite).1 (passes_iff_exists_first.2 ⟨i, h⟩)
    have hi := (findIdx?_baseObjects_iff.2 h).symm.trans (findIdx?_baseObjects_iff.2 hfirst)
    exact ⟨rfl, Option.some.inj hi⟩
  · rintro ⟨rfl, rfl⟩
    exact hfirst

/-- Both calls write `x` through their first argument, and a dependence is found. -/
theorem analyzePair_first_arguments_passTwice :
    let C := passTwice 0
    let a : Loc := ⟨0, 0, 1⟩
    let b : Loc := ⟨0, 0, 2⟩
    let s : State := { State.fresh with effects := (C.source.ask (.value (.param 1 0)) ∅).2 }
    C.pointers = some (Memory.baseObjects C.program) ∧
      C.PassesFirst a (.result ⟨0, 0, 0⟩) 0 ∧ C.PassesFirst b (.result ⟨0, 0, 0⟩) 0 ∧
      ∃ s', C.analyzePair .pointerAlias 0 (some a) (some b) s = .ok s' ∧
        (C.source.callArgumentEffect a (0 : Nat) s'.effects).1 = .writeOnly ∧
        (C.source.callArgumentEffect b (0 : Nat) s'.effects).1 = .writeOnly ∧
        ∃ g, s'.graphs[0]? = some g ∧ ∃ e ∈ g.edges, e.ends = {a, b} := by
  intro C a b s
  have ha : C.PassesFirst a (.result ⟨0, 0, 0⟩) 0 :=
    (passesFirst_passTwice_iff (Or.inl rfl)).2 ⟨rfl, rfl⟩
  have hb : C.PassesFirst b (.result ⟨0, 0, 0⟩) 0 :=
    (passesFirst_passTwice_iff (Or.inr rfl)).2 ⟨rfl, rfl⟩
  obtain ⟨s', es, hok, hgraph, hkeep, hedge, -⟩ :=
    analyzePair_first_arguments C rfl (f := 0) (a := a) (b := b) rfl rfl s
  have hwrite : ∀ site, site = a ∨ site = b →
      (C.source.callArgumentEffect site (0 : Nat) s'.effects).1 = .writeOnly := by
    intro site hsite
    have hasked := callArgumentEffect_passTwice (w := 0) hsite 0 ∅
    refine (hkeep site (0 : Nat) ∅ (congrArg Prod.snd hasked ▸ .refl _)).trans ?_
    refine (congrArg Prod.fst hasked).trans ?_
    exact ask_passTwice_of_written Std.HashMap.getElem?_empty Std.HashMap.getElem?_empty
  have hclash : (C.source.callArgumentEffect a (0 : Nat) s'.effects).1.Clashes
      (C.source.callArgumentEffect b (0 : Nat) s'.effects).1 := by
    rw [hwrite a (Or.inl rfl), hwrite b (Or.inr rfl)]
    exact Or.inl ⟨rfl, by decide⟩
  obtain ⟨e, -, -, he, hends⟩ := hedge _ 0 0 ha hb hclash
  exact ⟨rfl, ha, hb, s', hok, hwrite a (Or.inl rfl), hwrite b (Or.inr rfl), _, hgraph, e, he, hends⟩

/-- Both calls write `x` through their second argument, and no dependence is found. -/
theorem aliasConflicts_second_argument :
    let C := passTwice 1
    let x : Value := .result ⟨0, 0, 0⟩
    let a : Loc := ⟨0, 0, 1⟩
    let b : Loc := ⟨0, 0, 2⟩
    let s : State := { State.fresh with
      effects := (C.source.ask (.value (.param 1 1)) (C.source.ask (.value (.param 1 0)) ∅).2).2 }
    C.pointers = some (Memory.baseObjects C.program) ∧ C.program.canPoint x ∧
      (C.program.args a)[1]? = some x ∧ (C.program.args b)[1]? = some x ∧
      ∃ s', C.analyzePair .pointerAlias 0 (some a) (some b) s = .ok s' ∧
        (C.source.callArgumentEffect a (1 : Nat) s'.effects).1 = .writeOnly ∧
        (C.source.callArgumentEffect b (1 : Nat) s'.effects).1 = .writeOnly ∧
        s'.graphs[0]? = some (.empty 0 false) := by
  intro C x a b s
  obtain ⟨hext, hgraph⟩ := aliasConflicts_spec C (Memory.baseObjects C.program) 0 a b s
  have hnone : C.source.ask (.value (.param 1 0)) ∅ = (.none,
      ((∅ : EffectMemo).insert (.value (.param 1 0)) .none).insert (.value (.param 1 0)) .none) :=
    ask_passTwice_of_unwritten (w := 1) (i := 0) (by decide) Std.HashMap.getElem?_empty
  have hwrite : (C.source.ask (.value (.param 1 1)) (C.source.ask (.value (.param 1 0)) ∅).2).1 =
      .writeOnly := by
    rw [hnone]
    exact ask_passTwice_of_written (w := 1) (by simp) (by simp)
  have hedges : (C.sharedNodes (Memory.baseObjects C.program) a b).filterMap
      (C.aliasEdge? (Memory.baseObjects C.program) a b
        (C.aliasConflicts (Memory.baseObjects C.program) 0 a b s).effects) = [] := by
    refine List.eq_nil_iff_forall_not_mem.2 fun e he => ?_
    obtain ⟨o, i, j, hi, hj, he⟩ := mem_baseEdges_iff.1 he
    obtain ⟨-, rfl⟩ := (passesFirst_passTwice_iff (Or.inl rfl)).1 hi
    obtain ⟨-, rfl⟩ := (passesFirst_passTwice_iff (Or.inr rfl)).1 hj
    -- the first arguments are not written, neither before the analysis nor after it
    have hfirst := (Effect.Source.ask_extends C.source (.value (.param 1 1)) _).trans hext
    have hunwritten : ∀ site, site = a ∨ site = b → (C.source.callArgumentEffect site (0 : Nat)
        (C.aliasConflicts (Memory.baseObjects C.program) 0 a b s).effects).1 = .none :=
      fun site hsite => (callArgumentEffect_passTwice_of_extends (i := 0) hsite hfirst).trans
        (congrArg Prod.fst hnone)
    have hclash := isSome_conflict?_iff.1 (Option.isSome_of_eq_some he)
    rw [hunwritten a (Or.inl rfl), hunwritten b (Or.inr rfl)] at hclash
    simp [Effect.Clashes, Effect.none] at hclash
  rw [hedges] at hgraph
  refine ⟨rfl, rfl, rfl, rfl, _, rfl, ?_, ?_, hgraph.trans ?_⟩
  · exact (callArgumentEffect_passTwice_of_extends (i := 1) (Or.inl rfl) hext).trans hwrite
  · exact (callArgumentEffect_passTwice_of_extends (i := 1) (Or.inr rfl) hext).trans hwrite
  · simp [s, State.graph, State.fresh, Graph.recordEdges, C, passTwice]

end Context

/-! ## Nodes that may be the same -/

theorem mem_of_getElem?_ofList {α β : Type} [BEq α] [Hashable α] [LawfulBEq α] [LawfulHashable α]
    {l : List (α × β)} {x : α} {v : β} (h : (Std.HashMap.ofList l)[x]? = some v) : (x, v) ∈ l := by
  rw [Std.HashMap.ofList_eq_insertMany_empty, Std.HashMap.getElem?_insertMany_list,
    Std.HashMap.getElem?_empty, Option.or_none, List.findSomeRev?_eq_findSome?_reverse] at h
  obtain ⟨⟨y, w⟩, hmem, hw⟩ := List.exists_of_findSome?_eq_some h
  dsimp only at hw
  split_ifs at hw with hy
  cases hw
  obtain rfl := eq_of_beq hy
  exact List.mem_reverse.1 hmem

section
variable {α : Type} [BEq α] [LawfulBEq α] {xs ys : List α}

theorem any_contains_self (h : xs ≠ []) : xs.any xs.contains := by
  obtain ⟨x, hx⟩ := List.exists_mem_of_ne_nil _ h
  exact List.any_eq_true.2 ⟨x, hx, List.contains_iff_mem.2 hx⟩

theorem any_contains_comm (h : xs.any ys.contains) : ys.any xs.contains := by
  obtain ⟨x, hx, hy⟩ := List.any_eq_true.1 h
  exact List.any_eq_true.2 ⟨x, List.contains_iff_mem.1 hy, List.contains_iff_mem.2 hx⟩

end

namespace Memory

/-- Sameness is reflexive, on the nodes that values point to, and symmetric. -/
structure PointerAnalysis.Tolerant (A : PointerAnalysis) : Prop where
  refl : ∀ x n, A.node? x = some n → A.same n n
  symm : ∀ m n, A.same m n → A.same n m

theorem pointsTo_ne_nil {P : Program} {inScope : Nat → Bool} {x : Value} {n : List Target}
    (h : (pointsTo P inScope).node? x = some n) : n ≠ [] := by
  obtain ⟨v, -, hv⟩ := List.mem_filterMap.1 (mem_of_getElem?_ofList h)
  split at hv
  · cases hv
  · split at hv
    · cases hv
    · next hne =>
      cases hv
      exact hne

/-- **The nodes of a whole program** are sets of objects, which are the same if they overlap. -/
theorem tolerant_pointsTo (P : Program) (inScope : Nat → Bool) :
    (pointsTo P inScope).Tolerant where
  refl _ _ hn := any_contains_self (pointsTo_ne_nil hn)
  symm _ _ hmn := any_contains_comm hmn

end Memory

namespace Context

section
variable {τ : Type} {C : Context τ} {A : Memory.PointerAnalysis} {f : Nat} {a b site : Loc}
  {m n : A.Node}

/-- A pointer-like argument of a call site points to `n`. -/
def Points (C : Context τ) (A : Memory.PointerAnalysis) (site : Loc) (n : A.Node) : Prop :=
  ∃ x ∈ C.program.args site, C.program.canPoint x ∧ A.node? x = some n

/-- The nodes that are kept are nodes of arguments. -/
theorem points_of_mem_argumentNodes {k : A.Node × String} (hk : k ∈ C.argumentNodes A site) :
    C.Points A site k.1 := by
  rw [argumentNodes_eq] at hk
  obtain ⟨x, hx, hpoint, hn, -⟩ := mem_pointees_iff.1 ((representatives_sublist _ _).subset hk)
  exact ⟨x, hx, hpoint, hn⟩

/-- Each node of an argument is the same as one that is kept. -/
theorem exists_mem_argumentNodes (hA : A.Tolerant) (hn : C.Points A site n) :
    ∃ k ∈ C.argumentNodes A site, A.same k.1 n := by
  obtain ⟨x, hx, hpoint, hn⟩ := hn
  have hmem : (n, C.program.displayName x) ∈ C.pointees A site :=
    mem_pointees_iff.2 ⟨x, hx, hpoint, hn, rfl⟩
  rw [argumentNodes_eq]
  obtain ⟨k, hk, hkn⟩ :=
    exists_representative (r := fun p q => A.same p.1 q.1) (hA.refl x n hn) hmem
  exact ⟨k, hk, hkn⟩

/-- Nodes of arguments are looked at through two nodes that are kept, unless kept nodes next to
    them are not the same. -/
theorem exists_mem_sharedNodes_or (hA : A.Tolerant) (hm : C.Points A a m) (hn : C.Points A b n) :
    (∃ p ∈ C.sharedNodes A a b, A.same p.1.1 m ∧ A.same n p.2.1) ∨
      ∃ k ∈ C.argumentNodes A a, ∃ l ∈ C.argumentNodes A b,
        A.same k.1 m ∧ A.same n l.1 ∧ ¬ A.same k.1 l.1 := by
  obtain ⟨k, hk, hkm⟩ := exists_mem_argumentNodes hA hm
  obtain ⟨l, hl, hln⟩ := exists_mem_argumentNodes hA hn
  by_cases hkl : A.same k.1 l.1
  · exact Or.inl ⟨(k, l), mem_sharedNodes_iff.2 ⟨hk, hl, hkl⟩, hkm, hA.symm _ _ hln⟩
  · exact Or.inr ⟨k, hk, l, hl, hkm, hA.symm _ _ hln, hkl⟩

/-- **Which aliases are looked at.** For an analysis with reflexive and symmetric sameness, the
    recorded edges are the conflicts on pairs of kept nodes, each the nodes of two arguments that
    may be the same memory. Two arguments that may be the same memory, with the nodes `m` and `n`,
    are looked at through such a pair, or else there are kept nodes `k` and `l` with `k`, `m`, `n`
    and `l` the same one after the other, but not `k` and `l`. So none is lost if sameness is
    transitive. -/
theorem analyzePair_submits (C : Context τ) (hpointers : C.pointers = some A) (hA : A.Tolerant)
    (ha : a.func = f) (hb : b.func = f) (s : State) :
    ∃ s', C.analyzePair .pointerAlias f (some a) (some b) s = .ok s' ∧
      s'.graphs[f]? = some ((s.graph f C.settings.dedup).recordEdges
        ((C.sharedNodes A a b).filterMap (C.aliasEdge? A a b s'.effects))) ∧
      (∀ p ∈ C.sharedNodes A a b,
        C.Points A a p.1.1 ∧ C.Points A b p.2.1 ∧ A.same p.1.1 p.2.1) ∧
      (∀ m n, C.Points A a m → C.Points A b n → A.same m n →
        (∃ p ∈ C.sharedNodes A a b, A.same p.1.1 m ∧ A.same n p.2.1) ∨
          ∃ k ∈ C.argumentNodes A a, ∃ l ∈ C.argumentNodes A b,
            A.same k.1 m ∧ A.same n l.1 ∧ ¬ A.same k.1 l.1) ∧
      ((∀ l m n, A.same l m → A.same m n → A.same l n) →
        ∀ m n, C.Points A a m → C.Points A b n → A.same m n →
          ∃ p ∈ C.sharedNodes A a b, A.same p.1.1 m ∧ A.same n p.2.1) := by
  refine ⟨C.aliasConflicts A f a b s, analyzePair_pointerAlias hpointers ha hb s,
    (aliasConflicts_spec C A f a b s).2, fun p hp => ?_,
    fun m n hm hn _ => exists_mem_sharedNodes_or hA hm hn, fun htrans m n hm hn hmn => ?_⟩
  · obtain ⟨hk, hl, hsame⟩ := mem_sharedNodes_iff.1 hp
    exact ⟨points_of_mem_argumentNodes hk, points_of_mem_argumentNodes hl, hsame⟩
  · rcases exists_mem_sharedNodes_or hA hm hn with h | ⟨k, -, l, -, hkm, hnl, hkl⟩
    · exact h
    · exact absurd (htrans _ _ _ hkm (htrans _ _ _ hmn hnl)) hkl

end

/-! ## Sets that overlap one after the other -/

/-- `x` points to one object, `z` to another one and `y` to both. -/
def overlapping : Memory.PointerAnalysis where
  Node := { objects : List String // objects ≠ [] }
  node?
    | .result ⟨0, 0, 0⟩ => some ⟨["m"], by decide⟩
    | .result ⟨0, 0, 1⟩ => some ⟨["m", "n"], by decide⟩
    | .result ⟨0, 0, 2⟩ => some ⟨["n"], by decide⟩
    | _ => none
  same m n := m.1.any n.1.contains
  labels n := n.1

theorem tolerant_overlapping : overlapping.Tolerant where
  refl _ n _ := any_contains_self n.2
  symm _ _ hmn := any_contains_comm hmn

/-- `main` passes `first` and `second` to a function that writes through both, and `z` to one that
    writes through it. -/
def passOverlapping (first second : Value) : Context Float where
  program := smallProgram #[] #[
    straightLine "main" #[] #[
      ⟨.alloc "x" false, some ⟨0, .pointer (.basic "int")⟩, none⟩,
      ⟨.alloc "y" false, some ⟨1, .pointer (.basic "int")⟩, none⟩,
      ⟨.alloc "z" false, some ⟨2, .pointer (.basic "int")⟩, none⟩,
      callTo 3 1 [first, second], callTo 4 2 [.result ⟨0, 0, 2⟩], ⟨.ret [], none, none⟩],
    straightLine "both" #[⟨"p", .pointer (.basic "int")⟩, ⟨"q", .pointer (.basic "int")⟩] #[
      ⟨.store (.param 1 0) (.const 0), none, none⟩, ⟨.store (.param 1 1) (.const 0), none, none⟩,
      ⟨.ret [], none, none⟩],
    straightLine "one" #[⟨"p", .pointer (.basic "int")⟩] #[
      ⟨.store (.param 2 0) (.const 0), none, none⟩, ⟨.ret [], none, none⟩]]
  resolve
    | ⟨0, 0, 3⟩ => some 1
    | ⟨0, 0, 4⟩ => some 2
    | _ => none
  pointers := some overlapping
  profile := none
  settings := ⟨.modRef, false, false, fun _ => true, .default⟩

/-- If `y` is passed first, it is looked at together with `z`. -/
theorem analyzePair_submits_overlapping :
    let C := passOverlapping (.result ⟨0, 0, 1⟩) (.result ⟨0, 0, 0⟩)
    let a : Loc := ⟨0, 0, 3⟩
    let b : Loc := ⟨0, 0, 4⟩
    C.pointers = some overlapping ∧ overlapping.Tolerant ∧
      (C.sharedNodes overlapping a b).map (fun p => (p.1.2, p.2.2)) = [("y", "z")] ∧
      ∃ s', C.analyzePair .pointerAlias 0 (some a) (some b) .fresh = .ok s' ∧
        s'.graphs[0]? = some ((State.fresh.graph 0 false).recordEdges
          ((C.sharedNodes overlapping a b).filterMap (C.aliasEdge? overlapping a b s'.effects))) := by
  intro C a b
  obtain ⟨s', hok, hgraph, -⟩ := analyzePair_submits C (f := 0) (a := a) (b := b) rfl
    tolerant_overlapping rfl rfl .fresh
  exact ⟨rfl, tolerant_overlapping, rfl, s', hok, hgraph⟩

/-- If `x` is passed first, it stands for `y`, and no pair of nodes is looked at, although `y` and
    `z` may be the same memory. -/
theorem sharedNodes_of_overlapping :
    let C := passOverlapping (.result ⟨0, 0, 0⟩) (.result ⟨0, 0, 1⟩)
    let a : Loc := ⟨0, 0, 3⟩
    let b : Loc := ⟨0, 0, 4⟩
    C.pointers = some overlapping ∧ overlapping.Tolerant ∧
      (∃ m n, C.Points overlapping a m ∧ C.Points overlapping b n ∧ overlapping.same m n) ∧
      C.sharedNodes overlapping a b = [] ∧
      ∃ s', C.analyzePair .pointerAlias 0 (some a) (some b) .fresh = .ok s' ∧
        s'.graphs[0]? = some (.empty 0 false) := by
  intro C a b
  have hy : C.Points overlapping a ⟨["m", "n"], by decide⟩ :=
    ⟨.result ⟨0, 0, 1⟩, by decide, rfl, rfl⟩
  have hz : C.Points overlapping b ⟨["n"], by decide⟩ := ⟨.result ⟨0, 0, 2⟩, by decide, rfl, rfl⟩
  have hshared : C.sharedNodes overlapping a b = [] := rfl
  have hgraph := (aliasConflicts_spec C overlapping 0 a b .fresh).2
  rw [hshared, List.filterMap_nil] at hgraph
  refine ⟨rfl, tolerant_overlapping, ⟨_, _, hy, hz, by decide⟩, hshared, _, rfl, hgraph.trans ?_⟩
  simp [State.graph, State.fresh, Graph.recordEdges, C, passOverlapping]

end Context

end Overlap
