/-
  The call tree of an analysis.

  * `CallTree.Presents`: a tree presents a relation between functions, and all
    ways to ask for its edges agree;
  * `presents_build`: a tree presents the calls it was built from;
  * `Context.Calls`: a function calls another one of an analysed package at a
    site whose callee is known;
  * `callTree_presents`: the call tree of an analysis has the functions that can
    be reached from its root by such calls, and presents these.
-/
import Mathlib.Logic.Relation
import Overlap.Analysis.Context
import Overlap.Proofs.PostOrder
import Overlap.Proofs.Program

namespace Overlap

open Ssa

/-! ## Trees -/

namespace CallTree

/-- The tree `t` presents the relation `Calls` on some functions: these are its nodes, numbered by
    their positions, and its edges are the pairs in the relation. -/
structure Presents (t : CallTree) (functions : List Nat) (Calls : Nat → Nat → Prop) : Prop where
  keys_eq : t.keys = List.range functions.length
  function?_eq : ∀ i, t.function? i = functions[i]?
  number?_iff : ∀ f i, t.number? f = some i ↔ functions[i]? = some f
  calls_iff : ∀ i j, t.calls i j ↔
    ∃ f g, functions[i]? = some f ∧ functions[j]? = some g ∧ Calls f g
  mem_callees_iff : ∀ i j, j ∈ t.callees i ↔ t.calls i j
  mem_callers_iff : ∀ i j, i ∈ t.callers j ↔ t.calls i j
  connected_iff : ∀ i j, t.connected i j ↔ t.calls i j ∨ t.calls j i
  isSome_edge?_iff : ∀ i j, (t.edge? i j).isSome ↔ t.calls i j
  edge?_ends : ∀ i j e, t.edge? i j = some e → e.source.id = i ∧ e.target.id = j ∧
    functions[i]? = some e.source.func ∧ functions[j]? = some e.target.func
  /-- A visit passes the callees in order, up to the one where it is stopped. -/
  visit_eq : ∀ i n, t.visit i n =
    if 0 < n ∧ n ≤ (t.callees i).length then ((t.callees i).take n, true) else (t.callees i, false)
  callees_increasing : ∀ i, (t.callees i).Pairwise (· < ·)
  callers_increasing : ∀ j, (t.callers j).Pairwise (· < ·)

theorem mem_numbersIn_iff {order fs : List Nat} {j : Nat} :
    j ∈ numbersIn order fs ↔ ∃ g, order[j]? = some g ∧ g ∈ fs := by
  rw [numbersIn, List.mem_filter, List.mem_range]
  cases hj : order[j]? with
  | none => simp
  | some g =>
    have hlt : j < order.length := (List.getElem?_eq_some_iff.1 hj).1
    simp [hlt]

section
variable (callees : Nat → List Nat) (size root : Nat)

theorem keys_build : (build callees size root).keys =
    List.range (Graph.postOrder callees size root).length := rfl

theorem size_order_build :
    (build callees size root).order.size = (Graph.postOrder callees size root).length := by
  simp [build]

theorem function?_build (i : Nat) :
    (build callees size root).function? i = (Graph.postOrder callees size root)[i]? := by
  unfold function? hasNode
  rw [keys_build]
  by_cases hi : i < (Graph.postOrder callees size root).length
  · simp [build, hi]
  · simp [build, Nat.le_of_not_lt hi]

theorem callees_build (i : Nat) : (build callees size root).callees i =
    (((Graph.postOrder callees size root)[i]?).map fun f =>
      numbersIn (Graph.postOrder callees size root) (callees f)).getD [] := by
  simp [CallTree.callees, build]

theorem mem_callees_build_iff {i j : Nat} :
    j ∈ (build callees size root).callees i ↔
      ∃ f g, (Graph.postOrder callees size root)[i]? = some f ∧
        (Graph.postOrder callees size root)[j]? = some g ∧ g ∈ callees f := by
  rw [callees_build]
  cases (Graph.postOrder callees size root)[i]? with
  | none => simp
  | some f => simp [mem_numbersIn_iff]

theorem callees_build_increasing (i : Nat) :
    ((build callees size root).callees i).Pairwise (· < ·) := by
  rw [callees_build]
  cases (Graph.postOrder callees size root)[i]? with
  | none => exact .nil
  | some f => exact List.pairwise_lt_range.filter _

theorem number?_build_iff {f i : Nat} :
    (build callees size root).number? f = some i ↔
      (Graph.postOrder callees size root)[i]? = some f := by
  have hnodup := Graph.nodup_postOrder callees size root
  simp only [number?, build, List.findIdx?_toArray, List.findIdx?_eq_some_iff_getElem,
    List.getElem?_eq_some_iff, beq_iff_eq]
  constructor
  · rintro ⟨hi, hf, -⟩
    exact ⟨hi, hf⟩
  · rintro ⟨hi, hf⟩
    refine ⟨hi, hf, fun j hj heq => ?_⟩
    exact Nat.ne_of_lt hj (hnodup.getElem_inj_iff.1 (heq.trans hf.symm))

theorem calls_build_iff {i j : Nat} :
    (build callees size root).calls i j ↔
      ∃ f g, (Graph.postOrder callees size root)[i]? = some f ∧
        (Graph.postOrder callees size root)[j]? = some g ∧ g ∈ callees f :=
  List.contains_iff_mem.trans (mem_callees_build_iff callees size root)

theorem edge?_build {i j : Nat} (h : (build callees size root).calls i j) :
    ∃ f g, (Graph.postOrder callees size root)[i]? = some f ∧
      (Graph.postOrder callees size root)[j]? = some g ∧
      (build callees size root).edge? i j = some ⟨⟨i, f⟩, ⟨j, g⟩⟩ := by
  obtain ⟨f, g, hf, hg, -⟩ := (calls_build_iff callees size root).1 h
  refine ⟨f, g, hf, hg, ?_⟩
  simp [edge?, h, node?, function?_build, hf, hg]

theorem edge?_eq_none {t : CallTree} {i j : Nat} (h : ¬ t.calls i j) : t.edge? i j = none :=
  if_neg h

/-- Nothing is called by what is not a node. -/
theorem visit_build (i n : Nat) :
    let all := (build callees size root).callees i
    (build callees size root).visit i n =
      if 0 < n ∧ n ≤ all.length then (all.take n, true) else (all, false) := by
  have hall : (if (build callees size root).hasNode i then (build callees size root).callees i
      else []) = (build callees size root).callees i := by
    split_ifs with hnode
    · rfl
    · have hi : (Graph.postOrder callees size root)[i]? = none := by
        simpa [hasNode, keys_build] using hnode
      rw [callees_build, hi]
      rfl
  unfold visit
  rw [hall]
  simp

/-- **A tree presents the calls it was built from.** -/
theorem presents_build :
    (build callees size root).Presents (Graph.postOrder callees size root)
      fun f g => g ∈ callees f where
  keys_eq := rfl
  function?_eq := function?_build callees size root
  number?_iff f i := number?_build_iff callees size root
  calls_iff i j := calls_build_iff callees size root
  mem_callees_iff i j := List.contains_iff_mem.symm
  mem_callers_iff i j := by
    rw [callers, List.mem_filter, keys_build, List.mem_range]
    refine ⟨fun h => h.2, fun h => ⟨?_, h⟩⟩
    obtain ⟨f, g, hf, -⟩ := (calls_build_iff callees size root).1 h
    exact (List.getElem?_eq_some_iff.1 hf).1
  connected_iff i j := by rw [connected, Bool.or_eq_true]
  isSome_edge?_iff i j := by
    by_cases h : (build callees size root).calls i j
    · obtain ⟨f, g, -, -, he⟩ := edge?_build callees size root h
      simp [he, h]
    · simp [edge?_eq_none h, h]
  edge?_ends i j e he := by
    by_cases h : (build callees size root).calls i j
    · obtain ⟨f, g, hf, hg, he'⟩ := edge?_build callees size root h
      obtain rfl := Option.some.inj (he.symm.trans he')
      exact ⟨rfl, rfl, hf, hg⟩
    · simp [edge?_eq_none h] at he
  visit_eq := visit_build callees size root
  callees_increasing := callees_build_increasing callees size root
  callers_increasing j := List.pairwise_lt_range.filter _

end

end CallTree

/-! ## The call tree of an analysis -/

namespace Context

variable {τ : Type} {C : Context τ}

/-- `f` calls `g` at a site whose callee is known, and the package of `g` is analysed. -/
def Calls (C : Context τ) (f g : Nat) : Prop :=
  ∃ site ∈ C.program.callSites f, C.resolve site = some g ∧
    C.settings.inScope (C.program.packagePath g)

theorem mem_callees_iff {f g : Nat} : g ∈ C.callees f ↔ C.Calls f g := by
  unfold callees candidates Calls
  simp only [List.mem_eraseDups, List.mem_filter, List.mem_filterMap]
  constructor
  · rintro ⟨⟨site, ⟨hsite, -⟩, hg⟩, hscope⟩
    exact ⟨site, hsite, hg, hscope⟩
  · rintro ⟨site, hsite, hg, hscope⟩
    exact ⟨⟨site, ⟨hsite, by simp [hg]⟩, hg⟩, hscope⟩

theorem reaches_callees_iff {f g : Nat} :
    Graph.Reaches C.callees f g ↔ Relation.ReflTransGen C.Calls f g := by
  constructor
  · intro h
    induction h with
    | refl => exact .refl
    | step hg _ ih => exact .head (mem_callees_iff.1 hg) ih
  · intro h
    induction h using Relation.ReflTransGen.head_induction_on with
    | refl => exact .refl _
    | head hg _ ih => exact .step (mem_callees_iff.2 hg) ih

theorem mem_functions_callTree_iff (C : Context τ) (root f : Nat) :
    f ∈ (C.callTree root).functions ↔ Relation.ReflTransGen C.Calls root f := by
  rw [callTree, CallTree.functions_build, ← reaches_callees_iff]
  -- all of them but the root are called at some site
  refine Graph.mem_postOrder_iff (root :: C.program.allCallSites.filterMap C.resolve)
    (List.mem_cons_self ..) (fun g _ h hh => List.mem_cons_of_mem _ ?_) ?_
  · obtain ⟨site, hsite, hresolve, -⟩ := mem_callees_iff.1 hh
    exact List.mem_filterMap.2 ⟨site, Program.mem_allCallSites_iff.2 ⟨g, hsite⟩, hresolve⟩
  · rw [List.length_cons]
    exact Nat.succ_le_succ (List.length_filterMap_le ..)

/-- **The call tree of an analysis.** It lists each function once that can be reached from the root
    by calls of functions of analysed packages, the root last and even if its own package is not
    analysed. Its nodes are numbered in this order, and all ways to ask for its edges present these
    calls. -/
theorem callTree_presents (C : Context τ) (root : Nat) :
    (C.callTree root).functions.Nodup ∧
      (∀ f, f ∈ (C.callTree root).functions ↔ Relation.ReflTransGen C.Calls root f) ∧
      (C.callTree root).functions.getLast? = some root ∧
      (C.callTree root).Presents (C.callTree root).functions C.Calls := by
  refine ⟨?_, mem_functions_callTree_iff C root, ?_, ?_⟩
  · rw [callTree, CallTree.functions_build]
    exact Graph.nodup_postOrder ..
  · rw [callTree, CallTree.functions_build]
    exact Graph.getLast?_postOrder ..
  · have hcalls : C.Calls = fun f g => g ∈ C.callees f := by
      funext f g
      exact propext mem_callees_iff.symm
    rw [hcalls, callTree, CallTree.functions_build]
    exact CallTree.presents_build ..

end Context

end Overlap
